import Sylph.DataProcessor.System

/-!
# Completions

After every task it gets through, a worker sends the pool one `task_complete`
message (`Worker.completions_handleInfo`). What the pool is to do with it is plain
from the rest of its code: the worker is idle again, and the next task goes to an
idle worker (`CompletionHandled`).

But `WorkerPool.handleInfo` has no clause for the message. Whatever the state, the
first completion the pool takes from its mailbox ends it (`pool_ends_of_completion`);
a single task suffices (`completing`).
-/

namespace Sylph.DataProcessor

open Lib Elixir

/-- Whether an effect is a report to the pool that a task is complete. -/
def Effect.isCompletion {γ : Type} : Effect γ → Bool
  | .send .pool (.taskComplete _ _) => true
  | _ => false

namespace Worker

variable {γ : Type}

/-- What a worker does while it processes a task is to execute one event. -/
theorem processTask_out (env : Env) (self : Pid) (w : Worker γ) (t : Task γ) :
    ∃ done, (processTask env self w t).2.2 = [.execute done] := by
  rw [processTask]
  rcases doProcessTask t w with reason | result
  · exact ⟨_, rfl⟩
  · exact ⟨_, rfl⟩

/-- A worker that gets through a task reports one completion, its own. -/
theorem completions_handleInfo {env : Env} {self : Pid} {t : Task γ} {w w' : Worker γ}
    (h : (handleInfo env self (.processTask t) w).next = some w') :
    ∃ result, (handleInfo env self (.processTask t) w).out.filter Effect.isCompletion =
      [.send .pool (.taskComplete self result)] := by
  rw [handleInfo] at h ⊢
  rcases hc : ensureChainClient w t.chain with e | w₁
  · simp [hc, Outcome.next] at h
  · obtain ⟨done, he⟩ := processTask_out env self w₁ t
    rcases hn : t.data.fetch "number" with e | number
    · simp [hc, finishTask, hn, Outcome.next] at h
    · exact ⟨(processTask env self w₁ t).1, by
        simp [finishTask, hn, he, Outcome.out, Worker.event, Effect.isCompletion]⟩

end Worker

/-- The completion of its task by the worker `w` is handled in the pool `p` with an
    outcome: the pool goes on with the same workers, `w` is idle, and the head of the
    queue, if there is one, is dispatched to an idle worker. -/
def CompletionHandled {γ : Type} (p : WorkerPool γ) (w : Pid)
    (o : Outcome (WorkerPool γ) Reply (Effect γ)) : Prop :=
  ∃ p', o.next = some p' ∧ p'.workers = p.workers ∧
    match p.tasks with
    | [] => p'.tasks = [] ∧ p'.processing = p.processing.erase w
    | t :: ts => p'.tasks = ts ∧ ∃ v ∈ p.workers, v ∉ p.processing.erase w ∧
        p'.processing = (p.processing.erase w).insert v t ∧
        .send (.worker v) (.processTask t) ∈ o.out

namespace System

/-- Whatever the state of the system, a completion at the pool is not handled: the
    pool ends on it. -/
theorem pool_ends_of_completion {s : System} {p : WorkerPool Unit} {i : ℕ} {w : Pid}
    {result : Result Term} (hp : s.pool = some p)
    (hm : (s.mailbox .pool)[i]? = some (.taskComplete w result)) (env : WorkerPool.Env) :
    ¬CompletionHandled p w (WorkerPool.handle env (.taskComplete w result) p) ∧
      ∃ s', s.step (.pool env i) = some s' ∧ s'.pool = none := by
  refine ⟨?_, (s.take .pool i).poolHandles env (.taskComplete w result) p, ?_, rfl⟩
  · rintro ⟨p', h, -⟩
    exact absurd h (by simp [WorkerPool.handle, WorkerPool.handleInfo, Outcome.next])
  · -- The error leaves nothing to do, so no process is started on the way.
    have hf : s.Fresh (WorkerPool.handle env (.taskComplete w result) p).out :=
      ⟨List.nodup_nil, fun _ h => absurd h List.not_mem_nil⟩
    simp only [step, hp, hm]
    rw [if_pos hf]

/-- An environment of workers, for tests. -/
def workerEnv : Worker.Env where
  now := 0
  duration := 0
  format _ := ""

/-- A pool of one worker takes a block, and the worker gets through it. -/
def completing : List Label := [
  .startPool (.starting 0) "pool" 1, .pool (.starting 0) 0,
  .submit 0 "ethereum" "block" (.map [("number", .int 7), ("chain", .atom "ethereum")]),
  .pool (.starting 0) 0, .worker workerEnv 0 0 false]

theorem pool_ends_completing : ∃ s p t, machine.exec completing = some s ∧ s.pool = some p ∧
    p.processing.lookup 0 = some t ∧ (s.mailbox .pool)[0]? = some (.taskComplete 0 (.ok ())) ∧
    ¬CompletionHandled p 0 (WorkerPool.handle (.starting 0) (.taskComplete 0 (.ok ())) p) ∧
      ∃ s', s.step (.pool (.starting 0) 0) = some s' ∧ s'.pool = none :=
  ⟨_, _, _, rfl, rfl, rfl, rfl, pool_ends_of_completion rfl rfl (.starting 0)⟩

/-- A worker on a task may report its completion, and the pool not handle it. -/
theorem not_forall_completionHandled : ¬∀ (s : System) (p : WorkerPool Unit) (i : ℕ) (w : Pid)
    (t : Task Unit) (result : Result Term) (env : WorkerPool.Env), machine.Reachable s →
      s.pool = some p → p.processing.lookup w = some t →
      (s.mailbox .pool)[i]? = some (.taskComplete w result) →
      CompletionHandled p w (WorkerPool.handle env (.taskComplete w result) p) := fun h => by
  have hr : machine.exec completing = some _ := rfl
  obtain ⟨p', hn, -⟩ :=
    h _ _ 0 0 _ (.ok ()) (.starting 0) (Machine.reachable_of_exec hr) rfl rfl rfl
  exact absurd hn (by simp [WorkerPool.handle, WorkerPool.handleInfo, Outcome.next])

end System

end Sylph.DataProcessor

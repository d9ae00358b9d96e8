import Sylph.DataProcessor.Completion

/-!
# What a worker survives

A worker catches whatever is raised while a task is processed, but not what is raised after
that: the report takes the number of a block from the data of the task, and the pool accepts
tasks on any data.

* `handleTask`: the handling of a task, for anything its processing may come to
  (`Processing`); `handleInfo_processTask` is the case of the code's own.
* `survives_iff`: the worker goes on after a task, with one report on the block and one to
  the pool, if and only if the data has a number.
-/

namespace Sylph.DataProcessor

open Lib Elixir

/-- Whether an effect is a report on a block that is processed. -/
def Effect.isMark {γ : Type} : Effect γ → Bool
  | .cast (.markComplete _ _) | .cast (.markFailed _ _) => true
  | _ => false

namespace Worker

variable {γ : Type}

/-- What `do_process_task` comes to: a result, or a reason raised, thrown or exited with,
    along with the text it is formatted as. -/
inductive Processing
  | returns (result : Result Term)
  | raises (reason : Term) (formatted : String)

/-- What the processing of a task comes to. -/
def processing (env : Env) (task : Task γ) (state : Worker γ) : Processing :=
  match doProcessTask task state with
  | .ok result => .returns result
  | .error e => .raises e.toTerm (env.format e)

/-- `processTask`, for any processing. -/
def processTaskBy (process : Worker γ → Processing) (env : Env) (self : Pid) (state : Worker γ)
    (task : Task γ) : Result Term × Worker γ × List (Effect γ) :=
  match process state with
  | .returns result =>
    (result,
      { state with currentTask := none, processedCount := state.processedCount + 1 },
      [event "task_complete"
        [("duration", .int env.duration), ("success", .ofBool result.isOk)] (about self task [])])
  | .raises reason formatted =>
    (.error reason,
      { state with currentTask := none },
      [event "task_error" [("duration", .int env.duration)]
        (about self task [("error", .string formatted)])])

/-- `handleInfo` on a task, for any processing. -/
def handleTask (process : Worker γ → Processing) (env : Env) (self : Pid) (task : Task γ)
    (state : Worker γ) : Outcome (Worker γ) Reply (Effect γ) :=
  let started := [event "task_start" [("timestamp", .int env.now)] (about self task [])]
  match ensureChainClient state task.chain with
  | .error e => .raise e started
  | .ok state =>
    let (result, state, done) := processTaskBy process env self state task
    match task.data.fetch "number" with
    | .error e => .raise e (started ++ done)
    | .ok number =>
      .noreply state (started ++ done ++
        [.cast (report task.chain number result), .send .pool (.taskComplete self result)])

theorem processTask_eq (env : Env) (self : Pid) (state : Worker γ) (task : Task γ) :
    processTask env self state task = processTaskBy (processing env task) env self state task := by
  rw [processTask, processTaskBy, processing]
  rcases doProcessTask task state with e | result <;> rfl

theorem handleInfo_processTask (env : Env) (self : Pid) (task : Task γ) (state : Worker γ) :
    handleInfo env self (.processTask task) state =
      handleTask (processing env task) env self task state := by
  rcases hc : ensureChainClient state task.chain with e | state₁
  · simp only [handleInfo, handleTask, hc]
  · rcases hn : task.data.fetch "number" with e | number <;>
      simp only [handleInfo, handleTask, hc, finishTask, processTask_eq, hn]

/-- The worker `self` gets through a task: it goes on, with exactly one report on the block,
    if the task is about one, and exactly one to the pool, of the same result. -/
def Survives (self : Pid) (task : Task γ) (o : Outcome (Worker γ) Reply (Effect γ)) : Prop :=
  (∃ state, o.next = some state) ∧ ∃ result,
    (task.type = "block" → ∃ number,
      o.out.filter Effect.isMark = [.cast (report task.chain number result)]) ∧
    o.out.filter Effect.isCompletion = [.send .pool (.taskComplete self result)]

/-- What a worker does while it processes a task is to execute one event. -/
theorem processTaskBy_out (process : Worker γ → Processing) (env : Env) (self : Pid)
    (state : Worker γ) (task : Task γ) :
    ∃ done, (processTaskBy process env self state task).2.2 = [.execute done] := by
  rw [processTaskBy]
  rcases process state with result | ⟨reason, formatted⟩
  · exact ⟨_, rfl⟩
  · exact ⟨_, rfl⟩

/-- A worker has a client, or none, for the chain of every task the pool accepts. -/
theorem ensureChainClient_of_valid {task : Task γ} (h : WorkerPool.validateTask task = .ok ())
    (state : Worker γ) : ∃ state', ensureChainClient state task.chain = .ok state' := by
  rw [WorkerPool.validateTask] at h
  split at h
  · rename_i hv
    rw [ensureChainClient]
    rcases getChainClient state task.chain with _ | client
    · rcases List.mem_pair.1 hv.1 with hc | hc <;> rw [hc] <;> exact ⟨_, rfl⟩
    · exact ⟨state, rfl⟩
  · exact absurd h nofun

/-- The report on a block is one. -/
theorem isMark_report (chain : Atom) (number : Term) (result : Result Term) :
    (.cast (report chain number result) : Effect γ).isMark = true := by
  rcases result with reason | ⟨⟩ <;> rfl

/-- Where the data has a number, a worker goes on after two events and two reports. -/
theorem exists_handleTask_of_number (process : Worker γ → Processing) (env : Env) (self : Pid)
    {task : Task γ} {state state₁ : Worker γ} {number : Term}
    (hc : ensureChainClient state task.chain = .ok state₁)
    (hn : task.data.fetch "number" = .ok number) : ∃ state' started done result,
      handleTask process env self task state = .noreply state' [.execute started, .execute done,
        .cast (report task.chain number result), .send .pool (.taskComplete self result)] := by
  obtain ⟨done, hd⟩ := processTaskBy_out process env self state₁ task
  simp only [handleTask, hc, hn, hd, event]
  exact ⟨_, _, _, _, rfl⟩

/-- A worker gets through a task the pool accepts, whatever its processing comes to, if and
    only if the data of the task has a number. -/
theorem survives_iff (env : Env) (self : Pid) (task : Task γ) (state : Worker γ)
    (h : WorkerPool.validateTask task = .ok ()) :
    handleInfo env self (.processTask task) state =
      handleTask (processing env task) env self task state ∧
    ∀ process, Survives self task (handleTask process env self task state) ↔
      ∃ number, task.data.get? "number" = some number := by
  refine ⟨handleInfo_processTask env self task state, fun process => ?_⟩
  obtain ⟨state₁, hc⟩ := ensureChainClient_of_valid h state
  simp only [← Term.fetch_eq_ok_iff]
  constructor
  · rintro ⟨⟨state', hs⟩, -⟩
    rcases hn : task.data.fetch "number" with e | number
    · -- The number is taken outside of what is caught.
      simp only [handleTask, hc, hn, Outcome.next] at hs
      cases hs
    · exact ⟨number, rfl⟩
  · rintro ⟨number, hn⟩
    obtain ⟨state', started, done, result, ho⟩ :=
      exists_handleTask_of_number process env self hc hn
    rw [ho]
    refine ⟨⟨state', rfl⟩, result, fun _ => ⟨number, ?_⟩, rfl⟩
    have hm := isMark_report (γ := γ) task.chain number result
    simp only [Outcome.out, List.filter_cons, hm]
    rfl

/-- A block with a number. -/
theorem survives_iff_block :
    handleInfo ⟨0, 0, fun _ => ""⟩ 0
      (.processTask ⟨"ethereum", "block", .map [("number", .int 7)], 1, 0, ()⟩) initial =
      handleTask (processing ⟨0, 0, fun _ => ""⟩
        ⟨"ethereum", "block", .map [("number", .int 7)], 1, 0, ()⟩) ⟨0, 0, fun _ => ""⟩ 0
        ⟨"ethereum", "block", .map [("number", .int 7)], 1, 0, ()⟩ initial ∧
    ∀ process, Survives 0 ⟨"ethereum", "block", .map [("number", .int 7)], 1, 0, ()⟩
      (handleTask process ⟨0, 0, fun _ => ""⟩ 0
        ⟨"ethereum", "block", .map [("number", .int 7)], 1, 0, ()⟩ initial) ↔
      ∃ number, (Term.map [("number", .int 7)]).get? "number" = some number :=
  survives_iff _ 0 ⟨"ethereum", "block", .map [("number", .int 7)], 1, 0, ()⟩ _ rfl

/-- A transaction has a hash, and no number: its worker does not survive it, though all goes
    well with it. -/
theorem not_forall_survives : ¬∀ (env : Env) (self : Pid) (task : Task Unit)
    (state : Worker Unit), WorkerPool.validateTask task = .ok () →
      Survives self task (handleInfo env self (.processTask task) state) := by
  intro h
  obtain ⟨⟨state', hs⟩, -⟩ := h ⟨0, 0, fun _ => ""⟩ 0
    ⟨"ethereum", "transaction", .map [("chain", .atom "ethereum"), ("hash", .string "0x01")], 1,
      0, ()⟩ initial rfl
  exact absurd hs nofun

end Worker

end Sylph.DataProcessor

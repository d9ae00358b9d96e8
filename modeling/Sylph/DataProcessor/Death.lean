import Sylph.DataProcessor.Bookkeeping

/-!
# The death of a worker

A worker is linked to the pool and monitored by it, so its death leaves two messages for
the pool (`notifications`), in either order. The pool handles the messages of its mailbox
in turn (`drain`); one of a monitor that it has demonitored with `:flush` meanwhile is
not among them any more.

`handledOnce_iff`: the death is handled, once, if the `EXIT` message comes first and the
worker is not the last one of the pool, which replaces it. It flushes the `DOWN` message
then; but it has no clause for one that comes first, and dies of it.
-/

namespace Sylph.DataProcessor

open Lib Elixir

namespace WorkerPool

variable {γ : Type}

/-- The monitors demonitored. -/
def demonitored (out : List (Effect γ)) : List Ref :=
  out.filterMap fun
    | .demonitor ref => some ref
    | _ => none

/-- The workers started, with their monitors. -/
def startLinks (out : List (Effect γ)) : List (Pid × Ref) :=
  out.filterMap fun
    | .startLink pid ref => some (pid, ref)
    | _ => none

/-- Whether a message is that of one of the monitors `refs`. -/
def isDown (refs : List Ref) : Msg γ → Bool
  | .down ref _ _ => ref ∈ refs
  | _ => false

/-- The pool handles messages in turn, each with the answers of the runtime meanwhile,
    but those of the monitors `refs`, which are flushed. -/
def drain (refs : List Ref) (s : WorkerPool γ) :
    List (Env × Msg γ) → Option (WorkerPool γ) × List (Effect γ)
  | [] => (some s, [])
  | (env, msg) :: rest =>
    if isDown refs msg then drain refs s rest
    else
      let o := handle env msg s
      match o.next with
      | none => (none, o.out)
      | some s =>
        let (s, out) := drain (refs ++ demonitored o.out) s rest
        (s, o.out ++ out)

/-- The messages that the death of a worker leaves for the pool, in the order in which
    they arrive. -/
def notifications (env : Env) (pid : Pid) (ref : Ref) (reason : ExitReason) (downFirst : Bool) :
    List (Env × Msg γ) :=
  if downFirst then [(env, .down ref pid reason), (env, .exit pid reason)]
  else [(env, .exit pid reason), (env, .down ref pid reason)]

/-- The pool with the worker `pid` replaced by another one. -/
def replaced (pid : Pid) (reason : ExitReason) (new : Pid × Ref) (s : WorkerPool γ) :
    WorkerPool γ :=
  { s.afterExit pid reason with workers := (s.workers.erase pid).insert new.1 new.2 }

/-- The death of a worker is handled once: the pool survives it, starts one worker, queues
    the task of the dead one at most once more, and ends in a state that does not depend
    on the order of the notifications. -/
def HandledOnce (env : Env) (pid : Pid) (ref : Ref) (reason : ExitReason) (downFirst : Bool)
    (s : WorkerPool γ) : Prop :=
  ∃ (s' : WorkerPool γ) (out : List (Effect γ)) (new : Pid × Ref),
    drain [] s (notifications env pid ref reason downFirst) = (some s', out) ∧
      startLinks out = [new] ∧ s' = s.replaced pid reason new ∧
      ∃ ts, s'.tasks = s.tasks ++ ts ∧ ts.length ≤ 1

section Drain

variable {refs : List Ref} {env : Env} {msg : Msg γ} {s s' : WorkerPool γ}
  {rest : List (Env × Msg γ)}

theorem drain_of_isDown (h : isDown refs msg = true) :
    drain refs s ((env, msg) :: rest) = drain refs s rest := by
  rw [drain, if_pos h]

theorem drain_of_next_none (h : isDown refs msg = false) (hn : (handle env msg s).next = none) :
    drain refs s ((env, msg) :: rest) = (none, (handle env msg s).out) := by
  rw [drain, if_neg (Bool.eq_false_iff.1 h)]
  dsimp only
  rw [hn]

theorem drain_of_next_some (h : isDown refs msg = false) (hn : (handle env msg s).next = some s') :
    drain refs s ((env, msg) :: rest) =
      ((drain (refs ++ demonitored (handle env msg s).out) s' rest).1, (handle env msg s).out ++
        (drain (refs ++ demonitored (handle env msg s).out) s' rest).2) := by
  rw [drain, if_neg (Bool.eq_false_iff.1 h)]
  dsimp only
  rw [hn]

end Drain

variable {env : Env} {pid : Pid} {ref : Ref} {reason : ExitReason} {s s' : WorkerPool γ}

/-- A `DOWN` message that comes first is the end of the pool, which has no clause for it. -/
theorem drain_down_first :
    drain [] s (notifications env pid ref reason true) = (none, []) :=
  drain_of_next_none rfl rfl

/-- An `EXIT` message that comes first flushes the `DOWN` message. -/
theorem drain_exit_first (href : s.workers.lookup pid = some ref)
    (hn : (handleWorkerExit env pid reason s).next = some s') :
    drain [] s (notifications env pid ref reason false) =
      (some s', (handleWorkerExit env pid reason s).out) := by
  have hmem : ref ∈ demonitored (handleWorkerExit env pid reason s).out := by
    obtain ⟨events, -, he⟩ := handleWorkerExit_eq env reason href
    rw [he, if_pos (next_handleWorkerExit hn).2.1]
    exact List.mem_cons_self
  have hdown : isDown ([] ++ demonitored (handleWorkerExit env pid reason s).out)
      (.down ref pid reason : Msg γ) = true := decide_eq_true hmem
  -- The `DOWN` message is flushed.
  have hrest : drain ([] ++ demonitored (handleWorkerExit env pid reason s).out) s'
      [(env, .down ref pid reason)] = (some s', []) :=
    (drain_of_isDown hdown).trans rfl
  have hn' : (handle env (.exit pid reason) s).next = some s' := hn
  calc
    _ = ((drain ([] ++ demonitored (handleWorkerExit env pid reason s).out) s'
          [(env, .down ref pid reason)]).1, (handleWorkerExit env pid reason s).out ++
        (drain ([] ++ demonitored (handleWorkerExit env pid reason s).out) s'
          [(env, .down ref pid reason)]).2) := drain_of_next_some rfl hn'
    _ = _ := by rw [hrest, List.append_nil]

/-- The last worker is not replaced: the pool stops. -/
theorem drain_exit_first_of_last (hn : (handleWorkerExit env pid reason s).next = none) :
    (drain [] s (notifications env pid ref reason false)).1 = none := by
  have hn' : (handle env (.exit pid reason) s).next = none := hn
  exact congrArg Prod.fst (drain_of_next_none rfl hn')

/-- The workers started by an exit that the pool survives. -/
theorem startLinks_handleWorkerExit (hn : (handleWorkerExit env pid reason s).next = some s') :
    startLinks (handleWorkerExit env pid reason s).out =
      startLinks (maybeRestartWorker env (s.afterExit pid reason)).2 := by
  obtain ⟨hpid, hlive, -⟩ := next_handleWorkerExit hn
  obtain ⟨ref, href⟩ := Option.isSome_iff_exists.1 (AList.lookup_isSome.2 hpid)
  obtain ⟨events, -, he⟩ := handleWorkerExit_eq env reason href
  have hevents : startLinks (events.map Effect.execute : List (Effect γ)) = [] := by
    refine List.filterMap_eq_nil_iff.2 fun e he => ?_
    obtain ⟨event, -, rfl⟩ := List.mem_map.1 he
    rfl
  rw [he, if_pos hlive, Outcome.out, startLinks, List.filterMap_append, List.filterMap_append]
  change startLinks (exitEffects env pid ref reason) ++ startLinks _ ++ startLinks _ = _
  rw [hevents, List.append_nil]
  rfl

/-- Where there is room for a worker, an exit that the pool survives is handled once if
    the start of the new worker succeeds. -/
theorem handledOnce_exit_first (href : s.workers.lookup pid = some ref)
    (hsize : Dict.size s.workers ≤ s.size) (hlive : 1 < Dict.size s.workers) :
    HandledOnce env pid ref reason false s ↔ ∃ new, env.start 0 = .ok new := by
  have hpid := Dict.mem_of_lookup href
  obtain ⟨s', hn⟩ : ∃ s', (handleWorkerExit env pid reason s).next = some s' := by
    refine Option.ne_none_iff_exists'.1 fun hnone => ?_
    rcases next_handleWorkerExit_eq_none.1 hnone with h | h
    · exact h hpid
    · exact Nat.not_lt.2 h hlive
  have hroom : Dict.size (s.afterExit pid reason).workers < (s.afterExit pid reason).size :=
    Nat.lt_of_succ_le ((Nat.le_of_eq (Dict.size_erase_of_mem hpid)).trans hsize)
  have hdrain := drain_exit_first href hn
  have hlinks := startLinks_handleWorkerExit hn
  have hs' := (next_handleWorkerExit hn).2.2
  rw [maybeRestartWorker, if_pos hroom] at hlinks hs'
  rcases startWorker_workers env 0 (s.afterExit pid reason) with ⟨e, hst, he⟩ | ⟨w, r, hst, he⟩
  · -- No worker is started.
    rw [he] at hlinks
    refine iff_of_false ?_ ?_
    · rintro ⟨s₁, out, new, hd, hl, -⟩
      obtain rfl : (handleWorkerExit env pid reason s).out = out :=
        congrArg Prod.snd (hdrain.symm.trans hd)
      exact absurd (hlinks.symm.trans hl) (List.cons_ne_nil _ _).symm
    · rintro ⟨new, hnew⟩
      rw [hst] at hnew
      cases hnew
  · rw [he] at hlinks hs'
    refine iff_of_true ⟨s', _, (w, r), hdrain, hlinks, hs', _, congrArg tasks hs', ?_⟩ ⟨_, hst⟩
    rcases s.processing.lookup pid with _ | t
    · rw [requeued_none]
      exact Nat.zero_le 1
    · rcases requeued_cases reason t with h | ⟨-, h⟩ <;> rw [h]
      · exact Nat.zero_le 1
      · exact Nat.le_refl 1

/-- In every run that starts the workers once, the death of a worker is handled once if
    and only if the `EXIT` message comes first, another worker remains, and the start of a
    new one succeeds. -/
theorem handledOnce_iff {name : Atom} {size : ℕ} {ls : List Input} {p : WorkerPool Unit}
    (hsize : 1 ≤ size) (h : (machine name size).Run ls (some p))
    (hs : ls.countP Input.isStart ≤ 1) (href : p.workers.lookup pid = some ref)
    (env : Env) (reason : ExitReason) (downFirst : Bool) :
    HandledOnce env pid ref reason downFirst p ↔
      downFirst = false ∧ 1 < Dict.size p.workers ∧ ∃ new, env.start 0 = .ok new := by
  obtain ⟨hk, -⟩ := kept_of_run hsize h hs
  rcases downFirst with _ | _
  · rw [and_iff_right rfl]
    by_cases hlive : 1 < Dict.size p.workers
    · rw [handledOnce_exit_first href (hk.workers.trans_eq hk.size_eq.symm) hlive,
        and_iff_right hlive]
    · refine iff_of_false ?_ fun h => hlive h.1
      rintro ⟨s', out, new, hd, -⟩
      have hn : (handleWorkerExit env pid reason p).next = none :=
        next_handleWorkerExit_eq_none.2 (.inr (Nat.le_of_not_lt hlive))
      exact absurd ((congrArg Prod.fst hd).symm.trans (drain_exit_first_of_last hn))
        (Option.some_ne_none s')
  · refine iff_of_false ?_ fun h => absurd h.1 Bool.noConfusion
    rintro ⟨s', out, new, hd, -⟩
    rw [drain_down_first] at hd
    exact absurd (congrArg Prod.fst hd).symm (Option.some_ne_none s')

/-- Two workers start. -/
def startingTwo : List Input := [.startWorkers (.starting 0)]

theorem handledOnce_iff_startingTwo : ∃ p, (machine "pool" 2).exec startingTwo = some (some p) ∧
    (HandledOnce (.starting 2) 1 1 .shutdown false p ↔ false = false ∧
      1 < Dict.size p.workers ∧ ∃ new, (Env.starting 2).start 0 = .ok new) :=
  have h : (machine "pool" 2).exec startingTwo = some (some _) := rfl
  ⟨_, h, handledOnce_iff (Nat.le_succ 1) (Machine.run_of_exec h) (Nat.le_refl 1) rfl
    (.starting 2) .shutdown false⟩

/-- A `DOWN` message that comes first is the end of the pool, even if another worker
    remains and a new one can be started. -/
theorem not_forall_handledOnce : ¬∀ (name : Atom) (size : ℕ) (ls : List Input)
    (p : WorkerPool Unit) (pid : Pid) (ref : Ref) (env : Env) (reason : ExitReason)
    (downFirst : Bool), 1 ≤ size → (machine name size).Run ls (some p) →
      ls.countP Input.isStart ≤ 1 → p.workers.lookup pid = some ref →
      1 < Dict.size p.workers → (∃ new, env.start 0 = .ok new) →
      HandledOnce env pid ref reason downFirst p := fun h => by
  have hx : (machine "pool" 2).exec startingTwo = some (some _) := rfl
  obtain ⟨s', out, new, hd, -⟩ := h "pool" 2 _ _ 1 1 (.starting 2) .shutdown true (Nat.le_succ 1)
    (Machine.run_of_exec hx) (Nat.le_refl 1) rfl (Nat.le_refl 2) ⟨(2, 2), rfl⟩
  rw [drain_down_first] at hd
  exact absurd (congrArg Prod.fst hd).symm (Option.some_ne_none s')

end WorkerPool

end Sylph.DataProcessor

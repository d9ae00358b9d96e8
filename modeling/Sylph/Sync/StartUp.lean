import Sylph.Sync.Progress

/-!
# The start of the historical synchronisation

A syncer is initialized first, and then starts the historical task; either is tried again, after a
delay, if it fails. Meanwhile one message is pending that leads there.

* `Stage`: how far the syncer is, by the messages that are pending.
* `due_of_reachable`: hence it is never stuck, and neither initialized nor started twice.
-/

namespace Sylph.Sync.Syncer.System

open Lib Elixir

variable {chain : Chain} {now : ℤ} {s s' : System} {state : State} {pending pending' : List Msg}
  {task : Option HistoricalTask} {l : Label} {ls : List Label}

/-- How many messages are pending that initialize the syncer, and that start the task. -/
def waiting (pending : List Msg) : ℕ × ℕ :=
  (pending.count .initialization, pending.count (.startSync .historical))

/-- How far a syncer is: it is to be initialized, it is to start the task, or it has done so. -/
inductive Stage (state : State) (pending : List Msg) (task : Option HistoricalTask) : Prop
  | initializes (hi : state.initialized = false) (hr : state.historicalRunning = false)
    (ht : task = none) (hw : waiting pending = (1, 0))
  | starts (hi : state.initialized = true) (hr : state.historicalRunning = false)
    (ht : task = none) (hw : waiting pending = (0, 1))
  | runs (hi : state.initialized = true) (hr : state.historicalRunning = true)
    (ht : task.isSome) (hw : waiting pending = (0, 0))

theorem waiting_perm (h : pending'.Perm pending) : waiting pending' = waiting pending := by
  rw [waiting, waiting, h.count_eq, h.count_eq]

theorem waiting_cons_of_ne {m : Msg} (hi : m ≠ .initialization) (hs : m ≠ .startSync .historical) :
    waiting (m :: pending) = waiting pending := by
  rw [waiting, List.count_cons_of_ne hi, List.count_cons_of_ne hs, waiting]

theorem waiting_initialization : waiting (.initialization :: pending) =
    ((waiting pending).1 + 1, (waiting pending).2) := by
  rw [waiting, List.count_cons_self, List.count_cons_of_ne (by decide), waiting]

theorem waiting_startSync : waiting (.startSync .historical :: pending) =
    ((waiting pending).1, (waiting pending).2 + 1) := by
  rw [waiting, List.count_cons_self, List.count_cons_of_ne (by decide), waiting]

theorem Stage.congr (h : Stage state pending task) (hw : waiting pending' = waiting pending) :
    Stage state pending' task := by
  cases h with
  | initializes hi hr ht h => exact .initializes hi hr ht (hw.trans h)
  | starts hi hr ht h => exact .starts hi hr ht (hw.trans h)
  | runs hi hr ht h => exact .runs hi hr ht (hw.trans h)

/-- The message that initializes the syncer is the only one. -/
theorem Stage.of_initialization (h : Stage state (.initialization :: pending) task) :
    state.initialized = false ∧ state.historicalRunning = false ∧ task = none ∧
      waiting pending = (0, 0) := by
  cases h with
  | initializes hi hr ht h =>
    rw [waiting_initialization, Prod.mk.injEq] at h
    exact ⟨hi, hr, ht, Prod.ext (Nat.succ.inj h.1) h.2⟩
  | starts _ _ _ h | runs _ _ _ h =>
    rw [waiting_initialization, Prod.mk.injEq] at h
    exact absurd h.1 (Nat.succ_ne_zero _)

/-- So is the message that starts the task. -/
theorem Stage.of_startSync (h : Stage state (.startSync .historical :: pending) task) :
    state.initialized = true ∧ state.historicalRunning = false ∧ task = none ∧
      waiting pending = (0, 0) := by
  cases h with
  | starts hi hr ht h =>
    rw [waiting_startSync, Prod.mk.injEq] at h
    exact ⟨hi, hr, ht, Prod.ext h.1 (Nat.succ.inj h.2)⟩
  | initializes _ _ _ h | runs _ _ _ h =>
    rw [waiting_startSync, Prod.mk.injEq] at h
    exact absurd h.2 (Nat.succ_ne_zero _)

/-- A message sent is pending. -/
theorem waiting_send (s : System) (m : Msg) :
    waiting (s.mailbox ++ [m] ++ s.timers) = waiting (m :: s.pending) := by
  refine waiting_perm ?_
  rw [List.append_assoc]
  exact List.perm_middle

/-- So is one that is to be sent later. -/
theorem waiting_sendAfter (s : System) (m : Msg) :
    waiting (s.mailbox ++ (s.timers ++ [m])) = waiting (m :: s.pending) := by
  refine waiting_perm ?_
  rw [← List.append_assoc]
  exact List.perm_append_singleton _ _

/-- The server starts the task, unless it crashes. -/
theorem stage_startHistorical {state' : State} (hi : state.initialized = true)
    (hw : waiting s.pending = (0, 0)) (pid : ℕ) (earliestBlock safeBlock : Option ℤ) :
    let started : State := { state with historicalTask := some pid, historicalRunning := true }
    let s' :=
      { s with server := some started }.perform (.startHistorical pid earliestBlock safeBlock)
    s'.server = some state' → Stage state' s'.pending s'.task := by
  intro started s' hs
  rcases earliestBlock with _ | earliest
  · cases hs
  · rcases safeBlock with _ | safe
    · cases hs
    · obtain rfl := Option.some_inj.1 hs
      exact .runs hi rfl rfl hw

/-- The server handles a message: one that leads on is followed by the next one, or by itself. -/
theorem stage_serverHandles {env : Env} {msg : Msg} {state' : State} (hsent : Msg.IsSent msg)
    (h : Stage state (msg :: s.pending) s.task)
    (hs : (s.serverHandles env msg state).server = some state') :
    Stage state' (s.serverHandles env msg state).pending (s.serverHandles env msg state).task := by
  rcases msg with _ | (_ | _) | _ | _
  · obtain ⟨-, hr, ht, hw⟩ := h.of_initialization
    rw [serverHandles, handle] at hs ⊢
    rcases hst : initializeSyncStatus env state.chain with reason | syncStatus <;> rw [hst] at hs
    · obtain rfl := Option.some_inj.1 hs
      exact h.congr (waiting_sendAfter s _)
    · obtain rfl := Option.some_inj.1 hs
      refine .starts rfl hr ht ((waiting_send s _).trans ?_)
      rw [waiting_startSync, hw]
  · obtain ⟨hi, hr, ht, hw⟩ := h.of_startSync
    rcases hst : env.startLink with reason | pid
    · have hh : handle env (.startSync .historical) state =
          .noreply state [.sendAfter 5 (.startSync .historical)] := by
        rw [handle, startSyncMode, hi, hr, hst]
        rfl
      rw [serverHandles, hh] at hs ⊢
      obtain rfl := Option.some_inj.1 hs
      exact h.congr (waiting_sendAfter s _)
    · have hh : handle env (.startSync .historical) state = .noreply
          { state with historicalTask := some pid, historicalRunning := true }
          [.startHistorical pid state.earliestBlock state.safeBlock] := by
        rw [handle, startSyncMode, hi, hr, hst]
        rfl
      rw [serverHandles, hh] at hs ⊢
      exact stage_startHistorical hi hw pid state.earliestBlock state.safeBlock hs
  · exact hsent.elim
  · exact hsent.elim
  · obtain rfl := Option.some_inj.1 hs
    exact h.congr (waiting_cons_of_ne (by decide) (by decide)).symm

/-- The syncer is at one of the stages, as long as it runs. -/
def Staged (s : System) : Prop := ∀ state, s.server = some state → Stage state s.pending s.task

theorem staged_crash (s : System) : Staged s.crash := fun state hs => by cases hs

theorem Staged.step (h : Staged s) (hsent : ∀ m ∈ s.pending, Msg.IsSent m)
    (hst : s.step chain l = some s') : Staged s' := by
  cases l with
  | server env i =>
    rw [step] at hst
    split at hst
    · next state msg hs hm =>
      obtain rfl := Option.some_inj.1 hst
      have hp := (perm_of_getElem? hm).append_right s.timers
      have hmem := hsent msg (hp.subset List.mem_cons_self)
      exact fun state' hs' => stage_serverHandles hmem ((h state hs).congr (waiting_perm hp)) hs'
    · cases hst
  | getStatus =>
    obtain rfl := Option.some_inj.1 hst
    refine fun state hs => (h state hs).congr ((waiting_send s _).trans ?_)
    exact waiting_cons_of_ne (by decide) (by decide)
  | timer i =>
    rw [step] at hst
    split at hst
    · next msg hm =>
      obtain rfl := Option.some_inj.1 hst
      refine fun state hs => (h state hs).congr (waiting_perm ?_)
      change (s.mailbox ++ [msg] ++ s.timers.eraseIdx i).Perm (s.mailbox ++ s.timers)
      rw [List.append_assoc]
      exact (perm_of_getElem? hm).append_left s.mailbox
    · cases hst
  | loop answer =>
    rw [step] at hst
    split at hst
    · next state task hs ht =>
      split at hst
      · next loop hl =>
        obtain rfl := Option.some_inj.1 hst
        rw [loopPasses]
        split
        · intro state' hs'
          cases h state' hs' with
          | initializes _ _ hn | starts _ _ hn =>
            rw [ht] at hn
            cases hn
          | runs hi hr _ hw => exact .runs hi hr rfl hw
        · exact staged_crash _
      · cases hst
    · cases hst
  | crash =>
    obtain rfl := Option.some_inj.1 hst
    exact staged_crash s

theorem staged_of_reachable (hs : (machine now chain).Reachable s) : Staged s := by
  obtain ⟨ls, hr⟩ := hs
  refine hr.invariant (P := fun _ => Staged) ?_ fun _ s _ _ hr h hst =>
    h.step (consistent_of_reachable hr.reachable).sent hst
  intro state hs
  obtain rfl := Option.some_inj.1 hs
  exact .initializes rfl rfl rfl rfl

/-- In every run, a syncer has one message pending that initializes it, until it is; then one that
    starts the task, until it runs; and none any more. -/
theorem due_of_reachable (now : ℤ) (chain : Chain) (s : System) (state : State)
    (h : (machine now chain).Reachable s) (hs : s.server = some state) :
    (waiting s.pending, s.task.isSome) =
      if !state.initialized then ((1, 0), false)
      else if !state.historicalRunning then ((0, 1), false)
      else ((0, 0), true) := by
  cases staged_of_reachable h state hs with
  | initializes hi _ ht hw => rw [hi, hw, ht]; rfl
  | starts hi hr ht hw => rw [hi, hr, hw, ht]; rfl
  | runs hi hr ht hw => rw [hi, hr, hw, ht]; rfl

/-- The initialization fails once, and so does the start of the task. -/
def delayed : List Label :=
  let failing : Env := { envAtTen with get := none, latestBlock := .error .nil }
  let unstarted : Env := { envAtTen with startLink := .error .nil }
  [.server failing 0, .getStatus, .timer 0, .server envAtTen 1, .server unstarted 1]

theorem due_of_reachable_delayed : ∃ s state,
    (machine 0 .ethereum).exec delayed = some s ∧ s.server = some state ∧
      (waiting s.pending, s.task.isSome) = ((0, 1), false) ∧
      (waiting s.pending, s.task.isSome) =
        if !state.initialized then ((1, 0), false)
        else if !state.historicalRunning then ((0, 1), false)
        else ((0, 0), true) := by
  obtain ⟨s, state, he, hs, hw⟩ : ∃ s state,
      (machine 0 .ethereum).exec delayed = some s ∧ s.server = some state ∧
        (waiting s.pending, s.task.isSome) = ((0, 1), false) := ⟨_, _, rfl, rfl, rfl⟩
  have hreach := Machine.reachable_of_exec he
  exact ⟨s, state, he, hs, hw, due_of_reachable 0 .ethereum s state hreach hs⟩

end Sylph.Sync.Syncer.System

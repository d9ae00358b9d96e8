import Sylph.Lib.Except
import Sylph.Lib.Limiter
import Sylph.Sync.Server

/-!
# Reports of the progress

When the server of the syncer reports its progress.

* `reportTimes`: the times of the reports, while it handles some messages.
* `reportTimes_eq`: a progress message is reported on if it is handled at least a minute
  after the server has started, whatever has been reported in between: that it has reported
  is forgotten.
* `isChain_reportTimes_iff`: reports are a minute from one another if and only if these
  messages are.
* `reportTimes_eq_limit_iff`: nor are the reports those of a limiter, in any other case.
-/

namespace Sylph.Sync.Syncer

open Lib Elixir

/-- At least a minute lies between two times, in seconds. -/
def Apart (t t' : ℤ) : Prop := 60 ≤ t' - t

instance : DecidableRel Apart := fun t t' => inferInstanceAs (Decidable (60 ≤ t' - t))

instance : IsTrans ℤ Apart where
  trans t t' t'' h h' := by
    simp only [Apart] at *
    omega

/-- A report of the progress. -/
def Effect.isReport : Effect → Bool
  | reportProgress .. => true
  | _ => false

/-- The times of the reports, while some messages are handled in order. -/
def reportTimes (state : State) : List (Env × Msg) → List ℤ
  | [] => []
  | (env, msg) :: ls =>
    let o := handle env msg state
    (o.out.filter Effect.isReport).map (fun _ => env.now) ++
      match o.next with
      | some state => reportTimes state ls
      | none => []

/-- The times of the progress messages among some messages. -/
def progressTimes (ls : List (Env × Msg)) : List ℤ :=
  ls.filterMap fun l =>
    match l.2 with
    | .syncProgress .. => some l.1.now
    | _ => none

variable {env : Env} {msg : Msg} {state : State} {ls : List (Env × Msg)}

theorem updateSyncProgress_lastProgressReport (state : State) (mode : SyncMode) (blockNumber : ℤ) :
    (updateSyncProgress state mode blockNumber).lastProgressReport = state.lastProgressReport := by
  cases mode <;> rw [updateSyncProgress] <;> split <;> rfl

/-- A report, a minute after the one that is remembered. -/
theorem reports_reportSyncProgress (env : Env) (state : State) :
    ((reportSyncProgress env state).filter Effect.isReport).map (fun _ => env.now) =
      [env.now].filter (Apart state.lastProgressReport) := by
  by_cases h : Apart state.lastProgressReport env.now
  · have hle : env.now - state.lastProgressReport ≥ 60 := h
    have hf : [env.now].filter (Apart state.lastProgressReport) = [env.now] := by simpa using h
    rw [reportSyncProgress, if_pos hle, hf]
    rfl
  · have hlt : ¬env.now - state.lastProgressReport ≥ 60 := h
    have hf : [env.now].filter (Apart state.lastProgressReport) = [] := by simpa using h
    rw [reportSyncProgress, if_neg hlt, hf]
    rfl

/-- The start of a loop is no report, and none is remembered. -/
theorem startSyncMode_eq_ok {mode : SyncMode} {state' : State} {out : List Effect}
    (h : startSyncMode env mode state = .ok (state', out)) :
    state'.lastProgressReport = state.lastProgressReport ∧ out.filter Effect.isReport = [] := by
  have hstart : ∀ {f : ℕ → State} {e : ℕ → Effect}, (do
      let task ← env.startLink
      return (f task, [e task])) = Except.ok (state', out) →
        ∃ task, state' = f task ∧ out = [e task] := fun h => by
    obtain ⟨task, -, h⟩ := Except.bind_eq_ok.1 h
    cases h
    exact ⟨task, rfl, rfl⟩
  cases mode
  all_goals
    rw [startSyncMode] at h
    split at h
    · cases h
      exact ⟨rfl, rfl⟩
    split at h
    · cases h
      exact ⟨rfl, rfl⟩
    · obtain ⟨task, rfl, rfl⟩ := hstart h
      exact ⟨rfl, rfl⟩

/-- What a message does to the reports: the server goes on and remembers none, and reports
    if the message is one of progress, a minute after the report it remembers. -/
theorem reports_handle (env : Env) (msg : Msg) (state : State) :
    ∃ state', (handle env msg state).next = some state' ∧
      state'.lastProgressReport = state.lastProgressReport ∧
        ((handle env msg state).out.filter Effect.isReport).map (fun _ => env.now) =
          (progressTimes [(env, msg)]).filter (Apart state.lastProgressReport) := by
  cases msg with
  | initialization =>
    rw [handle]
    cases initializeSyncStatus env state.chain <;> exact ⟨_, rfl, rfl, rfl⟩
  | startSync mode =>
    rw [handle]
    rcases h : startSyncMode env mode state with e | ⟨state', out⟩
    · exact ⟨_, rfl, rfl, rfl⟩
    · obtain ⟨hlast, hout⟩ := startSyncMode_eq_ok h
      refine ⟨state', rfl, hlast, ?_⟩
      simp only [Outcome.out, hout]
      rfl
  | syncProgress mode blockNumber =>
    have hlast := updateSyncProgress_lastProgressReport state mode blockNumber
    refine ⟨_, rfl, hlast, ?_⟩
    have hreport := reports_reportSyncProgress env (updateSyncProgress state mode blockNumber)
    rw [hlast] at hreport
    exact hreport
  | getStatus => exact ⟨_, rfl, rfl, rfl⟩

/-- A progress message is reported on if it is handled a minute after the report that is
    remembered. -/
theorem reportTimes_eq (state : State) (ls : List (Env × Msg)) :
    reportTimes state ls = (progressTimes ls).filter (Apart state.lastProgressReport) := by
  induction ls generalizing state with
  | nil => rfl
  | cons l ls ih =>
    obtain ⟨env, msg⟩ := l
    obtain ⟨state', hn, hlast, hreport⟩ := reports_handle env msg state
    have hcons :
        progressTimes ((env, msg) :: ls) = progressTimes [(env, msg)] ++ progressTimes ls :=
      List.filterMap_append (l := [(env, msg)])
    rw [reportTimes, hreport, hn, hcons, List.filter_append, ← hlast, ← ih]

/-- While any messages are handled, the reports are a minute from one another if and only if
    the progress messages handled a minute after the start are. -/
theorem isChain_reportTimes_iff (start : ℤ) (chain : Chain) (ls : List (Env × Msg)) :
    (reportTimes (init start chain) ls).IsChain Apart ↔
      ((progressTimes ls).filter (Apart start)).IsChain Apart := by
  rw [reportTimes_eq]
  rfl

/-- The reports are those of a limiter if and only if they need none. -/
theorem reportTimes_eq_limit_iff (start : ℤ) (chain : Chain) (ls : List (Env × Msg)) :
    reportTimes (init start chain) ls = Limiter.limit Apart start (progressTimes ls) ↔
      (reportTimes (init start chain) ls).IsChain Apart := by
  rw [reportTimes_eq, eq_comm]
  exact Limiter.limit_eq_filter_iff

/-- Progress messages at some times. -/
def progressAt (times : List ℤ) : List (Env × Msg) :=
  times.map fun now =>
    ({ now := now
       get := none
       latestBlock := .error .nil
       insert := fun _ => .ok ()
       startLink := .error .nil }, .syncProgress .historical 7)

/-- Two messages a second from one another, a minute after the start, are both reported on. -/
theorem not_forall_isChain_reportTimes : ¬∀ (start : ℤ) (chain : Chain) (ls : List (Env × Msg)),
    (start :: ls.map fun l => l.1.now).IsChain (· ≤ ·) →
      (reportTimes (init start chain) ls).IsChain Apart := by
  intro h
  have hchain := h 0 .ethereum (progressAt [60, 61]) (by decide)
  rw [reportTimes_eq] at hchain
  exact absurd hchain (by decide)

end Sylph.Sync.Syncer

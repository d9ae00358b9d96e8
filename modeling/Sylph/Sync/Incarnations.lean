import Sylph.Sync.Progress

/-!
# The syncer, started again and again

The syncer dies with its historical task, and `Core.Chain.Supervisor` starts it again. What it
leaves behind is the row of its chain, from which the next one is initialized. The row is
written when there is none, by `create_initial_sync_status`, and by nothing else.

* `Life`: the row, the syncer that runs, and the historical tasks of those before it.
* `known_of_reachable`: hence each of them is started with the blocks of the row.
* `completed_of_reachable`: the batches a task completes start at one block after the other,
  from the one below the earliest block of the row down. So each syncer begins anew, whatever
  has been synchronised before it.
* `count_completed`: what they achieve does not add up. There are as many batches completed
  from a block as there are syncers that have got there, from the start, by themselves.
-/

namespace Sylph.Sync

open Lib Elixir

namespace Syncer

variable {chain : Chain} {earliest safe : ℤ}

/-! ## What a task completes -/

/-- The start blocks of the batches that the loop has completed successfully. -/
def Loop.completed (s : Loop) : List ℤ :=
  (s.batches.filter Batch.succeeded).filterMap Batch.startBlock

/-- The `n` blocks below the block `earliest`, downwards. -/
def below (earliest : ℤ) (n : ℕ) : List ℤ := (List.range n).map fun (i : ℕ) => earliest - 1 - i

@[simp] theorem length_below (n : ℕ) : (below earliest n).length = n := by simp [below]

theorem below_succ (n : ℕ) : below earliest (n + 1) = below earliest n ++ [earliest - 1 - n] := by
  simp [below, List.range_succ]

theorem nodup_below (n : ℕ) : (below earliest n).Nodup :=
  List.nodup_range.map fun i j h => by simpa using h

theorem mem_below {b : ℤ} {n : ℕ} : b ∈ below earliest n ↔ b < earliest ∧ earliest ≤ b + n := by
  simp only [below, List.mem_map, List.mem_range]
  constructor
  · rintro ⟨i, hi, rfl⟩
    omega
  · intro h
    exact ⟨(earliest - 1 - b).toNat, by omega, by omega⟩

/-- A block is among the blocks below another once, or not at all. -/
theorem count_below {b : ℤ} (hb : b < earliest) (n : ℕ) :
    (below earliest n).count b = if earliest ≤ b + n then 1 else 0 := by
  rw [(nodup_below n).count]
  simp only [mem_below, hb, true_and]

theorem Batch.succeeded_eq_true {batch : Batch} : batch.succeeded = true ↔ batch.AllOk := by
  rw [← Batch.result_eq_ok, Batch.succeeded]
  rcases batch.result with reason | ⟨⟩ <;> simp

/-- The loop has completed the blocks from the first one down to where it is, none below
    genesis. -/
structure Loop.Descends (earliest : ℤ) (s : Loop) : Prop where
  completed : s.completed = below earliest s.completed.length
  position : ∀ current, s.position = .at current → current = earliest - 1 - s.completed.length
  bounded : s.completed.length ≤ earliest.toNat

theorem Loop.Descends.step {s s' : Loop} {answer : Answer} (h : s.Descends earliest)
    (hst : (machine chain earliest safe).step s answer = some s') : s'.Descends earliest := by
  obtain ⟨current, next, batches, hp, hl, rfl⟩ := step_eq_some hst
  have hc := h.position current hp
  -- A pass without a batch that succeeds completes nothing.
  have hold : ∀ batches', batches'.filter Batch.succeeded = [] →
      Loop.completed ⟨next, s.batches ++ batches'⟩ = s.completed := fun batches' hb => by
    simp only [Loop.completed, List.filter_append, hb, List.append_nil]
  rcases historicalSyncLoop_cases hl with ⟨reason, rfl, rfl⟩ | ⟨rfl, rfl⟩ |
    ⟨batch, rfl, ⟨hok, -, rfl⟩ | ⟨hok, rfl⟩⟩
  · have he := hold [] rfl
    exact ⟨by rw [he]; exact h.completed, fun _ hx => absurd hx nofun, by rw [he]; exact h.bounded⟩
  · have he := hold [] rfl
    refine ⟨by rw [he]; exact h.completed, ?_, by rw [he]; exact h.bounded⟩
    rintro _ ⟨⟩
    rw [he]
    exact hc
  · -- The batch from where the loop is: it is above genesis there.
    have hstart := (startBlock_of_pass hl).1 batch (List.mem_singleton_self batch)
    have h₀ : 0 ≤ current := by
      by_contra hn
      rw [historicalSyncLoop_of_neg (not_le.1 hn)] at hl
      exact absurd (congrArg Prod.snd (Option.some_inj.1 hl)).symm (List.cons_ne_nil _ _)
    have he : Loop.completed ⟨.at (current - 1), s.batches ++ [batch]⟩ =
        s.completed ++ [current] := by
      simp only [Loop.completed, List.filter_append, List.filterMap_append]
      rw [List.filter_cons_of_pos (Batch.succeeded_eq_true.2 hok), List.filter_nil,
        List.filterMap_cons_some hstart, List.filterMap_nil]
    rw [hc] at he
    refine ⟨?_, ?_, ?_⟩
    · rw [hc, he, List.length_append, List.length_singleton, below_succ, ← h.completed]
    · rintro _ ⟨⟩
      rw [hc, he, List.length_append, List.length_singleton]
      omega
    · rw [hc, he, List.length_append, List.length_singleton]
      omega
  · have he := hold [batch] (by
      rw [List.filter_cons_of_neg fun hx => hok (Batch.succeeded_eq_true.1 hx), List.filter_nil])
    refine ⟨by rw [he]; exact h.completed, ?_, by rw [he]; exact h.bounded⟩
    rintro _ ⟨⟩
    rw [he]
    exact hc

theorem descends_of_reachable {s : Loop} (hs : (machine chain earliest safe).Reachable s) :
    s.Descends earliest := by
  refine hs.invariant (P := Loop.Descends earliest) ⟨rfl, ?_, Nat.zero_le _⟩
    fun s l s' h hst => h.step hst
  rintro current ⟨⟩
  simp [machine, Loop.completed]

/-! ## The lives of a syncer -/

/-- The row of the chain, the syncer that runs, or has run last, and the historical tasks of
    those before it. -/
structure Life where
  row : Option ChainSyncStatus
  system : System
  ended : List HistoricalTask

namespace Life

/-- The historical tasks started so far. -/
def tasks (s : Life) : List HistoricalTask := s.ended ++ s.system.task.toList

/-- What happens next. -/
inductive Label
  /-- A step of the syncer; `Repo.get` answers with the row there is. -/
  | run (l : System.Label)
  /-- The supervisor starts it again. -/
  | restart (now : ℤ)

/-- The answer of `Repo.get` is the row. -/
def reading (row : Option ChainSyncStatus) : System.Label → System.Label
  | .server env i => .server { env with get := row } i
  | l => l

/-- The row after a message is handled: an initialization comes to a status, which is the row,
    or has been inserted. -/
def rowAfter (env : Env) (msg : Msg) (state : State) (row : Option ChainSyncStatus) :
    Option ChainSyncStatus :=
  match msg with
  | .initialization =>
    match initializeSyncStatus env state.chain with
    | .ok status => some status
    | .error _ => row
  | _ => row

/-- The row after a step. -/
def stored (s : Life) : System.Label → Option ChainSyncStatus
  | .server env i =>
    match s.system.server, s.system.mailbox[i]? with
    | some state, some msg => rowAfter env msg state s.row
    | _, _ => s.row
  | _ => s.row

/-- The steps of the syncers of a chain, of which one lives at a time. -/
def step (chain : Chain) (s : Life) : Label → Option Life
  | .run l =>
    let l := reading s.row l
    (s.system.step chain l).map fun system => { s with row := s.stored l, system := system }
  | .restart now =>
    match s.system.server with
    | some _ => none
    | none => some { s with system := (System.machine now chain).init, ended := s.tasks }

/-- The first syncer of a chain is started, with the row there is. -/
def machine (now : ℤ) (chain : Chain) (row : Option ChainSyncStatus) : Machine Life Label where
  init := ⟨row, (System.machine now chain).init, []⟩
  step := step chain

variable {now : ℤ} {first : Option ChainSyncStatus} {s s' : Life}

theorem run_eq_some {l : System.Label} (h : s.step chain (.run l) = some s') : ∃ system,
    s.system.step chain (reading s.row l) = some system ∧
      s' = { s with row := s.stored (reading s.row l), system := system } := by
  obtain ⟨system, hsys, rfl⟩ := Option.map_eq_some_iff.1 h
  exact ⟨system, hsys, rfl⟩

theorem restart_eq_some {time : ℤ} (h : s.step chain (.restart time) = some s') :
    s.system.server = none ∧
      s' = { s with system := (System.machine time chain).init, ended := s.tasks } := by
  rw [step] at h
  split at h
  · cases h
  · next hs =>
    cases h
    exact ⟨hs, rfl⟩

/-! ### The row -/

/-- The row is not written again. -/
theorem rowAfter_of_get {env : Env} {row : ChainSyncStatus} (h : env.get = some row) (msg : Msg)
    (state : State) : rowAfter env msg state (some row) = some row := by
  rcases msg with _ | _ | _ | _
  · simp only [rowAfter, initializeSyncStatus, h]
  all_goals rfl

theorem stored_of_row {row : ChainSyncStatus} (h : s.row = some row) (l : System.Label) :
    s.stored (reading s.row l) = some row := by
  rcases l with ⟨env, i⟩ | _ | _ | _ | _
  · simp only [reading, stored]
    split
    · rw [h]
      exact rowAfter_of_get rfl _ _
    · exact h
  all_goals exact h

theorem row_of_step {l : Label} {row : ChainSyncStatus} (hst : s.step chain l = some s')
    (h : s.row = some row) : s'.row = some row := by
  rcases l with l | time
  · obtain ⟨system, -, rfl⟩ := run_eq_some hst
    exact stored_of_row h l
  · obtain ⟨-, rfl⟩ := restart_eq_some hst
    exact h

/-- A row that the syncer writes has one block for the latest, the safe and the earliest one. -/
structure Fresh (row : ChainSyncStatus) : Prop where
  earliest : row.earliestBlockNumber = row.latestBlockNumber
  safe : row.safeBlockNumber = row.latestBlockNumber

theorem fresh_of_createInitialSyncStatus {env : Env} {row : ChainSyncStatus}
    (h : createInitialSyncStatus env chain = .ok row) : Fresh row := by
  rw [createInitialSyncStatus] at h
  rcases hl : getChainLatestBlock env chain with e | ⟨number, hash⟩
  · rw [hl] at h
    exact absurd h nofun
  · rw [hl] at h
    simp only [bind, Except.bind, pure, Except.pure] at h
    split at h <;> cases h
    exact ⟨rfl, rfl⟩

/-- Where there is no row, a fresh one is written, or none. -/
theorem rowAfter_of_none {env : Env} (h : env.get = none) (msg : Msg) (state : State) :
    rowAfter env msg state none = none ∨
      ∃ row, rowAfter env msg state none = some row ∧ Fresh row := by
  rcases msg with _ | _ | _ | _
  · simp only [rowAfter, initializeSyncStatus, h]
    rcases hc : createInitialSyncStatus env state.chain with e | row
    · exact Or.inl rfl
    · exact Or.inr ⟨row, rfl, fresh_of_createInitialSyncStatus hc⟩
  all_goals exact Or.inl rfl

theorem stored_of_none (h : s.row = none) (l : System.Label) :
    s.stored (reading s.row l) = none ∨
      ∃ row, s.stored (reading s.row l) = some row ∧ Fresh row := by
  rcases l with ⟨env, i⟩ | _ | _ | _ | _
  · simp only [reading, stored]
    split
    · rw [h]
      exact rowAfter_of_none rfl _ _
    · exact Or.inl h
  all_goals exact Or.inl h

/-- The row is the one there has been from the beginning, or it has been written since. -/
theorem row_cases (hs : (machine now chain first).Reachable s) :
    s.row = first ∨ first = none ∧ ∃ row, s.row = some row ∧ Fresh row := by
  refine hs.invariant (P := fun s => s.row = first ∨
    first = none ∧ ∃ row, s.row = some row ∧ Fresh row) (Or.inl rfl) fun s l s' h hst => ?_
  rcases hrow : s.row with _ | row
  · have hf : first = none := by
      rcases h with h | h
      · rw [← h, hrow]
      · exact h.1
    rcases l with l | time
    · obtain ⟨system, -, rfl⟩ := run_eq_some hst
      exact (stored_of_none hrow l).imp (fun h => h.trans hf.symm) fun h => ⟨hf, h⟩
    · obtain ⟨-, rfl⟩ := restart_eq_some hst
      exact Or.inl (hrow.trans hf.symm)
  · rw [row_of_step hst hrow]
    rw [hrow] at h
    exact h

/-! ### What a syncer knows of it -/

/-- The row of the chain is there, with these blocks. -/
def HasRow (row : Option ChainSyncStatus) (earliest safe : Option ℤ) : Prop :=
  ∃ r, row = some r ∧ earliest = some r.earliestBlockNumber ∧ safe = some r.safeBlockNumber

/-- The server, once it is initialized, and its task have the blocks of the row. -/
structure Holds (row : Option ChainSyncStatus) (system : System) : Prop where
  server : ∀ state, system.server = some state → state.initialized = true →
    HasRow row state.earliestBlock state.safeBlock
  task : ∀ t, system.task = some t → HasRow row (some t.earliestBlock) (some t.safeBlock)

/-- The syncer that runs does so from its own start. -/
theorem reachable_system (hs : (machine now chain first).Reachable s) :
    ∃ time, (System.machine time chain).Reachable s.system := by
  refine hs.invariant (P := fun s => ∃ time, (System.machine time chain).Reachable s.system)
    ⟨now, .init⟩ fun s l s' ⟨time, h⟩ hst => ?_
  rcases l with l | time'
  · obtain ⟨system, hsys, rfl⟩ := run_eq_some hst
    exact ⟨time, h.step hsys⟩
  · obtain ⟨-, rfl⟩ := restart_eq_some hst
    exact ⟨time', .init⟩

variable {row : Option ChainSyncStatus} {system system' : System}

theorem Holds.crash (h : Holds row system) : Holds row system.crash :=
  ⟨fun _ hx => absurd hx.symm (Option.some_ne_none _), h.task⟩

/-- What the server and the task hold does not depend on the messages under way. -/
theorem Holds.congr (h : Holds row system) (hs : system'.server = system.server)
    (ht : system'.task = system.task) : Holds row system' :=
  ⟨fun state hx => h.server state (hs ▸ hx), fun t hx => h.task t (ht ▸ hx)⟩

/-- The server starts the task with the blocks it has. -/
theorem Holds.starts {state : State} (h : Holds row system) (hs : system.server = some state)
    (hi : state.initialized = true) (pid : ℕ) :
    Holds row ({ system with
      server := some { state with historicalTask := some pid, historicalRunning := true } }.perform
        (.startHistorical pid state.earliestBlock state.safeBlock)) := by
  obtain ⟨r, hr, he, hsafe⟩ := h.server state hs hi
  rw [he, hsafe]
  refine ⟨fun state' hx _ => ?_, fun t hx => ?_⟩
  · cases hx
    exact ⟨r, hr, rfl, rfl⟩
  · cases hx
    exact ⟨r, hr, rfl, rfl⟩

theorem HasRow.rowAfter {env : Env} {earliest safe : Option ℤ} (h : HasRow row earliest safe)
    (hget : env.get = row) (msg : Msg) (state : State) :
    HasRow (rowAfter env msg state row) earliest safe := by
  obtain ⟨r, rfl, hb⟩ := h
  exact ⟨r, rowAfter_of_get hget msg state, hb⟩

/-- The row that an initialization comes to is there afterwards. -/
theorem rowAfter_of_ok {env : Env} {state : State} {status : ChainSyncStatus}
    (h : initializeSyncStatus env state.chain = .ok status) (row : Option ChainSyncStatus) :
    rowAfter env .initialization state row = some status := by
  simp only [rowAfter, h]

theorem rowAfter_of_error {env : Env} {state : State} {reason : Term}
    (h : initializeSyncStatus env state.chain = .error reason) (row : Option ChainSyncStatus) :
    rowAfter env .initialization state row = row := by
  simp only [rowAfter, h]

/-- The server handles a message. -/
theorem holds_serverHandles {state : State} {env : Env} {msg : Msg} (h : Holds row system)
    (hs : system.server = some state) (hsent : System.Msg.IsSent msg) (hget : env.get = row) :
    Holds (rowAfter env msg state row) (system.serverHandles env msg state) := by
  rcases msg with _ | (_ | _) | _ | _
  · rw [System.serverHandles, handle]
    rcases hi : initializeSyncStatus env state.chain with reason | status
    · rw [rowAfter_of_error hi]
      exact h.congr hs.symm rfl
    · refine ⟨fun state' hx _ => ?_, fun t ht => (h.task t ht).rowAfter hget _ _⟩
      cases hx
      exact ⟨status, rowAfter_of_ok hi row, rfl, rfl⟩
  · change Holds row _
    rw [System.serverHandles, handle, startSyncMode]
    by_cases hi : state.initialized = true
    · by_cases hr : state.historicalRunning = true
      · rw [hi, hr]
        exact h.congr hs.symm rfl
      · rw [Bool.not_eq_true] at hr
        rw [if_neg (by rw [hi]; exact Bool.false_ne_true), hr]
        rcases env.startLink with reason | pid
        · exact h.congr hs.symm rfl
        · exact h.starts hs hi pid
    · rw [Bool.not_eq_true] at hi
      rw [hi]
      exact h.congr hs.symm rfl
  · exact absurd hsent id
  · exact absurd hsent id
  · exact h.congr hs.symm rfl

/-- A step of the syncer. -/
theorem holds_step {l : System.Label} (h : Holds s.row s.system)
    (hsent : ∀ m ∈ s.system.pending, System.Msg.IsSent m)
    (hst : s.system.step chain (reading s.row l) = some system) :
    Holds (s.stored (reading s.row l)) system := by
  rcases l with ⟨env, i⟩ | _ | i | answer | _ <;> simp only [reading, System.step] at hst
  · split at hst
    · next state msg hs hm =>
      cases hst
      simp only [reading, stored, hs, hm]
      refine holds_serverHandles (h.congr hs.symm rfl) rfl (hsent msg ?_) rfl
      exact List.mem_append_left _ (List.mem_of_getElem? hm)
    · cases hst
  · cases hst
    exact h.congr rfl rfl
  · split at hst <;> cases hst
    exact h.congr rfl rfl
  · split at hst
    · next state task hs ht =>
      split at hst
      · next loop hl =>
        cases hst
        -- The task keeps the blocks it has been started with.
        have hp : Holds s.row { s.system with task := some { task with loop := loop } } := by
          refine ⟨h.server, fun t hx => ?_⟩
          cases hx
          exact h.task task ht
        rw [System.loopPasses]
        split
        · exact hp
        · exact hp.crash
      · cases hst
    · cases hst
  · cases hst
    exact h.crash

/-- In every run, the row there is has been there when each of the tasks has been started. -/
theorem known_of_reachable (hs : (machine now chain first).Reachable s) :
    Holds s.row s.system ∧ ∀ t ∈ s.ended,
      HasRow s.row (some t.earliestBlock) (some t.safeBlock) ∧
      (Syncer.machine chain t.earliestBlock t.safeBlock).Reachable t.loop := by
  obtain ⟨ls, hr⟩ := hs
  refine hr.invariant (P := fun _ s => Holds s.row s.system ∧ ∀ t ∈ s.ended,
      HasRow s.row (some t.earliestBlock) (some t.safeBlock) ∧
      (Syncer.machine chain t.earliestBlock t.safeBlock).Reachable t.loop) ?_
    fun ls s l s' hr ⟨hh, he⟩ hst => ?_
  · refine ⟨⟨?_, fun t ht => absurd ht.symm (Option.some_ne_none t)⟩,
      fun t ht => absurd ht List.not_mem_nil⟩
    rintro state ⟨⟩ hi
    exact absurd hi Bool.false_ne_true
  · obtain ⟨time, hsys⟩ := reachable_system hr.reachable
    have hc := System.consistent_of_reachable hsys
    rcases l with l | time'
    · obtain ⟨system, hst', rfl⟩ := run_eq_some hst
      refine ⟨holds_step hh hc.sent hst', fun t ht => ⟨?_, (he t ht).2⟩⟩
      obtain ⟨r, hrow, hb⟩ := (he t ht).1
      exact ⟨r, stored_of_row hrow l, hb⟩
    · obtain ⟨-, rfl⟩ := restart_eq_some hst
      refine ⟨⟨?_, fun t ht => absurd ht.symm (Option.some_ne_none t)⟩, fun t ht => ?_⟩
      · rintro state ⟨⟩ hi
        exact absurd hi Bool.false_ne_true
      · rcases List.mem_append.1 ht with ht | ht
        · exact he t ht
        · have ht' := Option.mem_toList.1 ht
          exact ⟨hh.task t ht', hc.loop t ht'⟩

theorem task_of_reachable (hs : (machine now chain first).Reachable s) {t : HistoricalTask}
    (ht : t ∈ s.tasks) : HasRow s.row (some t.earliestBlock) (some t.safeBlock) ∧
      (Syncer.machine chain t.earliestBlock t.safeBlock).Reachable t.loop := by
  obtain ⟨hh, he⟩ := known_of_reachable hs
  rcases List.mem_append.1 ht with ht | ht
  · exact he t ht
  · obtain ⟨time, hsys⟩ := reachable_system hs
    have ht' := Option.mem_toList.1 ht
    exact ⟨hh.task t ht', (System.consistent_of_reachable hsys).loop t ht'⟩

/-! ### What becomes of the progress -/

/-- Whatever syncers there have been before it, each historical task begins below the earliest
    block of the row: the batches it completes start at the blocks from there down, one after the
    other. The row is the one there has been from the beginning, or a fresh one; no step changes
    it. -/
theorem completed_of_reachable (hs : (machine now chain first).Reachable s) :
    (∀ t ∈ s.tasks, ∃ row, s.row = some row ∧
      ∃ n : ℕ, n ≤ row.earliestBlockNumber.toNat ∧
        t.loop.completed = below row.earliestBlockNumber n) ∧
    ∀ row, s.row = some row → (first = some row ∨ first = none ∧ Fresh row) ∧
      ∀ l s', s.step chain l = some s' → s'.row = some row := by
  refine ⟨fun t ht => ?_, fun row hrow => ⟨?_, fun l s' hst => row_of_step hst hrow⟩⟩
  · obtain ⟨⟨row, hrow, he, -⟩, hl⟩ := task_of_reachable hs ht
    have hd := descends_of_reachable hl
    rw [Option.some_inj.1 he] at hd
    exact ⟨row, hrow, _, hd.bounded, hd.completed⟩
  · rcases row_cases hs with h | ⟨h, row', hrow', hf⟩
    · exact Or.inl (h.symm.trans hrow)
    · obtain rfl : row = row' := Option.some_inj.1 (hrow.symm.trans hrow')
      exact Or.inr ⟨h, hf⟩

/-- The syncer completes a batch, dies, and is started again. -/
def startedAgain : List Label :=
  [.run (.server System.envAtTen 0), .run (.server System.envAtTen 0),
    .run (.loop (.results fun _ => .ok ())), .run .crash, .restart 60,
    .run (.server System.envAtTen 0), .run (.server System.envAtTen 0),
    .run (.loop (.results fun _ => .ok ()))]

theorem completed_startedAgain : ∃ s, (machine 0 .ethereum none).exec startedAgain = some s ∧
    (s.tasks.map fun t => t.loop.completed) = [[9], [9]] ∧
    (∀ t ∈ s.tasks, ∃ row, s.row = some row ∧
      ∃ n : ℕ, n ≤ row.earliestBlockNumber.toNat ∧
        t.loop.completed = below row.earliestBlockNumber n) ∧
    ∀ row, s.row = some row →
      (none = some row ∨ (none : Option ChainSyncStatus) = none ∧ Fresh row) ∧
      ∀ l s', s.step .ethereum l = some s' → s'.row = some row :=
  have h : (machine 0 .ethereum none).exec startedAgain = some _ := rfl
  ⟨_, h, rfl, completed_of_reachable (Machine.reachable_of_exec h)⟩

theorem count_flatMap_of_forall {α : Type} {f : α → List ℤ} {p : α → Prop} [DecidablePred p]
    {b : ℤ} {l : List α} (h : ∀ a ∈ l, (f a).count b = if p a then 1 else 0) :
    (l.flatMap f).count b = l.countP (fun a => p a) := by
  induction l with
  | nil => rfl
  | cons a l ih =>
    rw [List.flatMap_cons, List.count_append, h a List.mem_cons_self,
      ih fun c hc => h c (List.mem_cons_of_mem a hc), List.countP_cons, Nat.add_comm]
    simp only [decide_eq_true_eq]

/-- From a block below the earliest one, as many batches have been completed as there are
    syncers that have completed, by themselves, all batches from the first one down to there. So
    the batch from genesis is only completed by a syncer that lives to go through them all. -/
theorem count_completed (hs : (machine now chain first).Reachable s) {row : ChainSyncStatus}
    (hrow : s.row = some row) {b : ℤ} (hb : b < row.earliestBlockNumber) :
    (s.tasks.flatMap fun t => t.loop.completed).count b =
      s.tasks.countP fun t => row.earliestBlockNumber ≤ b + t.loop.completed.length := by
  refine count_flatMap_of_forall fun t ht => ?_
  obtain ⟨⟨row', hrow', he, -⟩, hl⟩ := task_of_reachable hs ht
  obtain rfl : row = row' := Option.some_inj.1 (hrow.symm.trans hrow')
  have hd := descends_of_reachable hl
  rw [Option.some_inj.1 he] at hd
  rw [hd.completed, count_below hb, length_below]

theorem count_completed_startedAgain : ∃ s row,
    (machine 0 .ethereum none).exec startedAgain = some s ∧ s.row = some row ∧
    (s.tasks.flatMap fun t => t.loop.completed).count 9 = 2 ∧
    (s.tasks.flatMap fun t => t.loop.completed).count 9 =
      s.tasks.countP fun t => row.earliestBlockNumber ≤ 9 + t.loop.completed.length :=
  have h : (machine 0 .ethereum none).exec startedAgain = some _ := rfl
  ⟨_, _, h, rfl, rfl, count_completed (Machine.reachable_of_exec h) rfl (by decide)⟩

end Life

end Syncer

end Sylph.Sync

import Sylph.Sync.Server

/-!
# The progress the syncer reports

The server learns of progress by `:sync_progress` messages only, and the loop sends none:
so the earliest block of the server stays the one the loop has been started with
(`Consistent`), which is above all the batches the loop goes through
(`startBlock_lt_of_reachable`).

`earliestBlock_le_iff`: hence the server reports what the loop has achieved only as long as
that is nothing.
-/

namespace Sylph.Sync

open Lib Elixir

namespace Syncer

/-- The block a batch starts at. -/
def Batch.startBlock (batch : Batch) : Option ℤ := batch.head?.map fun x => x.1.1

/-- Whether all ranges of a batch have succeeded. -/
def Batch.succeeded (batch : Batch) : Bool :=
  match batch.result with
  | .ok () => true
  | .error _ => false

/-! ## The batches of the loop -/

variable {chain : Chain}

/-- The batch of a pass starts at the position of the loop, which does not move up. -/
theorem startBlock_of_pass {target current : ℤ} {answer : Answer} {next : Position}
    {batches : List Batch}
    (h : historicalSyncLoop chain target answer current = some (next, batches)) :
    (∀ batch ∈ batches, Batch.startBlock batch = some current) ∧
      ∀ block, next = .at block → block ≤ current := by
  rcases historicalSyncLoop_eq_some h with ⟨-, rfl, rfl⟩ | ⟨-, rfl, rfl⟩ |
    ⟨endBlock, ranges, hle, -, hs, h⟩
  · exact ⟨fun _ hb => absurd hb List.not_mem_nil, fun _ h => absurd h nofun⟩
  · exact ⟨fun _ hb => absurd hb List.not_mem_nil, by rintro _ ⟨⟩; exact Int.le_refl _⟩
  have ht := BlockRange.tiles_of_splitRange hs
    (show current ≤ endBlock from Int.le_of_lt (Int.lt_of_add_one_le hle))
  rcases processRanges_eq_some h with ⟨reason, rfl, rfl⟩ | ⟨result, -, rfl, hnext⟩
  · exact ⟨fun _ hb => absurd hb List.not_mem_nil, fun _ h => absurd h nofun⟩
  refine ⟨fun batch hb => ?_, fun block hblock => ?_⟩
  · -- The first range of a batch begins where the loop is.
    rw [List.mem_singleton.1 hb, Batch.startBlock, List.head?_map, Option.map_map]
    exact ht.head? (by omega)
  · rcases hnext with ⟨-, rfl⟩ | ⟨-, rfl⟩ <;> cases hblock
    · exact Int.sub_le_self _ Int.one_nonneg
    · exact Int.le_refl _

/-- In every run, the loop stays below the block it has been started with, and so do its
    batches. -/
theorem startBlock_lt_of_reachable {earliest safe : ℤ} {s : Loop}
    (hs : (machine chain earliest safe).Reachable s) :
    (∀ batch ∈ s.batches, ∃ start, Batch.startBlock batch = some start ∧ start < earliest) ∧
      ∀ current, s.position = .at current → current < earliest := by
  refine hs.invariant (P := fun s =>
    (∀ batch ∈ s.batches, ∃ start, Batch.startBlock batch = some start ∧ start < earliest) ∧
      ∀ current, s.position = .at current → current < earliest) ?_ ?_
  · refine ⟨fun _ hb => absurd hb List.not_mem_nil, ?_⟩
    rintro current ⟨⟩
    exact Int.sub_one_lt_of_le (Int.le_refl earliest)
  · rintro s answer s' ⟨hb, hc⟩ hst
    obtain ⟨current, next, batches, hp, hl, rfl⟩ := step_eq_some hst
    obtain ⟨hstart, hnext⟩ := startBlock_of_pass hl
    refine ⟨fun batch hm => ?_, fun block hblock => ?_⟩
    · rcases List.mem_append.1 hm with hm | hm
      · exact hb batch hm
      · exact ⟨current, hstart batch hm, hc current hp⟩
    · exact Int.lt_of_le_of_lt (hnext block hblock) (hc current hp)

/-! ## The server -/

namespace System

variable {now : ℤ} {s s' : System}

/-- The start blocks of the batches that the loop has completed successfully. -/
def completed (s : System) : List ℤ :=
  match s.task with
  | none => []
  | some task => (task.loop.batches.filter Batch.succeeded).filterMap Batch.startBlock

theorem perm_of_getElem? {α : Type} {l : List α} {i : ℕ} {a : α} (h : l[i]? = some a) :
    (a :: l.eraseIdx i).Perm l := by
  obtain ⟨hi, rfl⟩ := List.getElem?_eq_some_iff.1 h
  exact List.getElem_cons_eraseIdx_perm hi

/-- The messages that are sent in a run. -/
def Msg.IsSent : Msg → Prop
  | .initialization | .startSync .historical | .getStatus => True
  | .startSync .realtime | .syncProgress .. => False

/-- No message under way brings news of progress, and none initializes the server again;
    the task has been started by the server, with its earliest block. -/
structure Consistent (chain : Chain) (server : Option State) (pending : List Msg)
    (task : Option HistoricalTask) : Prop where
  sent : ∀ m ∈ pending, Msg.IsSent m
  once : pending.count .initialization ≤ 1
  fresh : ∀ state, server = some state → state.initialized = true → .initialization ∉ pending
  loop : ∀ t, task = some t → (Syncer.machine chain t.earliestBlock t.safeBlock).Reachable t.loop
  started : ∀ t state, task = some t → server = some state → state.initialized = true ∧
    state.historicalRunning = true ∧ state.earliestBlock = some t.earliestBlock

namespace Consistent

variable {server : Option State} {state : State} {pending pending' : List Msg}
  {task : Option HistoricalTask}

theorem perm (h : Consistent chain server pending task) (hp : pending'.Perm pending) :
    Consistent chain server pending' task where
  sent m hm := h.sent m (hp.subset hm)
  once := hp.count_eq _ ▸ h.once
  fresh state hs hi hm := h.fresh state hs hi (hp.subset hm)
  loop := h.loop
  started := h.started

/-- A message is sent. -/
theorem cons (h : Consistent chain server pending task) {m : Msg} (hm : Msg.IsSent m)
    (hne : m ≠ .initialization) : Consistent chain server (m :: pending) task where
  sent u hu := by
    rcases List.mem_cons.1 hu with rfl | hu
    · exact hm
    · exact h.sent u hu
  once := by
    rw [List.count_cons_of_ne hne]
    exact h.once
  fresh state hs hi hu := h.fresh state hs hi ((List.mem_cons.1 hu).resolve_left hne.symm)
  loop := h.loop
  started := h.started

/-- A message is handled, without a consequence. -/
theorem tail {m : Msg} (h : Consistent chain server (m :: pending) task) :
    Consistent chain server pending task where
  sent u hu := h.sent u (List.mem_cons_of_mem m hu)
  once := (List.count_le_count_cons).trans h.once
  fresh state hs hi hu := h.fresh state hs hi (List.mem_cons_of_mem m hu)
  loop := h.loop
  started := h.started

/-- The server dies. -/
theorem crash (h : Consistent chain server pending task) : Consistent chain none pending task where
  sent := h.sent
  once := h.once
  fresh state hs := absurd hs.symm (Option.some_ne_none state)
  loop := h.loop
  started _ state _ hs := absurd hs.symm (Option.some_ne_none state)

/-- The server is initialized: it has not started the task yet. -/
theorem initializes (h : Consistent chain (some state) (.initialization :: pending) task)
    (syncStatus : ChainSyncStatus) :
    Consistent chain (some (initializeSyncState state syncStatus)) pending task where
  sent u hu := h.sent u (List.mem_cons_of_mem _ hu)
  once := h.tail.once
  fresh _ _ _ hm := by
    have := h.once
    rw [List.count_cons_self] at this
    exact absurd (List.count_pos_iff.2 hm) (Nat.not_lt.2 (Nat.le_of_succ_le_succ this))
  loop := h.loop
  started t _ ht _ := absurd List.mem_cons_self (h.fresh state rfl (h.started t state ht rfl).1)

/-- The task is started. -/
theorem starts (h : Consistent chain (some state) pending task) {earliest safe : ℤ}
    (hi : state.initialized = true) (he : state.earliestBlock = some earliest) (pid : Option ℕ) :
    Consistent chain (some { state with historicalTask := pid, historicalRunning := true }) pending
      (some ⟨earliest, safe, ⟨.at (earliest - 1), []⟩⟩) where
  sent := h.sent
  once := h.once
  fresh _ hs _ := h.fresh state rfl hi
  loop t ht := by
    obtain rfl := Option.some_inj.1 ht
    exact .init
  started t state' ht hs := by
    obtain rfl := Option.some_inj.1 ht
    obtain rfl := Option.some_inj.1 hs
    exact ⟨hi, rfl, he⟩

/-- The loop goes on. -/
theorem passes {t : HistoricalTask} (h : Consistent chain server pending (some t)) {loop : Loop}
    {answer : Answer}
    (hst : (Syncer.machine chain t.earliestBlock t.safeBlock).step t.loop answer = some loop) :
    Consistent chain server pending (some { t with loop := loop }) where
  sent := h.sent
  once := h.once
  fresh := h.fresh
  loop t' ht := by
    obtain rfl := Option.some_inj.1 ht
    exact (h.loop t rfl).step hst
  started t' state ht hs := by
    obtain rfl := Option.some_inj.1 ht
    exact h.started t state rfl hs

end Consistent

/-- The messages under way to the server. -/
def pending (s : System) : List Msg := s.mailbox ++ s.timers

theorem consistent_startHistorical {state : State}
    (h : Consistent chain (some state) s.pending s.task) (hi : state.initialized = true) (pid : ℕ)
    {earliestBlock : Option ℤ} (he : state.earliestBlock = earliestBlock) (safeBlock : Option ℤ) :
    let state' : State := { state with historicalTask := some pid, historicalRunning := true }
    let s' :=
      { s with server := some state' }.perform (.startHistorical pid earliestBlock safeBlock)
    Consistent chain s'.server s'.pending s'.task := by
  rcases earliestBlock with _ | earliest
  · exact h.crash
  · rcases safeBlock with _ | safe
    · exact h.crash
    · exact h.starts hi he (some pid)

/-- The server handles a message. -/
theorem consistent_serverHandles {env : Env} {msg : Msg} {state : State}
    (h : Consistent chain (some state) (msg :: s.pending) s.task) :
    Consistent chain (s.serverHandles env msg state).server (s.serverHandles env msg state).pending
      (s.serverHandles env msg state).task := by
  have hsend : ∀ {server : Option State} {m : Msg}, Consistent chain server s.pending s.task →
      Msg.IsSent m → m ≠ .initialization →
      Consistent chain server (s.mailbox ++ [m] ++ s.timers) s.task := fun h hm hne => by
    refine (h.cons hm hne).perm ?_
    rw [List.append_assoc]
    exact List.perm_middle
  -- A message that is to be handled later once more.
  have hagain : ∀ {m : Msg}, Consistent chain (some state) (m :: s.pending) s.task →
      Consistent chain (some state) (s.mailbox ++ (s.timers ++ [m])) s.task := fun h => by
    refine h.perm ?_
    rw [← List.append_assoc]
    exact List.perm_append_singleton _ _
  rcases msg with _ | (_ | _) | _ | _
  · rw [serverHandles, handle]
    rcases initializeSyncStatus env state.chain with reason | syncStatus
    · exact hagain h
    · exact hsend (h.initializes syncStatus) trivial nofun
  · rw [serverHandles, handle, startSyncMode]
    by_cases hi : state.initialized = true
    · by_cases hr : state.historicalRunning = true
      · rw [hi, hr]
        exact h.tail
      · rw [Bool.not_eq_true] at hr
        rw [if_neg (by rw [hi]; exact Bool.false_ne_true), hr]
        rcases env.startLink with reason | pid
        · exact hagain h
        · exact consistent_startHistorical h.tail hi pid rfl state.safeBlock
    · rw [Bool.not_eq_true] at hi
      rw [hi]
      exact h.tail
  · exact absurd (h.sent _ List.mem_cons_self) id
  · exact absurd (h.sent _ List.mem_cons_self) id
  · exact h.tail

theorem consistent_step {l : Label} (h : Consistent chain s.server s.pending s.task)
    (hst : s.step chain l = some s') : Consistent chain s'.server s'.pending s'.task := by
  rcases l with ⟨env, i⟩ | _ | i | answer | _ <;> rw [step] at hst
  · -- The server handles a message, which is not pending any more.
    split at hst
    · next state msg hs hm =>
      obtain rfl := Option.some_inj.1 hst
      refine consistent_serverHandles ?_
      rw [hs] at h
      exact h.perm ((perm_of_getElem? hm).append_right s.timers)
    · exact absurd hst.symm (Option.some_ne_none s')
  · obtain rfl := Option.some_inj.1 hst
    -- A call adds a message that says nothing about the task.
    have hc : Consistent chain s.server (.getStatus :: s.pending) s.task := h.cons trivial nofun
    refine hc.perm ?_
    change (s.mailbox ++ [Msg.getStatus] ++ s.timers).Perm _
    rw [List.append_assoc]
    exact List.perm_middle
  · split at hst
    · -- A timer runs out: its message goes on to the mailbox.
      next msg hm =>
      obtain rfl := Option.some_inj.1 hst
      refine h.perm ?_
      change (s.mailbox ++ [msg] ++ s.timers.eraseIdx i).Perm (s.mailbox ++ s.timers)
      rw [List.append_assoc]
      exact (perm_of_getElem? hm).append_left s.mailbox
    · exact absurd hst.symm (Option.some_ne_none s')
  · split at hst
    · next state task hs ht =>
      split at hst
      · -- The task makes a pass of its loop, or crashes.
        next loop hl =>
        obtain rfl := Option.some_inj.1 hst
        rw [ht] at h
        have hp := h.passes hl
        rw [loopPasses]
        split
        · exact hp
        · exact hp.crash
      · exact absurd hst.symm (Option.some_ne_none s')
    · exact absurd hst.symm (Option.some_ne_none s')
  · obtain rfl := Option.some_inj.1 hst
    exact h.crash

/-- In every run, the server knows of the loop what it has started it with. -/
theorem consistent_of_reachable (hs : (machine now chain).Reachable s) :
    Consistent chain s.server s.pending s.task := by
  refine hs.invariant (P := fun s => Consistent chain s.server s.pending s.task) ?_
    fun s l s' h hst => consistent_step h hst
  refine ⟨?_, Nat.le_refl 1, ?_, fun task ht => absurd ht.symm (Option.some_ne_none task),
    fun task _ ht => absurd ht.symm (Option.some_ne_none task)⟩
  · intro m hm
    rw [List.mem_singleton.1 hm]
    trivial
  · rintro _ ⟨⟩ hi
    exact absurd hi Bool.false_ne_true

/-- In every run, the earliest block that the server reports is at most the start of each
    batch that the loop has completed, if and only if there is none. -/
theorem earliestBlock_le_iff (hs : (machine now chain).Reachable s) {state : State}
    (hserver : s.server = some state) (time : ℤ) :
    (∀ start ∈ s.completed, ∃ earliest,
      (status time state).earliestBlock = some earliest ∧ earliest ≤ start) ↔
    s.completed = [] := by
  constructor
  · intro h
    refine List.eq_nil_iff_forall_not_mem.2 fun start hm => ?_
    obtain ⟨earliest, he, hle⟩ := h start hm
    rw [completed] at hm
    split at hm
    · exact absurd hm List.not_mem_nil
    · next task ht =>
      have hc := consistent_of_reachable hs
      obtain ⟨-, -, heq⟩ := hc.started task state ht hserver
      obtain ⟨batch, hb, hstart⟩ := List.mem_filterMap.1 hm
      obtain ⟨start', hs', hlt⟩ :=
        (startBlock_lt_of_reachable (hc.loop task ht)).1 batch (List.mem_filter.1 hb).1
      obtain rfl : start = start' := Option.some_inj.1 (hstart.symm.trans hs')
      obtain rfl : task.earliestBlock = earliest := Option.some_inj.1 (heq.symm.trans he)
      exact absurd hle (Int.not_le.2 hlt)
  · intro h start hm
    rw [h] at hm
    exact absurd hm List.not_mem_nil

/-- A runtime with the block `10` as the latest one of the chain. -/
def envAtTen : Env where
  now := 0
  get := none
  latestBlock := .ok (10, .nil)
  insert _ := .ok ()
  startLink := .ok 0

/-- The server starts the loop, and a batch succeeds. -/
def progressing : List Label :=
  [.server envAtTen 0, .server envAtTen 0, .loop (.results fun _ => .ok ())]

theorem earliestBlock_le_iff_progressing : ∃ s state,
    (machine 0 .ethereum).exec progressing = some s ∧ s.server = some state ∧ s.completed = [9] ∧
      ((∀ start ∈ s.completed, ∃ earliest,
        (status 0 state).earliestBlock = some earliest ∧ earliest ≤ start) ↔ s.completed = []) :=
  have h : (machine 0 .ethereum).exec progressing = some _ := rfl
  ⟨_, _, h, rfl, rfl, earliestBlock_le_iff (Machine.reachable_of_exec h) rfl 0⟩

/-- The server does not follow the loop. -/
theorem not_forall_earliestBlock_le : ¬∀ (now : ℤ) (chain : Chain) (s : System) (state : State)
    (time : ℤ), (machine now chain).Reachable s → s.server = some state → s.mailbox = [] →
      ∀ start ∈ s.completed, ∃ earliest,
        (status time state).earliestBlock = some earliest ∧ earliest ≤ start := fun h => by
  have hx : (machine 0 .ethereum).exec progressing = some _ := rfl
  obtain ⟨earliest, he, hle⟩ := h 0 .ethereum _ _ 0 (Machine.reachable_of_exec hx) rfl rfl 9
    (List.mem_singleton_self 9)
  obtain rfl : (10 : ℤ) = earliest := Option.some_inj.1 he
  exact absurd hle (by decide)

end System

end Syncer

end Sylph.Sync

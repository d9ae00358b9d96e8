import Sylph.Lib.Machine

/-!
# Relays

A task that takes items from a source, one after the other, and sends what it makes of them
over a channel to a reader, who reads when they like and may leave at any time.

* `Mpsc`: a channel for a bounded number of items; sending waits while it is full, and fails
  once its receiver has been dropped.
* `Relay.step`: the steps of the relay and of its reader. What becomes of an item is given by
  a function to an `Outcome`: something is sent, nothing is, or the relay panics. A relay ends
  when its source does, when it panics, or when it finds that the reader has left.
* `Relay.conserves_of_run`: nothing is lost, duplicated or reordered. What the reader has
  received, what is in the channel and what is about to be sent are together what has been made
  of the items taken (`Relay.emitted`), as long as the reader is there; and what they have
  received is always the first of it.
* `Relay.received_of_atEnd`: so a reader who comes to the end of the stream has received it all.
  They come there also when the relay has panicked (`Relay.ending_of_run`).
* `Relay.taking_of_skip`: a relay that has nothing to send does not find out that its reader has
  left.
* `Relay.State.rank`: how far the relay is from its end, but for the items it is yet to take.

Assumed of `tokio::sync::mpsc`, and taken from its documentation:

* *order*: the items are received in the order in which they have been sent, each once;
* *capacity*: `send` waits as long as as many items as the capacity are in the channel, and is
  not cancelled while it waits;
* *closed*: once the receiver has been dropped, what is in the channel is dropped with it, and
  `send` fails (`Mpsc.send?`, `Mpsc.close`);
* *end*: `recv` returns `None` when the sender has been dropped and nothing is left in the channel
  (`Mpsc.recv?`, `Relay.State.AtEnd`).

Of the runtime: a task that panics drops what it owns, its sender among it. Where a destructor
panics in turn, the process aborts; this is left to the users of the library (`Outcome.panic`).
-/

namespace Lib

/-- A channel for at most `cap` items, between tasks. -/
structure Mpsc (α : Type*) (cap : ℕ) where
  buf : List α
  bounded : buf.length ≤ cap
  /-- The receiver has been dropped. -/
  closed : Bool

namespace Mpsc

variable {α : Type*} {cap : ℕ}

/-- `mpsc::channel(cap)` -/
def channel : Mpsc α cap := ⟨[], Nat.zero_le cap, false⟩

/-- `tx.send(a).await`, which waits while the buffer is full: whether `a` has been sent. -/
def send? (c : Mpsc α cap) (a : α) : Option (Bool × Mpsc α cap) :=
  if c.closed then some (false, c)
  else if h : c.buf.length < cap then
    some (true, ⟨c.buf ++ [a], by rw [List.length_append, List.length_singleton]; exact h, false⟩)
  else none

/-- `rx.recv().await`, as far as there is something to receive. -/
def recv? (c : Mpsc α cap) : Option (α × Mpsc α cap) :=
  match h : c.buf with
  | [] => none
  | a :: buf =>
    some (a, ⟨buf, by have := c.bounded; rw [h] at this; exact Nat.le_of_succ_le this, c.closed⟩)

/-- The receiver is dropped, with what has not been received. -/
def close (_ : Mpsc α cap) : Mpsc α cap := ⟨[], Nat.zero_le cap, true⟩

variable {c c' : Mpsc α cap} {a : α}

/-- An item is sent to a channel that is open, or nobody receives it. -/
theorem send?_eq_some {sent : Bool} (h : c.send? a = some (sent, c')) :
    (sent = true ∧ c.closed = false ∧ c'.closed = false ∧ c'.buf = c.buf ++ [a]) ∨
      (sent = false ∧ c.closed = true ∧ c' = c) := by
  rw [send?] at h
  split at h
  next hc =>
    obtain ⟨rfl, rfl⟩ := Prod.mk.inj (Option.some_inj.1 h)
    exact Or.inr ⟨rfl, hc, rfl⟩
  next hc =>
    split at h
    · obtain ⟨rfl, rfl⟩ := Prod.mk.inj (Option.some_inj.1 h)
      exact Or.inl ⟨rfl, Bool.not_eq_true _ ▸ hc, rfl, rfl⟩
    · cases h

theorem exists_send? (h : c.closed = false) (hlt : c.buf.length < cap) (a : α) :
    ∃ c', c.send? a = some (true, c') := by
  rw [send?, if_neg (by rw [h]; exact Bool.false_ne_true), dif_pos hlt]
  exact ⟨_, rfl⟩

theorem recv?_eq_some (h : c.recv? = some (a, c')) :
    c.buf = a :: c'.buf ∧ c'.closed = c.closed := by
  rw [recv?] at h
  split at h
  · cases h
  next hb =>
    obtain ⟨rfl, rfl⟩ := Prod.mk.inj (Option.some_inj.1 h)
    exact ⟨hb, rfl⟩

theorem exists_recv? (h : c.buf ≠ []) : ∃ a c', c.recv? = some (a, c') := by
  rw [recv?]
  split
  next hb => exact absurd hb h
  next => exact ⟨_, _, rfl⟩

end Mpsc

namespace Relay

/-- What a relay makes of an item. -/
inductive Outcome (β : Type*)
  | emit (b : β)
  | skip
  | panic

/-- What is sent. -/
def Outcome.emits {β : Type*} : Outcome β → Option β
  | emit b => some b
  | skip | panic => none

/-- Where the relay is. -/
inductive Pc (β : Type*)
  | taking
  /-- It waits for the channel. -/
  | sending (b : β)
  | returned
  | panicked

/-- What is about to be sent. -/
def Pc.pending {β : Type*} : Pc β → List β
  | sending b => [b]
  | taking | returned | panicked => []

/-- The relay has ended. -/
def Pc.ended {β : Type*} : Pc β → Bool
  | returned | panicked => true
  | taking | sending _ => false

/-- The relay has panicked. -/
def Pc.hasPanicked {β : Type*} : Pc β → Bool
  | panicked => true
  | taking | sending _ | returned => false

theorem Pc.hasPanicked_iff {β : Type*} {pc : Pc β} : pc.hasPanicked = true ↔ pc = .panicked := by
  cases pc <;> simp [hasPanicked]

variable {α β : Type*} {cap : ℕ}

/-- A relay, and its reader. -/
structure State (β : Type*) (cap : ℕ) where
  pc : Pc β
  chan : Mpsc β cap
  /-- What the reader has received. -/
  received : List β

/-- What happens next. -/
inductive Label (α : Type*)
  | take (a : α)
  /-- The source has ended. -/
  | finish
  | send
  | recv
  /-- The reader leaves. -/
  | leave

/-- Nothing has been taken, and the reader is there. -/
def init : State β cap := ⟨.taking, .channel, []⟩

/-- The relay has taken an item. -/
def Outcome.pc : Outcome β → Pc β
  | emit b => .sending b
  | skip => .taking
  | panic => .panicked

/-- The steps of the relay and of its reader. -/
def step (respond : α → Outcome β) (s : State β cap) (l : Label α) : Option (State β cap) :=
  match s.pc, l with
  | .taking, .take a => some { s with pc := (respond a).pc }
  | .taking, .finish => some { s with pc := .returned }
  | .sending b, .send => (s.chan.send? b).map fun (sent, chan) =>
    { s with pc := if sent then .taking else .returned, chan := chan }
  | _, .recv => s.chan.recv?.map fun (b, chan) =>
    { s with chan := chan, received := s.received ++ [b] }
  | _, .leave => some { s with chan := s.chan.close }
  | _, _ => none

/-- The runs of a relay. -/
def machine (cap : ℕ) (respond : α → Outcome β) : Machine (State β cap) (Label α) :=
  ⟨init, step respond⟩

/-- The item taken in a step, if there is one. -/
def Label.item : Label α → Option α
  | take a => some a
  | finish | send | recv | leave => none

/-- The items taken. -/
def taken (ls : List (Label α)) : List α := ls.filterMap Label.item

/-- What is made of items. -/
def emitted (respond : α → Outcome β) (as : List α) : List β :=
  as.filterMap fun a => (respond a).emits

variable {respond : α → Outcome β} {s s' : State β cap} {l : Label α} {as : List α} {a : α}

@[simp] theorem emitted_append (as as' : List α) :
    emitted respond (as ++ as') = emitted respond as ++ emitted respond as' :=
  List.filterMap_append

theorem taken_take (ls : List (Label α)) (a : α) : taken (ls ++ [.take a]) = taken ls ++ [a] :=
  List.filterMap_append

theorem taken_of_item {ls : List (Label α)} (h : l.item = none) :
    taken (ls ++ [l]) = taken ls := by
  rw [taken, List.filterMap_append, List.filterMap_cons, h]
  exact List.append_nil _

theorem emitted_cons (a : α) (as : List α) :
    emitted respond (a :: as) = (respond a).pc.pending ++ emitted respond as := by
  rw [emitted, List.filterMap_cons]
  cases respond a <;> rfl

theorem emitted_singleton (a : α) : emitted respond [a] = (respond a).pc.pending :=
  (emitted_cons a []).trans (List.append_nil _)

/-- The steps, each with what it needs. -/
inductive StepsTo (respond : α → Outcome β) (s : State β cap) : Label α → State β cap → Prop
  | take (a : α) (pc : s.pc = .taking) :
    StepsTo respond s (.take a) { s with pc := (respond a).pc }
  | finish (pc : s.pc = .taking) : StepsTo respond s .finish { s with pc := .returned }
  | sent {b : β} {chan : Mpsc β cap} (pc : s.pc = .sending b) (before : s.chan.closed = false)
    (after : chan.closed = false) (buf : chan.buf = s.chan.buf ++ [b]) :
    StepsTo respond s .send { s with pc := .taking, chan := chan }
  | unsent {b : β} (pc : s.pc = .sending b) (closed : s.chan.closed = true) :
    StepsTo respond s .send { s with pc := .returned }
  | recv {b : β} {chan : Mpsc β cap} (buf : s.chan.buf = b :: chan.buf)
    (closed : chan.closed = s.chan.closed) :
    StepsTo respond s .recv { s with chan := chan, received := s.received ++ [b] }
  | leave : StepsTo respond s .leave { s with chan := s.chan.close }

theorem stepsTo_of_step (h : step respond s l = some s') : StepsTo respond s l s' := by
  unfold step at h
  split at h
  next hpc => exact Option.some_inj.1 h ▸ .take _ hpc
  next hpc => exact Option.some_inj.1 h ▸ .finish hpc
  next hpc =>
    obtain ⟨⟨sent, chan⟩, hsend, rfl⟩ := Option.map_eq_some_iff.1 h
    rcases Mpsc.send?_eq_some hsend with ⟨rfl, hb, ha, hbuf⟩ | ⟨rfl, hc, rfl⟩
    · exact .sent hpc hb ha hbuf
    · exact .unsent hpc hc
  next =>
    obtain ⟨⟨b, chan⟩, hrecv, rfl⟩ := Option.map_eq_some_iff.1 h
    obtain ⟨hbuf, hclosed⟩ := Mpsc.recv?_eq_some hrecv
    exact .recv hbuf hclosed
  next => exact Option.some_inj.1 h ▸ .leave
  next => cases h

/-! ## What is received -/

/-- What the reader has received, what is in the channel and what is about to be sent are
    what has been made of the items, unless the reader has left. -/
structure Conserves (respond : α → Outcome β) (as : List α) (s : State β cap) : Prop where
  all : s.chan.closed = false →
    s.received ++ s.chan.buf ++ s.pc.pending = emitted respond as
  received : s.received <+: emitted respond as
  buf : s.chan.closed = true → s.chan.buf = []

theorem Conserves.init : Conserves respond [] (init : State β cap) :=
  ⟨fun _ => rfl, List.prefix_rfl, nofun⟩

theorem Conserves.step {ls : List (Label α)} (h : Conserves respond (taken ls) s)
    (hs : step respond s l = some s') : Conserves respond (taken (ls ++ [l])) s' := by
  cases stepsTo_of_step hs with
  | take a hpc =>
    rw [taken_take]
    refine ⟨fun ho => ?_, ?_, h.buf⟩
    · have hall := h.all ho
      rw [hpc] at hall
      rw [emitted_append, emitted_singleton, ← hall, Pc.pending, List.append_nil]
    · exact h.received.trans (emitted_append _ _ ▸ List.prefix_append _ _)
  | finish hpc =>
    rw [taken_of_item rfl]
    refine ⟨fun ho => ?_, h.received, h.buf⟩
    have hall := h.all ho
    rwa [hpc] at hall
  | sent hpc hb ha hbuf =>
    rw [taken_of_item rfl]
    refine ⟨fun _ => ?_, h.received, fun hc => absurd (ha.symm.trans hc) nofun⟩
    have hall := h.all hb
    rw [hpc] at hall
    rw [hbuf, ← hall, Pc.pending, Pc.pending, List.append_nil, List.append_assoc]
  | unsent hpc hc =>
    rw [taken_of_item rfl]
    refine ⟨fun ho => ?_, h.received, h.buf⟩
    rw [hc] at ho
    cases ho
  | @recv b chan hbuf hclosed =>
    rw [taken_of_item rfl]
    -- Something was in the channel, so the reader is still there.
    have ho : s.chan.closed = false := by
      rcases Bool.eq_false_or_eq_true s.chan.closed with hc | hc
      · rw [h.buf hc] at hbuf
        cases hbuf
      · exact hc
    have hall := h.all ho
    rw [hbuf] at hall
    have hall' : s.received ++ [b] ++ chan.buf ++ s.pc.pending = emitted respond (taken ls) := by
      rw [← hall]
      simp only [List.append_assoc, List.cons_append, List.nil_append]
    refine ⟨fun _ => hall', ?_, fun hc => ?_⟩
    · exact ⟨chan.buf ++ s.pc.pending, (List.append_assoc _ _ _).symm.trans hall'⟩
    · rw [hclosed, ho] at hc
      cases hc
  | leave =>
    rw [taken_of_item rfl]
    exact ⟨nofun, h.received, fun _ => rfl⟩

theorem conserves_of_run {ls : List (Label α)} (h : (machine cap respond).Run ls s) :
    Conserves respond (taken ls) s :=
  h.invariant (P := fun ls s => Conserves respond (taken ls) s) .init
    fun _ _ _ _ _ hc hs => hc.step hs

/-! ## The end of the stream -/

/-- A reader who has not left has come to the end of the stream. -/
structure State.AtEnd (s : State β cap) : Prop where
  stays : s.chan.closed = false
  empty : s.chan.buf = []
  ended : s.pc.ended = true

theorem Pc.pending_of_ended {pc : Pc β} (h : pc.ended = true) : pc.pending = [] := by
  cases pc with
  | taking => cases h
  | sending b => cases h
  | returned => rfl
  | panicked => rfl

theorem State.AtEnd.cases (h : s.AtEnd) : s.pc = .panicked ∨ s.pc = .returned := by
  cases hpc : s.pc with
  | taking => exact absurd (hpc ▸ h.ended) nofun
  | sending b => exact absurd (hpc ▸ h.ended) nofun
  | returned => exact Or.inr rfl
  | panicked => exact Or.inl rfl

/-- At the end of the stream, the reader has received all that has been made of the items. -/
theorem Conserves.received_of_atEnd (h : Conserves respond as s) (he : s.AtEnd) :
    s.received = emitted respond as := by
  have hall := h.all he.stays
  rwa [he.empty, Pc.pending_of_ended he.ended, List.append_nil, List.append_nil] at hall

/-- How a relay has come to where it is: no item has made it panic, but the last one, if it has
    panicked; and if it has returned, its source has ended or the reader has left. -/
structure Ending (respond : α → Outcome β) (ls : List (Label α)) (s : State β cap) : Prop where
  panics : s.pc = .panicked → ∃ as a, taken ls = as ++ [a] ∧ respond a = .panic ∧
    ∀ a ∈ as, respond a ≠ .panic
  smooth : s.pc ≠ .panicked → ∀ a ∈ taken ls, respond a ≠ .panic
  returns : s.pc = .returned → s.chan.closed = true ∨ .finish ∈ ls

theorem Ending.step {ls : List (Label α)} (h : Ending respond ls s)
    (hs : step respond s l = some s') : Ending respond (ls ++ [l]) s' := by
  have mem : .finish ∈ ls → (.finish : Label α) ∈ ls ++ [l] := List.mem_append_left _
  cases stepsTo_of_step hs with
  | take a hpc =>
    have hsm : ∀ a ∈ taken ls, respond a ≠ .panic := h.smooth (by rw [hpc]; exact nofun)
    refine ⟨fun hp => ⟨taken ls, a, taken_take ls a, ?_, hsm⟩, fun hp => ?_, fun hr => ?_⟩
    · cases hr : respond a with
      | panic => rfl
      | emit b => rw [hr] at hp; cases hp
      | skip => rw [hr] at hp; cases hp
    · rw [taken_take]
      refine List.forall_mem_append.2 ⟨hsm, List.forall_mem_singleton.2 fun he => hp ?_⟩
      rw [he]
      rfl
    · cases hr' : respond a with
      | panic => rw [hr'] at hr; cases hr
      | emit b => rw [hr'] at hr; cases hr
      | skip => rw [hr'] at hr; cases hr
  | finish hpc =>
    have ht : taken (ls ++ [.finish]) = taken ls := taken_of_item rfl
    refine ⟨nofun, fun _ => ?_, fun _ => Or.inr ?_⟩
    · rw [ht]
      exact h.smooth (by rw [hpc]; exact nofun)
    · exact List.mem_append_right _ (List.mem_singleton_self _)
  | sent hpc hb ha hbuf =>
    have ht : taken (ls ++ [.send]) = taken ls := taken_of_item rfl
    refine ⟨nofun, fun _ => ?_, nofun⟩
    rw [ht]
    exact h.smooth (by rw [hpc]; exact nofun)
  | unsent hpc hc =>
    have ht : taken (ls ++ [.send]) = taken ls := taken_of_item rfl
    refine ⟨nofun, fun _ => ?_, fun _ => Or.inl hc⟩
    rw [ht]
    exact h.smooth (by rw [hpc]; exact nofun)
  | recv hbuf hclosed =>
    have ht : taken (ls ++ [.recv]) = taken ls := taken_of_item rfl
    exact ⟨ht ▸ h.panics, ht ▸ h.smooth, fun hr => (h.returns hr).imp (hclosed.trans ·) mem⟩
  | leave =>
    have ht : taken (ls ++ [.leave]) = taken ls := taken_of_item rfl
    exact ⟨ht ▸ h.panics, ht ▸ h.smooth, fun _ => Or.inl rfl⟩

theorem ending_of_run {ls : List (Label α)} (h : (machine cap respond).Run ls s) :
    Ending respond ls s := by
  refine h.invariant (P := Ending respond) ?_ fun _ _ _ _ _ he hs => he.step hs
  exact ⟨nofun, fun _ => nofun, nofun⟩

/-- A relay that sends nothing does not find out that the reader has left. -/
theorem taking_of_skip {ls : List (Label α)} (h : (machine cap respond).Run ls s)
    (hskip : ∀ a ∈ taken ls, respond a = .skip) (hf : .finish ∉ ls) : s.pc = .taking := by
  revert hskip hf
  refine h.invariant (P := fun ls s => (∀ a ∈ taken ls, respond a = .skip) →
    .finish ∉ ls → s.pc = .taking) (fun _ _ => rfl) ?_
  intro ls s l s' hr ih hst hskip hf
  have hpc : s.pc = .taking := by
    refine ih (fun a ha => hskip a ?_) fun hm => hf (List.mem_append_left _ hm)
    rw [taken, List.filterMap_append]
    exact List.mem_append_left _ ha
  cases stepsTo_of_step hst with
  | take a =>
    have ha : respond a = .skip := by
      refine hskip a ?_
      rw [taken_take]
      exact List.mem_concat_self
    rw [ha, Outcome.pc]
  | finish => exact absurd List.mem_concat_self hf
  | sent hpc' => exact absurd (hpc.symm.trans hpc') nofun
  | unsent hpc' => exact absurd (hpc.symm.trans hpc') nofun
  | recv => exact hpc
  | leave => exact hpc

/-! ## Progress -/

/-- The steps that a relay is to take yet with the item it has. -/
def Pc.weight : Pc β → ℕ
  | taking => 1
  | sending _ => 3
  | returned | panicked => 0

/-- How far the relay is from its end, but for the items it is yet to take. -/
def State.rank (s : State β cap) : ℕ :=
  s.pc.weight + s.chan.buf.length + if s.chan.closed then 0 else 1

theorem weight_pc_le (o : Outcome β) : o.pc.weight ≤ 3 := by
  cases o with
  | emit b => exact Nat.le_refl 3
  | skip => exact Nat.le_add_right 1 2
  | panic => exact Nat.zero_le 3

/-- Each step but that of an item brings the relay closer to its end. -/
theorem rank_lt_of_step (h : step respond s l = some s') (hl : l.item = none)
    (ho : s.chan.closed = false) : s'.rank < s.rank := by
  cases stepsTo_of_step h with
  | take a hpc => cases hl
  | finish hpc => simp [State.rank, hpc, Pc.weight]
  | sent hpc hb ha hbuf =>
    simp only [State.rank, hpc, Pc.weight, hbuf, hb, ha, List.length_append, List.length_singleton]
    omega
  | unsent hpc hc => exact absurd (ho.symm.trans hc) nofun
  | recv hbuf hclosed => simp [State.rank, hbuf, hclosed]
  | leave =>
    simp only [State.rank, Mpsc.close, ho, List.length_nil, if_true, Bool.false_eq_true, if_false]
    omega

/-- An item takes it back by two steps at most. -/
theorem rank_le_of_take (h : step respond s (.take a) = some s') : s'.rank ≤ s.rank + 2 := by
  cases stepsTo_of_step h with
  | take a hpc =>
    have hw := weight_pc_le (respond a)
    have h₁ : s.pc.weight = 1 := by rw [hpc, Pc.weight]
    simp only [State.rank]
    omega

/-- A relay that is not at its end, and does not wait for its source, can take a step. -/
theorem exists_step (respond : α → Outcome β) (h : s.pc ≠ .taking) (ho : s.chan.closed = false)
    (hn : ¬s.AtEnd) (hcap : 0 < cap) :
    ∃ l s', l.item = none ∧ l ≠ .finish ∧ step respond s l = some s' := by
  by_cases hbuf : s.chan.buf = []
  · cases hpc : s.pc with
    | taking => exact absurd hpc h
    | returned => exact absurd ⟨ho, hbuf, by rw [hpc]; rfl⟩ hn
    | panicked => exact absurd ⟨ho, hbuf, by rw [hpc]; rfl⟩ hn
    | sending b =>
      obtain ⟨c, hc⟩ := Mpsc.exists_send? ho (by rw [hbuf]; exact hcap) b
      refine ⟨.send, { s with pc := .taking, chan := c }, rfl, nofun, ?_⟩
      simp [step, hpc, hc]
  · obtain ⟨b, c, hc⟩ := Mpsc.exists_recv? hbuf
    refine ⟨.recv, { s with chan := c, received := s.received ++ [b] }, rfl, nofun, ?_⟩
    unfold step
    cases hpc : s.pc <;> simp [hc]

end Relay

end Lib

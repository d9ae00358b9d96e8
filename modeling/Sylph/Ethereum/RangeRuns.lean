import Sylph.Ethereum.GetBlockRange

/-!
# Runs of a call for a range

What holds in every state of a call of `GetBlockRange`, under any schedule and any
answers, as long as the number of a block past the range does not overflow:

* `Spawned`: the goroutines started so far are those for the first blocks of the range;
* `Counted`: the semaphore and the wait group count the goroutines that hold a slot and
  those that have not finished, so that none is left after the wait;
* `Reported`: an error that has occurred is about to be reported, in the error channel,
  or returned;
* `Delivered`: if there was no error, the goroutines past their send have sent a message
  each.

Hence a call that succeeds has sent the range, each block once
(`complete_of_returned`). But the goroutines share the stream: as soon as the range has
two blocks, two of them may be sending at once (`oneSender_iff`).
-/

namespace Sylph.Ethereum

open Lib Go Proto.Ethereum

/-- The number of blocks of a range. -/
def GetBlockRangeRequest.size (req : GetBlockRangeRequest) : ℕ :=
  (req.endBlock.toInt + 1 - req.startBlock.toInt).toNat

/-- The numbers of the blocks of a range. -/
def GetBlockRangeRequest.blockNums (req : GetBlockRangeRequest) : List ℤ :=
  (List.range req.size).map fun i : ℕ => req.startBlock.toInt + i

namespace GetBlockRange

variable {req : GetBlockRangeRequest} {s s' : State}

/-- A goroutine holds a slot of the semaphore. -/
def Pc.holdsSlot : Pc → Bool
  | done | finished => false
  | _ => true

/-- The goroutine has still to call `wg.Done()`. -/
def Pc.unfinished : Pc → Bool
  | finished => false
  | _ => true

/-- A goroutine is about to report an error. -/
def Pc.isReport : Pc → Bool
  | report _ => true
  | _ => false

/-- The goroutine is in `stream.Send`. -/
def Pc.isSending : Pc → Bool
  | sending _ => true
  | _ => false

/-- A goroutine has nothing to send any more. -/
def Pc.isPast : Pc → Bool
  | release | done | finished => true
  | _ => false

/-- The number of goroutines at a place. -/
def State.count (s : State) (p : Pc → Bool) : ℕ := s.goroutines.countP fun g => p g.pc

/-- The number of goroutines at a place, when one of them moves. -/
theorem countP_set {l : List Goroutine} {i : ℕ} {g : Goroutine} (hg : l[i]? = some g)
    (p : Pc → Bool) (pc : Pc) :
    (l.set i { g with pc := pc }).countP (fun g => p g.pc) + (p g.pc).toNat =
      l.countP (fun g => p g.pc) + (p pc).toNat := by
  obtain ⟨r, hl, hs⟩ := exists_perm_set hg
  rw [(hs _).countP_eq, hl.countP_eq, List.countP_cons, List.countP_cons]
  rcases p g.pc with _ | _ <;> rcases p pc with _ | _ <;> simp

/-! ## The goroutines started -/

/-- How far the handler has got, after starting `n` goroutines. -/
def Main.At (req : GetBlockRangeRequest) (n : ℕ) : Main → Prop
  | test blockNum => blockNum.toInt = req.startBlock.toInt + n ∧ n ≤ req.size
  | acquire blockNum | add blockNum | spawn blockNum =>
    blockNum.toInt = req.startBlock.toInt + n ∧ n < req.size
  | _ => n = req.size

/-- A goroutine has been started for each number so far, in their order. -/
structure Spawned (req : GetBlockRangeRequest) (s : State) : Prop where
  main : s.main.At req s.goroutines.length
  nums : s.goroutines.map (fun g => g.num.toInt) =
    (List.range s.goroutines.length).map fun i : ℕ => req.startBlock.toInt + i

/-- A goroutine that moves keeps its number. -/
theorem map_num_set {α : Type} (f : Int64 → α) {l : List Goroutine} {i : ℕ} {g : Goroutine}
    (hg : l[i]? = some g) (pc : Pc) :
    (l.set i { g with pc := pc }).map (fun g => f g.num) = l.map fun g => f g.num := by
  obtain ⟨hi, rfl⟩ := List.getElem?_eq_some_iff.1 hg
  rw [List.map_set]
  have hi' : i < (l.map fun g => f g.num).length := by rw [List.length_map]; exact hi
  have := List.set_getElem_self hi'
  rwa [List.getElem_map] at this

/-- The number of the next block, if there is one to come. -/
theorem toInt_add_one {n : Int64} (h : n.toInt < 2 ^ 63 - 1) : (n + 1).toInt = n.toInt + 1 := by
  have := n.le_toInt
  rw [Int64.toInt_add, Int64.toInt_one]
  exact Int.bmod_eq_of_le (by omega) (by omega)

theorem Spawned.init (req : GetBlockRangeRequest) : Spawned req (init req) :=
  ⟨⟨(Int.add_zero _).symm, Nat.zero_le _⟩, rfl⟩

theorem Spawned.mainStep (hreq : req.endBlock.toInt < 2 ^ 63 - 1) (h : Spawned req s)
    (hst : MainStepsTo req s s.main s') : Spawned req s' := by
  obtain ⟨hmain, hnums⟩ := h
  generalize s.main = m at hst hmain
  rcases hst with h | h | h | _ | _ | h | _ | h | h
  case enter =>
    rw [Int64.le_iff_toInt_le] at h
    obtain ⟨hn, hlt⟩ := hmain
    have hlt' : s.goroutines.length < req.size := by
      rw [GetBlockRangeRequest.size] at *
      omega
    exact ⟨⟨hn, hlt'⟩, hnums⟩
  case leave =>
    rw [Int64.le_iff_toInt_le] at h
    obtain ⟨hn, hlt⟩ := hmain
    have heq : s.goroutines.length = req.size := by
      rw [GetBlockRangeRequest.size] at *
      omega
    exact ⟨heq, hnums⟩
  case spawn n =>
    obtain ⟨hn, hlt⟩ := hmain
    -- A block of the range is not the last number there is.
    have hn' : (n + 1).toInt = n.toInt + 1 := by
      refine toInt_add_one ?_
      rw [GetBlockRangeRequest.size] at hlt
      omega
    refine ⟨?_, ?_⟩
    · simp only [Main.At, List.length_append, List.length_singleton, hn', hn]
      omega
    · simp only [List.map_append, hnums, List.length_append, List.length_singleton,
        List.range_succ, List.map_singleton, hn]
  all_goals exact ⟨hmain, hnums⟩

theorem Spawned.step (hreq : req.endBlock.toInt < 2 ^ 63 - 1) (h : Spawned req s)
    (hst : StepsTo req s s') : Spawned req s' := by
  rcases hst with hst | ⟨hg, hgo⟩
  · exact h.mainStep hreq hst
  · refine ⟨?_, ?_⟩
    · simp only [hgo.frame.1, List.length_set]
      exact h.main
    · simp only [List.length_set]
      rw [map_num_set (fun n => n.toInt) hg]
      exact h.nums

/-! ## Slots and the wait -/

/-- The slots of the semaphore taken for a goroutine not started yet. -/
def Main.slots : Main → ℕ
  | add _ | spawn _ => 1
  | _ => 0

/-- The goroutines added to the wait group, but not started yet. -/
def Main.added : Main → ℕ
  | spawn _ => 1
  | _ => 0

/-- The handler is past its wait. -/
def Main.Joined : Main → Prop
  | close | select | returned _ => True
  | _ => False

/-- The slots and the wait group count what they are to count. -/
structure Counted (s : State) : Prop where
  sem : s.sem.buf.length = s.count Pc.holdsSlot + s.main.slots
  wg : s.wg = s.count Pc.unfinished + s.main.added
  joined : s.main.Joined → s.count Pc.unfinished = 0

theorem Counted.init (req : GetBlockRangeRequest) : Counted (init req) :=
  ⟨rfl, rfl, fun h => h.elim⟩

/-- What a goroutine does to the semaphore and the wait group. -/
theorem GoStepsTo.counted {num : Int64} {s₁ : State} {pc pc₁ : Pc}
    (h : GoStepsTo num s pc s₁ pc₁) :
    s₁.sem.buf.length + pc.holdsSlot.toNat = s.sem.buf.length + pc₁.holdsSlot.toNat ∧
      s₁.wg + pc.unfinished.toNat = s.wg + pc₁.unfinished.toNat ∧ pc.unfinished = true := by
  rcases h with _ | _ | _ | _ | _ | _ | h | _
  case released => exact ⟨h.symm, rfl, rfl⟩
  case done => exact ⟨rfl, (Int.sub_add_cancel s.wg 1).trans (Int.add_zero _).symm, rfl⟩
  all_goals exact ⟨rfl, rfl, rfl⟩

/-- While a goroutine takes steps, the handler is not past its wait. -/
theorem Counted.not_joined (h : Counted s) {i : ℕ} {g : Goroutine} {s₁ : State} {pc : Pc}
    (hg : s.goroutines[i]? = some g) (hgo : GoStepsTo g.num s g.pc s₁ pc) :
    ¬s.main.Joined := fun hj =>
  List.countP_eq_zero.1 (h.joined hj) g (List.mem_of_getElem? hg) hgo.counted.2.2

theorem Counted.mainStep (h : Counted s) (hst : MainStepsTo req s s.main s') : Counted s' := by
  obtain ⟨hsem, hwg, hjoin⟩ := h
  generalize s.main = m at hst hsem hwg hjoin
  rcases hst with h | h | h | _ | _ | h | _ | h | h
  case enter | leave => exact ⟨hsem, hwg, fun h => h.elim⟩
  case acquire =>
    refine ⟨?_, hwg, fun h => h.elim⟩
    simp only [h, List.length_append, List.length_singleton, hsem]
    rfl
  case add =>
    refine ⟨hsem, ?_, fun h => h.elim⟩
    simp only [hwg]
    rfl
  case spawn =>
    refine ⟨?_, ?_, fun h => h.elim⟩
    · simp only [hsem, State.count, List.countP_append]
      rfl
    · simp only [hwg, State.count, List.countP_append]
      rfl
  case wait =>
    -- The wait ends once the counter is zero.
    refine ⟨hsem, hwg, fun _ => ?_⟩
    have : s.wg = s.count Pc.unfinished + 0 := hwg
    rw [h] at this
    change s.count Pc.unfinished = 0
    omega
  all_goals exact ⟨hsem, hwg, fun _ => hjoin trivial⟩

theorem Counted.step (h : Counted s) (hst : StepsTo req s s') : Counted s' := by
  rcases hst with hst | ⟨hg, hgo⟩
  · exact h.mainStep hst
  · rename_i i g s₁ pc
    obtain ⟨hsem, hwg, -⟩ := id h
    obtain ⟨hs₁, hw₁, -⟩ := hgo.counted
    have hs := countP_set hg Pc.holdsSlot pc
    have hw := countP_set hg Pc.unfinished pc
    simp only [State.count] at hsem hwg
    refine ⟨?_, ?_, fun hj => ?_⟩
    · simp only [State.count, hgo.frame.1]
      omega
    · simp only [State.count, hgo.frame.1]
      omega
    · exact absurd (hgo.frame.1 ▸ hj) (h.not_joined hg hgo)

/-! ## Errors -/

/-- The handler has returned an error. -/
def Main.Failed : Main → Prop
  | returned (some _) => True
  | _ => False

/-- Errors that have occurred are not lost, and none is made up. -/
structure Reported (s : State) : Prop where
  kept : s.failures ≠ [] → s.count Pc.isReport ≠ 0 ∨ s.errCh.buf ≠ [] ∨ s.main.Failed
  reported : s.count Pc.isReport ≠ 0 → s.failures ≠ []
  success : s.main = .returned none → s.failures = []

theorem Reported.init (req : GetBlockRangeRequest) : Reported (init req) :=
  ⟨fun h => absurd rfl h, fun h => absurd rfl h, fun h => absurd h nofun⟩

/-- A goroutine about to report an error has not finished. -/
theorem count_isReport_le (s : State) : s.count Pc.isReport ≤ s.count Pc.unfinished := by
  refine List.countP_mono_left fun g _ h => ?_
  generalize g.pc = pc at h ⊢
  rcases pc with _ | _ | _ | _ | _ | _ | _ <;> first | rfl | exact h

/-- A goroutine comes to its report with an error, and leaves it with the channel full. -/
theorem GoStepsTo.reports {num : Int64} {s₁ : State} {pc pc₁ : Pc}
    (h : GoStepsTo num s pc s₁ pc₁) :
    (pc₁.isReport = pc.isReport ∧ s₁.failures = s.failures ∧ s₁.errCh.buf = s.errCh.buf) ∨
      (pc.isReport = false ∧ pc₁.isReport = true ∧ s₁.failures ≠ []) ∨
      (pc.isReport = true ∧ pc₁.isReport = false ∧ s₁.failures = s.failures ∧
        s₁.errCh.buf ≠ []) := by
  rcases h with _ | _ | _ | _ | _ | _ | h | _
  case fetchFailed | sendFailed =>
    exact .inr (.inl ⟨rfl, rfl, List.append_ne_nil_of_right_ne_nil _ (List.cons_ne_nil _ _)⟩)
  case reported =>
    exact .inr (.inr ⟨rfl, rfl, rfl, Chan.trySend_ne_nil _ _ Nat.one_pos⟩)
  all_goals exact .inl ⟨rfl, rfl, rfl⟩

theorem Reported.mainStep (h : Reported s) (hc : Counted s)
    (hst : MainStepsTo req s s.main s') : Reported s' := by
  obtain ⟨hkept, hrep, -⟩ := h
  have hjoin := hc.joined
  generalize s.main = m at hst hkept hjoin
  rcases hst with h | h | h | _ | _ | h | _ | h | h
  case spawn n =>
    have hn : (s.goroutines ++ [Goroutine.mk n .fetch]).countP (fun g => g.pc.isReport) =
        s.count Pc.isReport := List.countP_append
    refine ⟨?_, ?_, nofun⟩ <;> simp only [State.count, hn]
    · exact hkept
    · exact hrep
  case error => exact ⟨fun _ => .inr (.inr trivial), hrep, nofun⟩
  case success =>
    -- After the wait nothing is left to report, and the channel is empty.
    have hz : s.count Pc.isReport = 0 :=
      Nat.le_zero.1 (Nat.le_trans (count_isReport_le s) (Nat.le_of_eq (hjoin trivial)))
    have hf : s.failures = [] := by
      by_contra hf
      rcases hkept hf with hr | hr | hr
      · exact hr hz
      · exact hr h
      · exact hr
    exact ⟨fun h => absurd hf h, hrep, fun _ => hf⟩
  all_goals exact ⟨hkept, hrep, nofun⟩

theorem Reported.step (h : Reported s) (hc : Counted s) (hst : StepsTo req s s') :
    Reported s' := by
  rcases hst with hst | ⟨hg, hgo⟩
  · exact h.mainStep hc hst
  · obtain ⟨hkept, hrep, -⟩ := h
    rename_i i g s₁ pc
    have hr := countP_set hg Pc.isReport pc
    -- A goroutine that steps has not been joined yet, so the handler has not succeeded.
    have hsucc : s₁.main = .returned none → s₁.failures = [] := by
      rw [hgo.frame.1]
      exact fun hm => absurd (by rw [hm]; trivial) (hc.not_joined hg hgo)
    simp only [State.count] at hkept hrep
    -- It leaves the reports alone, comes to one, or leaves one with the channel full.
    rcases hgo.reports with ⟨hp, hf, he⟩ | ⟨hp, hp', hf⟩ | ⟨hp, hp', hf, he⟩
    · have heq : (s.goroutines.set i { g with pc := pc }).countP (fun g => g.pc.isReport) =
          s.goroutines.countP fun g => g.pc.isReport := by
        rw [hp] at hr
        omega
      refine ⟨?_, ?_, hsucc⟩ <;> simp only [State.count, heq, hf, he, hgo.frame.1]
      · exact hkept
      · exact hrep
    · rw [hp, hp'] at hr
      refine ⟨fun _ => .inl ?_, fun _ => hf, hsucc⟩
      simp only [State.count]
      exact fun h => by rw [h] at hr; exact absurd hr nofun
    · rw [hp, hp'] at hr
      refine ⟨fun _ => .inr (.inl he), fun _ => ?_, hsucc⟩
      simp only [hf]
      exact hrep fun h => by rw [h] at hr; exact absurd hr nofun

/-! ## Messages -/

/-- Without an error, the goroutines past their send have sent one message each. -/
def Delivered (s : State) : Prop :=
  s.failures = [] → (s.sent.map Prod.fst).Perm
    ((s.goroutines.filter fun g => g.pc.isPast).map Goroutine.num)

/-- A goroutine gets past its send by sending a message, or by an error. -/
theorem GoStepsTo.sends {num : Int64} {s₁ : State} {pc pc₁ : Pc}
    (h : GoStepsTo num s pc s₁ pc₁) :
    (pc₁.isPast = pc.isPast ∧ s₁.sent = s.sent ∧ s₁.failures = s.failures) ∨
      (pc.isPast = false ∧ pc₁.isPast = true ∧ s₁.failures = s.failures ∧
        ∃ blockData, s₁.sent = s.sent ++ [(num, blockData)]) ∨
      s₁.failures ≠ [] ∨ (pc.isReport = true ∧ s₁.failures = s.failures) := by
  rcases h with _ | _ | _ | _ | _ | _ | h | _
  case fetchFailed | sendFailed =>
    exact .inr (.inr (.inl (List.append_ne_nil_of_right_ne_nil _ (List.cons_ne_nil _ _))))
  case reported => exact .inr (.inr (.inr ⟨rfl, rfl⟩))
  case sent => exact .inr (.inl ⟨rfl, rfl, rfl, _, rfl⟩)
  all_goals exact .inl ⟨rfl, rfl, rfl⟩

theorem Delivered.step (h : Delivered s) (hrep : Reported s) (hst : StepsTo req s s') :
    Delivered s' := by
  rcases hst with hst | ⟨hg, hgo⟩
  · generalize s.main = m at hst
    rcases hst with _ | _ | _ | _ | _ | _ | _ | _ | _
    case spawn n =>
      have hn : (s.goroutines ++ [Goroutine.mk n .fetch]).filter (fun g => g.pc.isPast) =
          s.goroutines.filter fun g => g.pc.isPast := by
        rw [List.filter_append]
        exact List.append_nil _
      intro hf
      simp only [hn]
      exact h hf
    all_goals exact h
  · rename_i i g s₁ pc
    intro hf
    obtain ⟨r, hl, hs⟩ := exists_perm_set hg
    refine .trans ?_ (((hs { g with pc := pc }).filter _).map _).symm
    have hold := fun hf => (h hf).trans ((hl.filter fun g => g.pc.isPast).map Goroutine.num)
    rcases hgo.sends with ⟨hp, hsent, hfail⟩ | ⟨hp, hp', hfail, d, hsent⟩ | hfail | ⟨hp, hfail⟩
    · rw [hsent]
      refine (hold (hfail ▸ hf)).trans (.of_eq ?_)
      rw [List.filter_cons, List.filter_cons]
      simp only [hp]
      rcases g.pc.isPast with _ | _ <;> rfl
    · -- The goroutine has sent the message for its block.
      have := hold (hfail ▸ hf)
      rw [List.filter_cons, if_neg (by rw [hp]; exact Bool.false_ne_true)] at this
      rw [hsent, List.filter_cons, if_pos hp', List.map_append]
      exact (List.perm_append_singleton _ _).trans (this.cons _)
    · exact absurd hf hfail
    · -- A goroutine only reports where there was an error.
      refine absurd (hfail ▸ hf) (hrep.reported ?_)
      rw [State.count, hl.countP_eq, List.countP_cons, if_pos hp]
      exact Nat.succ_ne_zero _

/-! ## The call -/

/-- All of the above. -/
structure Inv (req : GetBlockRangeRequest) (s : State) : Prop where
  spawned : Spawned req s
  counted : Counted s
  reported : Reported s
  delivered : Delivered s

theorem inv_of_reachable (hreq : req.endBlock.toInt < 2 ^ 63 - 1)
    (hs : (machine req).Reachable s) : Inv req s := by
  refine hs.invariant ⟨.init req, .init req, .init req, fun _ => .refl _⟩ ?_
  rintro s l s' ⟨hsp, hc, hr, hd⟩ hst
  have hst := stepsTo_of_step hst
  exact ⟨hsp.step hreq hst, hc.step hst, hr.step hc hst, hd.step hr hst⟩

/-- A call that returns has left no goroutine behind; it has sent the range, each block
    once, if it succeeds; and it does not succeed if there was an error. In no state do
    more than ten goroutines hold a slot. -/
theorem complete_of_returned (hreq : req.endBlock.toInt < 2 ^ 63 - 1)
    (hs : (machine req).Reachable s) :
    (∀ err, s.main = .returned err →
      (err = none → (s.sent.map fun m => m.1.toInt).Perm req.blockNums) ∧
      (s.failures ≠ [] → err ≠ none) ∧ ∀ g ∈ s.goroutines, g.pc = .finished) ∧
    s.count Pc.holdsSlot ≤ 10 := by
  obtain ⟨hsp, hc, hr, hd⟩ := inv_of_reachable hreq hs
  refine ⟨fun err hm => ?_, ?_⟩
  · have hz : s.count Pc.unfinished = 0 := hc.joined (by rw [hm]; trivial)
    have hfin : ∀ g ∈ s.goroutines, g.pc = .finished := by
      intro g hg
      have := List.countP_eq_zero.1 hz g hg
      generalize g.pc = pc at this ⊢
      rcases pc with _ | _ | _ | _ | _ | _ | _ <;> first | rfl | exact absurd rfl this
    refine ⟨?_, ?_, hfin⟩
    · rintro rfl
      -- All goroutines are past their send, and those for all blocks have been started.
      have hall : s.goroutines.filter (fun g => g.pc.isPast) = s.goroutines :=
        List.filter_eq_self.2 fun g hg => by rw [hfin g hg]; rfl
      have hlen : s.goroutines.length = req.size := by
        have := hsp.main
        rwa [hm] at this
      have hp := (hd (hr.success hm)).map Int64.toInt
      have hn := hsp.nums
      rw [hall, List.map_map, List.map_map] at hp
      rw [hlen] at hn
      exact hp.trans (.of_eq hn)
    · rintro hf rfl
      exact hf (hr.success hm)
  · have := hc.sem
    have := s.sem.bounded
    omega

/-- A message without anything in it. -/
def emptyData : BlockData := ⟨none, [], [], []⟩

/-- The goroutines for two blocks are started. -/
def startingTwo : List Label := List.replicate 9 .main

/-- The blocks are sent at the same time, and the call returns. -/
def sendingTwo : List Label := startingTwo ++ [
  .go 1 (.fetch (.ok emptyData)), .go 0 (.fetch (.ok emptyData)), .go 1 .beginSend,
  .go 0 .beginSend, .go 0 (.endSend none), .go 1 (.endSend none), .go 1 .release, .go 0 .release,
  .go 0 .done, .go 1 .done, .main, .main, .main]

/-- The second block cannot be fetched. -/
def failingOne : List Label := startingTwo ++ [
  .go 1 (.fetch (.error "not found")), .go 0 (.fetch (.ok emptyData)), .go 1 .report,
  .go 0 .beginSend, .go 1 .release, .go 0 (.endSend none), .go 1 .done, .go 0 .release, .go 0 .done,
  .main, .main, .main]

/-- The blocks `5` and `6`, both sent, or one of them. -/
theorem complete_twoBlocks :
    (∃ s, (machine ⟨5, 6⟩).exec sendingTwo = some s ∧ s.main = .returned none ∧
      (s.sent.map fun m => m.1.toInt).Perm (GetBlockRangeRequest.blockNums ⟨5, 6⟩) ∧
      s.count Pc.holdsSlot ≤ 10) ∧
    ∃ s, (machine ⟨5, 6⟩).exec failingOne = some s ∧
      s.main = .returned (some "not found") ∧ s.failures = ["not found"] ∧
      (∀ g ∈ s.goroutines, g.pc = .finished) ∧ s.count Pc.holdsSlot ≤ 10 := by
  have hsent : (machine ⟨5, 6⟩).exec sendingTwo = some _ := rfl
  have hfailed : (machine ⟨5, 6⟩).exec failingOne = some _ := rfl
  have hlt : (⟨5, 6⟩ : GetBlockRangeRequest).endBlock.toInt < 2 ^ 63 - 1 := by decide
  have h := complete_of_returned hlt (Machine.reachable_of_exec hsent)
  have h' := complete_of_returned hlt (Machine.reachable_of_exec hfailed)
  exact ⟨⟨_, hsent, rfl, (h.1 none rfl).1 rfl, h.2⟩,
    ⟨_, hfailed, rfl, rfl, (h'.1 (some "not found") rfl).2.2, h'.2⟩⟩

/-! ## Senders -/

theorem reachable_main (hs : (machine req).Reachable s) (h : mainStep req s = some s') :
    (machine req).Reachable s' :=
  Machine.Reachable.step (l := .main) hs h

theorem step_go (act : Act) {i : ℕ} {g : Goroutine} {s₁ : State} {pc : Pc}
    (hg : s.goroutines[i]? = some g) (h : goStep g.num s g.pc act = some (s₁, pc)) :
    (machine req).step s (.go i act) =
      some { s₁ with goroutines := s₁.goroutines.set i { g with pc := pc } } := by
  change (s.goroutines[i]?.bind fun g => _) = _
  rw [hg, Option.bind_some, h]
  rfl

theorem reachable_go (hs : (machine req).Reachable s) (act : Act) {i : ℕ} {g : Goroutine}
    {s₁ : State} {pc : Pc} (hg : s.goroutines[i]? = some g)
    (h : goStep g.num s g.pc act = some (s₁, pc)) :
    (machine req).Reachable { s₁ with goroutines := s₁.goroutines.set i { g with pc := pc } } :=
  hs.step (step_go act hg h)

/-- The handler can start a goroutine for the next block, if the block is in the range
    and a slot is left; `P` is what its steps keep. -/
theorem exists_spawn {P : State → Prop} (hP : ∀ s s', P s → mainStep req s = some s' → P s')
    (hs : P s) {n : Int64} (hm : s.main = .test n) (hn : n ≤ req.endBlock)
    (hsem : s.sem.buf.length < 10) : ∃ s', P s' ∧ s'.main = .test (n + 1) ∧
      s'.goroutines = s.goroutines ++ [⟨n, .fetch⟩] ∧ s'.sem.buf = s.sem.buf ++ [()] := by
  obtain ⟨sem, hsend, hbuf⟩ := Chan.exists_send? () hsem
  have h₁ : mainStep req s = some { s with main := .acquire n } := by
    rw [mainStep, hm]
    simp only [if_pos hn]
  have h₂ : mainStep req { s with main := .acquire n } =
      some { s with sem := sem, main := .add n } := by
    simp only [mainStep, hsend, Option.map_some]
  -- The two other steps do not block.
  have h₃ : mainStep req { s with sem := sem, main := .add n } = some _ := rfl
  exact ⟨_, hP _ _ (hP _ _ (hP _ _ (hP _ _ hs h₁) h₂) h₃) rfl, rfl, rfl, hbuf⟩

/-- A goroutine that has started can come to its send. -/
theorem exists_sending (hs : (machine req).Reachable s) {i : ℕ} {n : Int64}
    (hg : s.goroutines[i]? = some ⟨n, .fetch⟩) : ∃ s', (machine req).Reachable s' ∧
      s'.main = s.main ∧ s'.sem = s.sem ∧
      s'.goroutines = s.goroutines.set i ⟨n, .sending emptyData⟩ := by
  obtain ⟨hi, -⟩ := List.getElem?_eq_some_iff.1 hg
  have h₁ := reachable_go hs (.fetch (.ok emptyData)) hg rfl
  have hg₁ : (s.goroutines.set i ⟨n, .ready emptyData⟩)[i]? = some ⟨n, .ready emptyData⟩ :=
    List.getElem?_set_self hi
  refine ⟨_, reachable_go h₁ .beginSend hg₁ rfl, rfl, rfl, ?_⟩
  exact List.set_set ..

/-- From the start of a range with two blocks, two goroutines can come to their sends. -/
theorem exists_two_senders (h₁ : req.startBlock ≤ req.endBlock)
    (h₂ : req.startBlock + 1 ≤ req.endBlock) : ∃ s, (machine req).Reachable s ∧
      s.count Pc.isSending = 2 := by
  have hmain : ∀ s s', (machine req).Reachable s → mainStep req s = some s' →
      (machine req).Reachable s' := fun s s' => reachable_main
  obtain ⟨s₁, hr₁, hm₁, hg₁, hsem₁⟩ := exists_spawn hmain .init rfl h₁ (Nat.succ_pos 9)
  have hroom : s₁.sem.buf.length < 10 := by
    rw [hsem₁]
    exact Nat.one_lt_succ_succ 8
  obtain ⟨s₂, hr₂, hm₂, hg₂, -⟩ := exists_spawn hmain hr₁ hm₁ h₂ hroom
  have hg₂ : s₂.goroutines = [⟨req.startBlock, .fetch⟩, ⟨req.startBlock + 1, .fetch⟩] := by
    rw [hg₂, hg₁]
    rfl
  obtain ⟨s₃, hr₃, -, -, hg₃⟩ := exists_sending (i := 0) hr₂ (by rw [hg₂]; rfl)
  obtain ⟨s₄, hr₄, -, -, hg₄⟩ := exists_sending (i := 1) hr₃ (by rw [hg₃, hg₂]; rfl)
  refine ⟨s₄, hr₄, ?_⟩
  rw [State.count, hg₄, hg₃, hg₂]
  rfl

/-- There are no more goroutines than blocks in the range. -/
theorem Spawned.length_le (h : Spawned req s) : s.goroutines.length ≤ req.size := by
  have hmain := h.main
  generalize s.main = m at hmain
  rcases m with _ | _ | _ | _ | _ | _ | _ | _
  case test => exact hmain.2
  case acquire | add | spawn => exact Nat.le_of_lt hmain.2
  all_goals exact Nat.le_of_eq hmain

/-- The first two blocks are in the range, if it is not that of a single block at most; after the
    last number there is comes the first one. -/
theorem two_blocks (h : ¬(req.endBlock < req.startBlock ∨
    req.startBlock = req.endBlock ∧ req.endBlock ≠ Int64.maxValue)) :
    req.startBlock ≤ req.endBlock ∧ req.startBlock + 1 ≤ req.endBlock := by
  rw [Int64.lt_iff_toInt_lt, ← Int64.toInt_inj, Ne, ← Int64.toInt_inj, Int64.toInt_maxValue] at h
  have := req.endBlock.toInt_lt
  refine ⟨by rw [Int64.le_iff_toInt_le]; omega, ?_⟩
  rcases Int.lt_or_le req.startBlock.toInt (2 ^ 63 - 1) with hlt | hle
  · rw [Int64.le_iff_toInt_le, toInt_add_one hlt]
    omega
  · have hmax : req.startBlock = Int64.maxValue := by
      rw [← Int64.toInt_inj, Int64.toInt_maxValue]
      have := req.startBlock.toInt_lt
      omega
    rw [hmax]
    exact Int64.minValue_le _

/-- At most one goroutine at a time is in a send on the stream, in all states of a call,
    if and only if the range is empty or has a single block, and not the last there is. -/
theorem oneSender_iff : (∀ s, (machine req).Reachable s → s.count Pc.isSending ≤ 1) ↔
    req.endBlock < req.startBlock ∨
      req.startBlock = req.endBlock ∧ req.endBlock ≠ Int64.maxValue := by
  constructor
  · intro h
    by_contra hn
    obtain ⟨h₁, h₂⟩ := two_blocks hn
    obtain ⟨s, hs, hc⟩ := exists_two_senders h₁ h₂
    have := h s hs
    omega
  · intro h s hs
    rw [Int64.lt_iff_toInt_lt, ← Int64.toInt_inj, Ne, ← Int64.toInt_inj, Int64.toInt_maxValue] at h
    have := req.endBlock.toInt_lt
    have := req.startBlock.toInt_lt
    have hreq : req.endBlock.toInt < 2 ^ 63 - 1 := by omega
    have hsize : req.size ≤ 1 := by
      rw [GetBlockRangeRequest.size]
      omega
    have hlen := (inv_of_reachable hreq hs).spawned.length_le
    exact Nat.le_trans List.countP_le_length (Nat.le_trans hlen hsize)

/-- In a call for the blocks `1` and `2`, both may be in a send at once. -/
theorem not_forall_oneSender : ¬∀ (req : GetBlockRangeRequest) (s : State),
    (machine req).Reachable s → s.count Pc.isSending ≤ 1 := fun h => by
  have hreq : (⟨1, 2⟩ : GetBlockRangeRequest).startBlock ≤ 2 := by decide
  obtain ⟨s, hs, hc⟩ := exists_two_senders hreq
    (show (1 : Int64) + 1 ≤ 2 by decide)
  have := h _ s hs
  omega

end GetBlockRange

end Sylph.Ethereum

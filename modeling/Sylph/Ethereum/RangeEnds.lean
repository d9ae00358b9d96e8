import Mathlib.Data.List.Perm.Subperm
import Sylph.Ethereum.RangeLoop

/-!
# The end of a call for a range

A call of `GetBlockRange` waits for goroutines, which wait for slots, and for each other on the
stream.

* `exists_step_of_not_returned`: as long as it has not returned, something can go on.
* `Outcomes`: each goroutine comes to one thing: its block is sent, or fails with an error. An
  error that is returned is one of them.
* `call_returns_iff`: so a call returns, whatever the schedule and the answers, with each block of
  the range sent once or failed, unless the range ends at the last number there is.
* `process`: the call, where a fetch may also panic, which nothing recovers from: the process
  crashes. `returns_iff` is what is left of the above.
-/

namespace Sylph.Ethereum.GetBlockRange

open Lib Go

variable {req : GetBlockRangeRequest} {s s' : State}

/-! ## What is left to do -/

/-- The steps of the handler after the loop. -/
def Main.after : Main → ℕ
  | test _ | acquire _ | add _ | spawn _ | wait => 3
  | close => 2
  | select => 1
  | returned _ => 0

/-- The handler has returned. -/
def Main.Returned : Main → Prop
  | returned _ => True
  | _ => False

/-- All steps left, in the loop and after it. -/
def totalRank (req : GetBlockRangeRequest) (s : State) : ℕ := rank req s + s.main.after

theorem totalRank_lt_of_step (hsp : Spawned req s) (hst : StepsTo req s s') :
    totalRank req s' < totalRank req s := by
  rcases hst with hst | ⟨hg, hgo⟩
  · by_cases hm : s.main.Looping
    · have hlt := rank_lt_of_mainStep hsp hm hst
      have hle : s'.main.after ≤ s.main.after := by
        generalize s.main = m at hst hm
        rcases hst with _ | _ | _ | _ | _ | _ | _ | _ | _ <;>
          first | exact Nat.le_refl _ | exact hm.elim
      exact Nat.add_lt_add_of_lt_of_le hlt hle
    · -- Outside of the loop, a step of the handler only moves it.
      simp only [totalRank, rank]
      generalize s.main = m at hst hm
      rcases hst with _ | _ | _ | _ | _ | _ | _ | _ | _
      case enter | leave | acquire | add | spawn => exact absurd trivial hm
      all_goals simp [Main.rank, Main.after]
  · refine Nat.add_lt_add_of_lt_of_le (rank_lt_of_goStep hg hgo) (Nat.le_of_eq ?_)
    exact congrArg Main.after hgo.frame.1

/-! ## Progress -/

/-- A goroutine that has not finished can go on. -/
theorem exists_step_of_unfinished (hc : Counted s) (h : s.count Pc.unfinished ≠ 0) :
    ∃ l s', (machine req).step s l = some s' := by
  obtain ⟨g, hg, hp⟩ := List.countP_pos_iff.1 (Nat.pos_of_ne_zero h)
  obtain ⟨i, hi⟩ := List.mem_iff_getElem?.1 hg
  by_cases hslot : g.pc.holdsSlot = true
  · have hne : s.sem.buf ≠ [] := by
      refine List.ne_nil_of_length_pos ?_
      rw [hc.sem]
      exact Nat.lt_add_right _ (List.countP_pos_iff.2 ⟨g, hg, hslot⟩)
    obtain ⟨act, s₁, pc, hgo⟩ := exists_goStep g.num hslot hne
    exact ⟨_, _, step_go act hi hgo⟩
  · -- Without a slot, only the wait group is left to tell.
    have hdone : g.pc = .done := by
      generalize g.pc = pc at hp hslot
      rcases pc with _ | _ | _ | _ | _ | _ | _ <;>
        first | rfl | exact absurd rfl hslot | exact absurd hp Bool.false_ne_true
    exact ⟨_, _, step_go .done hi (by rw [hdone]; rfl)⟩

/-- As long as the call has not returned, a step is possible. -/
theorem exists_step_of_not_returned (hc : Counted s) (hm : ¬s.main.Returned) :
    ∃ l s', (machine req).step s l = some s' := by
  by_cases hloop : s.main.Looping
  · exact exists_step hc hloop
  have hwg := hc.wg
  generalize hmain : s.main = m at hm hloop hwg
  rcases m with _ | _ | _ | _ | _ | _ | _ | _
  case test | acquire | add | spawn => exact absurd trivial hloop
  case returned => exact absurd trivial hm
  case wait =>
    by_cases hz : s.count Pc.unfinished = 0
    · refine ⟨.main, { s with main := .close }, ?_⟩
      have hw : s.wg = 0 := by
        rw [hwg, hz]
        rfl
      change mainStep req s = _
      simp only [mainStep, hmain, if_pos hw]
    · exact exists_step_of_unfinished hc hz
  case close =>
    refine ⟨.main, { s with main := .select }, ?_⟩
    change mainStep req s = _
    simp only [mainStep, hmain]
  case select =>
    refine ⟨.main, ?_⟩
    change ∃ s', mainStep req s = some s'
    rw [mainStep, hmain]
    rcases s.errCh.recv? with _ | ⟨err, errCh⟩ <;> exact ⟨_, rfl⟩

/-! ## What the goroutines come to -/

/-- It is settled whether the block of a goroutine is sent. -/
def Pc.isSettled : Pc → Bool
  | fetch | ready _ | sending _ => false
  | _ => true

/-- The goroutines whose blocks are settled have sent a message or met with an error each, and
    the errors reported are among these. -/
structure Outcomes (s : State) : Prop where
  settled : s.sent.length + s.failures.length = s.count Pc.isSettled
  sent : (s.sent.map Prod.fst).Subperm
    ((s.goroutines.filter fun g => g.pc.isSettled).map Goroutine.num)
  pending : ∀ g ∈ s.goroutines, ∀ err, g.pc = .report err → err ∈ s.failures
  channel : ∀ err ∈ s.errCh.buf, err ∈ s.failures
  returned : ∀ err, s.main = .returned (some err) → err ∈ s.failures

theorem Outcomes.init (req : GetBlockRangeRequest) : Outcomes (init req) :=
  ⟨rfl, .refl _, fun _ hg => absurd hg List.not_mem_nil, fun _ he => absurd he List.not_mem_nil,
    fun _ hm => absurd hm nofun⟩

/-- The block of a goroutine is settled once: by a message, or by an error. -/
theorem GoStepsTo.settles {num : Int64} {s₁ : State} {pc pc₁ : Pc}
    (h : GoStepsTo num s pc s₁ pc₁) :
    (pc₁.isSettled = pc.isSettled ∧ s₁.sent = s.sent ∧ s₁.failures = s.failures) ∨
    (pc.isSettled = false ∧ pc₁.isSettled = true ∧
      ((∃ blockData, s₁.sent = s.sent ++ [(num, blockData)]) ∧ s₁.failures = s.failures ∨
        s₁.sent = s.sent ∧ ∃ err, s₁.failures = s.failures ++ [err])) := by
  rcases h with _ | _ | _ | _ | _ | _ | h | _
  case fetchFailed | sendFailed => exact Or.inr ⟨rfl, rfl, Or.inr ⟨rfl, _, rfl⟩⟩
  case sent => exact Or.inr ⟨rfl, rfl, Or.inl ⟨⟨_, rfl⟩, rfl⟩⟩
  all_goals exact Or.inl ⟨rfl, rfl, rfl⟩

/-- A goroutine reports an error that it has met with. -/
theorem GoStepsTo.traces {num : Int64} {s₁ : State} {pc pc₁ : Pc}
    (h : GoStepsTo num s pc s₁ pc₁) :
    (∀ err ∈ s.failures, err ∈ s₁.failures) ∧
    (∀ err, pc₁ = .report err → err ∈ s₁.failures) ∧
    ∀ err ∈ s₁.errCh.buf, err ∈ s.errCh.buf ∨ pc = .report err := by
  rcases h with _ | _ | _ | _ | _ | _ | h | _
  case fetchFailed | sendFailed =>
    refine ⟨fun err he => List.mem_append_left _ he, ?_, fun err he => Or.inl he⟩
    rintro err ⟨⟩
    exact List.mem_append_right _ (List.mem_singleton_self _)
  case reported err =>
    refine ⟨fun err he => he, fun err hx => absurd hx nofun, fun err' he => ?_⟩
    exact (Chan.mem_of_trySend he).imp_right fun h => by rw [h]
  all_goals exact ⟨fun err he => he, fun err hx => absurd hx nofun, fun err he => Or.inl he⟩

theorem Outcomes.goStep (h : Outcomes s) {i : ℕ} {g : Goroutine} {s₁ : State} {pc : Pc}
    (hg : s.goroutines[i]? = some g) (hgo : GoStepsTo g.num s g.pc s₁ pc) :
    Outcomes { s₁ with goroutines := s.goroutines.set i { g with pc := pc } } := by
  obtain ⟨r, hl, hs⟩ := exists_perm_set hg
  obtain ⟨hkept, hnew, hchan⟩ := hgo.traces
  have hcount := countP_set hg Pc.isSettled pc
  have hold := h.settled
  have hsub := h.sent.trans
    ((hl.filter fun g => g.pc.isSettled).map Goroutine.num).subperm
  have hperm := ((hs { g with pc := pc }).filter fun g => g.pc.isSettled).map Goroutine.num
  refine ⟨?_, ?_, ?_, ?_, ?_⟩
  · simp only [State.count] at hold ⊢
    rcases hgo.settles with ⟨hp, hsent, hfail⟩ | ⟨hp, hp', ⟨⟨d, hsent⟩, hfail⟩ | ⟨hsent, e, hfail⟩⟩
    · rw [hp] at hcount
      rw [hsent, hfail]
      omega
    · simp only [hp, hp', Bool.toNat_true, Bool.toNat_false] at hcount
      rw [hsent, hfail, List.length_append, List.length_singleton]
      omega
    · simp only [hp, hp', Bool.toNat_true, Bool.toNat_false] at hcount
      rw [hsent, hfail, List.length_append, List.length_singleton]
      omega
  · refine .trans ?_ hperm.symm.subperm
    rcases hgo.settles with ⟨hp, hsent, hfail⟩ | ⟨hp, hp', ⟨⟨d, hsent⟩, hfail⟩ | ⟨hsent, e, hfail⟩⟩
    · rw [hsent]
      refine hsub.trans (List.Perm.subperm (.of_eq ?_))
      rw [List.filter_cons, List.filter_cons]
      simp only [hp]
      rcases g.pc.isSettled with _ | _ <;> rfl
    · rw [List.filter_cons, if_neg (by rw [hp]; exact Bool.false_ne_true)] at hsub
      rw [hsent, List.filter_cons, if_pos hp', List.map_append, List.map_cons]
      exact (List.perm_append_singleton _ _).subperm.trans ((List.subperm_cons _).2 hsub)
    · rw [List.filter_cons, if_neg (by rw [hp]; exact Bool.false_ne_true)] at hsub
      rw [hsent, List.filter_cons, if_pos hp', List.map_cons]
      exact hsub.trans (List.sublist_cons_self _ _).subperm
  · intro g' hg' err hpc
    rcases List.mem_or_eq_of_mem_set hg' with hg' | rfl
    · exact hkept err (h.pending g' hg' err hpc)
    · exact hnew err hpc
  · intro err he
    rcases hchan err he with he | hpc
    · exact hkept err (h.channel err he)
    · exact hkept err (h.pending g (List.mem_of_getElem? hg) err hpc)
  · intro err hm
    exact hkept err (h.returned err (hgo.frame.1 ▸ hm))

theorem Outcomes.congr (h : Outcomes s) (hsent : s'.sent = s.sent)
    (hfail : s'.failures = s.failures) (hgo : s'.goroutines = s.goroutines)
    (hchan : ∀ err ∈ s'.errCh.buf, err ∈ s.failures)
    (hret : ∀ err, s'.main = .returned (some err) → err ∈ s.failures) : Outcomes s' := by
  refine ⟨?_, ?_, ?_, ?_, ?_⟩
  · simp only [State.count, hsent, hfail, hgo]
    exact h.settled
  · rw [hsent, hgo]
    exact h.sent
  · rw [hgo, hfail]
    exact h.pending
  · rw [hfail]
    exact hchan
  · rw [hfail]
    exact hret

/-- The block of a goroutine that is started is not settled. -/
theorem Outcomes.spawn (h : Outcomes s) (num : Int64) (main : Main)
    (hret : ∀ err, main ≠ .returned (some err)) :
    Outcomes { s with goroutines := s.goroutines ++ [⟨num, .fetch⟩], main := main } := by
  have hnew : [Goroutine.mk num .fetch].filter (fun g => g.pc.isSettled) = [] := rfl
  refine ⟨?_, ?_, ?_, h.channel, fun err hm => absurd hm (hret err)⟩
  · simp only [State.count, List.countP_append]
    exact h.settled
  · simp only [List.filter_append, hnew, List.append_nil]
    exact h.sent
  · intro g hg err hpc
    rcases List.mem_append.1 hg with hg | hg
    · exact h.pending g hg err hpc
    · rw [List.mem_singleton.1 hg] at hpc
      exact Pc.noConfusion hpc

theorem Outcomes.mainStep (h : Outcomes s) (hst : mainStep req s = some s') : Outcomes s' := by
  rw [GetBlockRange.mainStep] at hst
  split at hst
  · cases hst
    refine h.congr rfl rfl rfl h.channel fun err hx => ?_
    simp only at hx
    split at hx <;> exact Main.noConfusion hx
  · obtain ⟨sem, -, rfl⟩ := Option.map_eq_some_iff.1 hst
    exact h.congr rfl rfl rfl h.channel fun err hx => Main.noConfusion hx
  · cases hst
    exact h.congr rfl rfl rfl h.channel fun err hx => Main.noConfusion hx
  · cases hst
    exact h.spawn _ _ fun err hx => Main.noConfusion hx
  · split at hst <;> cases hst
    exact h.congr rfl rfl rfl h.channel fun err hx => Main.noConfusion hx
  · cases hst
    exact h.congr rfl rfl rfl h.channel fun err hx => Main.noConfusion hx
  · split at hst
    · -- The error that is returned has been in the channel.
      next err errCh hr =>
      cases hst
      have hb := Chan.buf_of_recv? hr
      refine h.congr rfl rfl rfl (fun e he => h.channel e ?_) fun e hx => h.channel e ?_
      · rw [hb]
        exact List.mem_cons_of_mem err he
      · cases hx
        rw [hb]
        exact List.mem_cons_self
    · cases hst
      refine h.congr rfl rfl rfl h.channel fun err hx => ?_
      cases hx
  · cases hst

theorem Outcomes.step {l : Label} (h : Outcomes s) (hst : (machine req).step s l = some s') :
    Outcomes s' := by
  rcases l with _ | ⟨i, act⟩
  · exact h.mainStep hst
  · obtain ⟨g, hg, hst⟩ := Option.bind_eq_some_iff.1 hst
    obtain ⟨⟨s₁, pc⟩, hs, hst⟩ := Option.bind_eq_some_iff.1 hst
    have hgo := goStepsTo_of_goStep hs
    cases hst
    have hout := h.goStep hg hgo
    rwa [← hgo.frame.2] at hout

theorem outcomes_of_reachable (hs : (machine req).Reachable s) : Outcomes s :=
  hs.invariant (.init req) fun _ _ _ h hst => h.step hst

/-! ## The end of a call -/

/-- Each block of the range has been sent, or has failed, and none has been sent twice. -/
structure Accounted (req : GetBlockRangeRequest) (s : State) : Prop where
  all : s.sent.length + s.failures.length = req.size
  once : (s.sent.map fun m => m.1.toInt).Subperm req.blockNums

/-- The call has returned an error if and only if there was one, and one of these. -/
def ReturnsOf (s : State) : Prop :=
  s.main = .returned none ∧ s.failures = [] ∨
    ∃ err, s.main = .returned (some err) ∧ err ∈ s.failures

/-- No goroutine is left when the call has returned. -/
theorem finished_of_returned (hc : Counted s) (hm : s.main.Returned) :
    ∀ g ∈ s.goroutines, g.pc = .finished := by
  have hz : s.count Pc.unfinished = 0 := hc.joined (by
    generalize s.main = m at hm
    rcases m with _ | _ | _ | _ | _ | _ | _ | _ <;> trivial)
  intro g hg
  have hn := List.countP_eq_zero.1 hz g hg
  generalize g.pc = pc at hn ⊢
  rcases pc with _ | _ | _ | _ | _ | _ | _ <;> first | rfl | exact absurd rfl hn

theorem accounted_of_returned (hsp : Spawned req s) (hc : Counted s) (ho : Outcomes s)
    (hm : s.main.Returned) : Accounted req s := by
  have hfin := finished_of_returned hc hm
  have hlen : s.goroutines.length = req.size := by
    have hmain := hsp.main
    generalize s.main = m at hm hmain
    rcases m with _ | _ | _ | _ | _ | _ | _ | _ <;> first | exact hmain | exact hm.elim
  have hall : ∀ g ∈ s.goroutines, g.pc.isSettled = true := fun g hg => by
    rw [hfin g hg]
    rfl
  refine ⟨?_, ?_⟩
  · rw [ho.settled, State.count, List.countP_eq_length.2 hall, hlen]
  · have hsub := ho.sent.map fun a b => Int64.toInt_inj.1
    have hn := hsp.nums
    rw [List.filter_eq_self.2 hall, List.map_map, List.map_map] at hsub
    rw [hlen] at hn
    exact hsub.trans (List.Perm.of_eq hn).subperm

/-- A call that succeeds has sent as many messages as the range has blocks. -/
theorem length_sent_of_success (hs : (machine req).Reachable s) (hm : s.main = .returned none) :
    s.sent.length = req.size := by
  have hreq : req.endBlock.toInt < 2 ^ 63 - 1 := by
    have hne : req.endBlock ≠ Int64.maxValue := fun h => by
      have hloop := looping_of_reachable h hs
      rw [hm] at hloop
      exact hloop
    have := req.endBlock.toInt_lt
    rw [Ne, ← Int64.toInt_inj, Int64.toInt_maxValue] at hne
    omega
  have hi := inv_of_reachable hreq hs
  have ha := accounted_of_returned hi.spawned hi.counted (outcomes_of_reachable hs)
    (by rw [hm]; trivial)
  have hall := ha.all
  rwa [hi.reported.success hm] at hall

/-- A call that has returned, with no goroutine left. -/
structure Ended (req : GetBlockRangeRequest) (s : State) : Prop where
  returns : ReturnsOf s
  accounted : Accounted req s
  finished : ∀ g ∈ s.goroutines, g.pc = .finished

/-- Whatever steps are taken, a call returns, having sent or failed to send each block of the
    range, with no goroutine left, if and only if the range does not end at the last number there
    is. -/
theorem call_returns_iff (req : GetBlockRangeRequest) :
    (machine req).Inevitably (Ended req) (init req) ↔ req.endBlock ≠ Int64.maxValue := by
  constructor
  · intro h hreq
    obtain ⟨s, hs, hend⟩ := h.exists_reachable .init
    have hloop := looping_of_reachable hreq hs
    rcases hend.returns with ⟨hm, -⟩ | ⟨err, hm, -⟩
    · rw [hm] at hloop
      exact hloop
    · rw [hm] at hloop
      exact hloop
  · intro hne
    have hreq : req.endBlock.toInt < 2 ^ 63 - 1 := by
      have := req.endBlock.toInt_lt
      rw [Ne, ← Int64.toInt_inj, Int64.toInt_maxValue] at hne
      omega
    refine Machine.Inevitably.of_rank
      (I := fun s => Spawned req s ∧ Counted s ∧ Reported s ∧ Outcomes s) (totalRank req) ?_ ?_
      ⟨.init req, .init req, .init req, .init req⟩
    · rintro s ⟨hsp, hc, hr, ho⟩ hn
      refine exists_step_of_not_returned hc fun hm => hn ⟨?_,
        accounted_of_returned hsp hc ho hm, finished_of_returned hc hm⟩
      -- An error that has occurred is returned.
      rcases hmain : s.main with _ | _ | _ | _ | _ | _ | _ | err <;> rw [hmain] at hm
      case returned =>
        rcases err with _ | err
        · exact Or.inl ⟨hmain, hr.success hmain⟩
        · exact Or.inr ⟨err, hmain, ho.returned err hmain⟩
      all_goals exact hm.elim
    · rintro s l s' ⟨hsp, hc, hr, ho⟩ hn hst
      have hst' := stepsTo_of_step hst
      exact ⟨⟨hsp.step hreq hst', hc.step hst', hr.step hc hst', ho.step hst⟩,
        totalRank_lt_of_step hsp hst'⟩

/-! ## Panics -/

/-- The block of a goroutine is being fetched. -/
def fetches (s : State) (i : ℕ) : Bool :=
  match s.goroutines[i]? with
  | some ⟨_, .fetch⟩ => true
  | _ => false

/-- A call in its process, where the fetch of a goroutine may panic, as `fetchBlockData` does on a
    receipt that is missing. -/
def process (req : GetBlockRangeRequest) : Machine (Option State) (Label ⊕ ℕ) :=
  (machine req).withCrash fetches

theorem exists_step_of_fetches {i : ℕ} (h : fetches s i = true) :
    ∃ l s', (machine req).step s l = some s' := by
  rw [fetches] at h
  split at h
  · next num hg => exact ⟨_, _, step_go (.fetch (.error "")) hg rfl⟩
  · cases h

/-- Whatever steps are taken, a call returns, having sent or failed to send each block of the
    range, with no goroutine left, if the process does not crash, if and only if the range does
    not end at the last number there is. -/
theorem returns_iff (req : GetBlockRangeRequest) :
    (process req).Inevitably (fun x => ∀ s, x = some s → Ended req s) (some (init req)) ↔
      req.endBlock ≠ Int64.maxValue :=
  (Machine.inevitably_withCrash_iff fun _ _ => exists_step_of_fetches).trans (call_returns_iff req)

end Sylph.Ethereum.GetBlockRange

import Mathlib.Algebra.BigOperators.Group.List.Basic
import Sylph.Ethereum.RangeRuns

/-!
# The loop over a range

Whether the loop of `GetBlockRange` ends: the handler goes through the numbers of the range,
waiting for a slot of the semaphore before it starts a goroutine for each of them.

* `rank`: what is left to do, for the handler and the goroutines it has started. Each step
  makes it smaller, as long as the number of a block does not overflow.
* `loop_ends_iff`: so the loop ends, having started one goroutine for each block of the range,
  unless the range ends at the last number there is. Then it never does
  (`looping_of_reachable`).
-/

namespace Sylph.Ethereum.GetBlockRange

open Lib Go

variable {req : GetBlockRangeRequest} {s s' : State}

/-- The handler is in the loop. -/
def Main.Looping : Main → Prop
  | test _ | acquire _ | add _ | spawn _ => True
  | _ => False

/-- The loop is over, and has started a goroutine for each block of the range, in order. -/
def LoopDone (req : GetBlockRangeRequest) (s : State) : Prop :=
  ¬s.main.Looping ∧ s.goroutines.length = req.size ∧
    s.goroutines.map (fun g => g.num.toInt) = req.blockNums

/-! ## What is left to do -/

/-- The steps a goroutine takes at most, from where it is. -/
def Pc.rank : Pc → ℕ
  | fetch => 6
  | ready _ => 5
  | sending _ => 4
  | report _ => 3
  | release => 2
  | done => 1
  | finished => 0

/-- The steps to the end of an iteration. -/
def Main.rank : Main → ℕ
  | test _ => 4
  | acquire _ => 3
  | add _ => 2
  | spawn _ => 1
  | _ => 0

/-- How many steps a call has left at most. -/
def rank (req : GetBlockRangeRequest) (s : State) : ℕ :=
  16 * (req.size - s.goroutines.length) + s.main.rank +
    (s.goroutines.map fun g => g.pc.rank).sum

theorem GoStepsTo.rank_lt {num : Int64} {s₁ : State} {pc pc₁ : Pc}
    (h : GoStepsTo num s pc s₁ pc₁) : pc₁.rank < pc.rank := by
  rcases h with _ | _ | _ | _ | _ | _ | _ | _ <;> simp [Pc.rank]

/-- Outside of the loop, all goroutines have been started. -/
theorem Spawned.loopDone (h : Spawned req s) (hm : ¬s.main.Looping) : LoopDone req s := by
  have hlen : s.goroutines.length = req.size := by
    have := h.main
    generalize s.main = m at this hm
    rcases m with _ | _ | _ | _ | _ | _ | _ | _
    case test | acquire | add | spawn => exact absurd trivial hm
    all_goals exact this
  exact ⟨hm, hlen, by rw [h.nums, hlen, GetBlockRangeRequest.blockNums]⟩

/-- A step of the handler in the loop brings its end nearer. -/
theorem rank_lt_of_mainStep (h : Spawned req s) (hm : s.main.Looping)
    (hst : MainStepsTo req s s.main s') : rank req s' < rank req s := by
  have hmain := h.main
  simp only [rank]
  generalize s.main = m at hst hmain hm
  rcases hst with _ | _ | _ | _ | _ | _ | _ | _ | _
  case spawn =>
    have hlt := hmain.2
    simp only [List.length_append, List.length_singleton, List.map_append, List.map_singleton,
      List.sum_append, List.sum_singleton, Main.rank, Pc.rank]
    omega
  case enter | leave | acquire | add =>
    simp only [Main.rank]
    omega
  all_goals exact hm.elim

/-- So does a step of a goroutine. -/
theorem rank_lt_of_goStep {i : ℕ} {g : Goroutine} {s₁ : State} {pc : Pc}
    (hg : s.goroutines[i]? = some g) (hgo : GoStepsTo g.num s g.pc s₁ pc) :
    rank req { s₁ with goroutines := s.goroutines.set i { g with pc := pc } } < rank req s := by
  obtain ⟨r, hl, hs⟩ := exists_perm_set hg
  have h₁ := ((hs { g with pc := pc }).map fun g => g.pc.rank).sum_eq
  have h₂ := (hl.map fun g => g.pc.rank).sum_eq
  have hlt := hgo.rank_lt
  simp only [List.map_cons, List.sum_cons] at h₁ h₂
  simp only [rank, List.length_set, hgo.frame.1, h₁, h₂]
  omega

/-! ## Progress -/

/-- A goroutine that holds a slot can go on, if it can release it. -/
theorem exists_goStep (num : Int64) {pc : Pc} (hp : pc.holdsSlot = true) (hsem : s.sem.buf ≠ []) :
    ∃ act s₁ pc₁, goStep num s pc act = some (s₁, pc₁) := by
  rcases pc with _ | err | blockData | blockData | _ | _ | _
  · exact ⟨.fetch (.error ""), _, _, rfl⟩
  · exact ⟨.report, _, _, rfl⟩
  · exact ⟨.beginSend, _, _, rfl⟩
  · exact ⟨.endSend none, _, _, rfl⟩
  · refine ⟨.release, ?_⟩
    rcases hr : s.sem.recv? with _ | ⟨u, sem⟩
    · exact absurd (Chan.recv?_eq_none.1 hr) hsem
    · exact ⟨_, _, by rw [goStep, hr]; rfl⟩
  · exact absurd hp nofun
  · exact absurd hp nofun

/-- In the loop, a step is possible: of the handler, or of a goroutine it waits for. -/
theorem exists_step (hc : Counted s) (hm : s.main.Looping) :
    ∃ l s', (machine req).step s l = some s' := by
  have hsem := hc.sem
  generalize hmain : s.main = m at hm hsem
  rcases m with n | n | n | n | _ | _ | _ | _
  · exact ⟨.main, _, by change mainStep req s = _; rw [mainStep, hmain]⟩
  · rcases Nat.lt_or_ge s.sem.buf.length 10 with hlt | hge
    · obtain ⟨sem, hs, -⟩ := Chan.exists_send? () hlt
      refine ⟨.main, { s with sem := sem, main := .add n }, ?_⟩
      change mainStep req s = _
      simp only [mainStep, hmain, hs, Option.map_some]
    · -- All slots are taken, by goroutines that have not released them yet.
      have hpos : 0 < s.count Pc.holdsSlot := by
        have hz : Main.slots (.acquire n) = 0 := rfl
        omega
      obtain ⟨g, hg, hp⟩ := List.countP_pos_iff.1 hpos
      obtain ⟨i, hi⟩ := List.mem_iff_getElem?.1 hg
      have hne : s.sem.buf ≠ [] := List.ne_nil_of_length_pos (Nat.lt_of_lt_of_le (by decide) hge)
      obtain ⟨act, s₁, pc, hgo⟩ := exists_goStep g.num hp hne
      exact ⟨_, _, step_go act hi hgo⟩
  · exact ⟨.main, _, by change mainStep req s = _; rw [mainStep, hmain]⟩
  · exact ⟨.main, _, by change mainStep req s = _; rw [mainStep, hmain]⟩
  all_goals exact hm.elim

/-! ## The end of the loop -/

/-- If the range ends at the last number there is, the loop is never over. -/
theorem looping_of_reachable (hreq : req.endBlock = Int64.maxValue)
    (hs : (machine req).Reachable s) : s.main.Looping := by
  refine hs.invariant (P := fun s => s.main.Looping) trivial ?_
  intro s l s' hm hst
  rcases stepsTo_of_step hst with hst | ⟨hg, hgo⟩
  · generalize s.main = m at hst hm
    rcases hst with _ | h | _ | _ | _ | _ | _ | _ | _
    case leave => exact absurd (hreq ▸ Int64.le_maxValue _) h
    case enter | acquire | add | spawn => trivial
    all_goals exact hm.elim
  · simp only [hgo.frame.1]
    exact hm

/-- Whatever steps are taken, the loop ends, having started one goroutine for each block of the
    range, if and only if the range does not end at the last number there is. -/
theorem loop_ends_iff (req : GetBlockRangeRequest) :
    (machine req).Inevitably (LoopDone req) (init req) ↔ req.endBlock ≠ Int64.maxValue := by
  constructor
  · intro h hreq
    obtain ⟨s, hs, hd⟩ := h.exists_reachable .init
    exact hd.1 (looping_of_reachable hreq hs)
  · intro hne
    have hreq : req.endBlock.toInt < 2 ^ 63 - 1 := by
      have := req.endBlock.toInt_lt
      rw [Ne, ← Int64.toInt_inj, Int64.toInt_maxValue] at hne
      omega
    refine Machine.Inevitably.of_rank (I := fun s => Spawned req s ∧ Counted s) (rank req) ?_ ?_
      ⟨.init req, .init req⟩
    · rintro s ⟨hsp, hc⟩ hn
      exact exists_step hc (by_contra fun hm => hn (hsp.loopDone hm))
    · rintro s l s' ⟨hsp, hc⟩ hn hst
      have hm : s.main.Looping := by_contra fun hm => hn (hsp.loopDone hm)
      have hst := stepsTo_of_step hst
      refine ⟨⟨hsp.step hreq hst, hc.step hst⟩, ?_⟩
      rcases hst with hst | ⟨hg, hgo⟩
      · exact rank_lt_of_mainStep hsp hm hst
      · exact rank_lt_of_goStep hg hgo

/-- A range that ends at the last number there is. -/
theorem not_forall_loop_ends : ¬∀ req : GetBlockRangeRequest,
    (machine req).Inevitably (LoopDone req) (init req) := by
  intro h
  obtain ⟨s, hs, hd⟩ := (h ⟨0, Int64.maxValue⟩).exists_reachable .init
  exact hd.1 (looping_of_reachable rfl hs)

end Sylph.Ethereum.GetBlockRange

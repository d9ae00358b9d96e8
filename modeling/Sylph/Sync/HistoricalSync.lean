import Sylph.Sync.Syncer

/-!
# The historical synchronisation

What the loop goes through, in any run, whatever ranges fail on the way.

* `step_cases`: what a pass through the loop does. A batch reaches from the current
  block *upwards*, while the loop moves *downwards*, by a single block.
* `covered_of_reachable`: hence no block is skipped, as the loop only leaves a block
  behind after a batch that contains it.
* `submitsOnce_iff`: and hence blocks are gone through again and again, the first of
  them beyond the blocks to synchronise. The loop does what it is for only if there is
  nothing to do.
-/

namespace Sylph.Sync.Syncer

open Lib Elixir

/-- All ranges of a batch have succeeded. -/
def Batch.AllOk (batch : Batch) : Prop := ∀ x ∈ batch, x.2 = .ok ()

theorem Batch.result_eq_ok {batch : Batch} : batch.result = .ok () ↔ batch.AllOk := by
  induction batch with
  | nil => exact ⟨fun _ _ h => absurd h List.not_mem_nil, fun _ => rfl⟩
  | cons x batch ih =>
    obtain ⟨r, reason | ⟨⟩⟩ := x
    · exact ⟨fun h => absurd h nofun, fun h => absurd (h _ List.mem_cons_self) nofun⟩
    · rw [Batch.result, ih, AllOk, AllOk, List.forall_mem_cons]
      exact ⟨fun h => ⟨rfl, h⟩, fun h => h.2⟩

/-- The batch contains the block `b`. -/
def Batch.Has (batch : Batch) (b : ℤ) : Prop := ∃ x ∈ batch, x.1.Has b

variable {chain : Chain} {earliest safe : ℤ}

/-! ## One pass -/

theorem historicalSyncLoop_of_neg {target current : ℤ} {answer : Answer} (h : current < 0) :
    historicalSyncLoop chain target answer current =
      some (.ended (.raised .functionClause), []) :=
  if_neg (Int.not_le.2 h)

theorem historicalSyncLoop_of_ge {target current : ℤ} {answer : Answer} (h₀ : 0 ≤ current)
    (h : target ≤ current) :
    historicalSyncLoop chain target answer current = some (.at current, []) := by
  rw [historicalSyncLoop, if_pos (show current ≥ 0 from h₀),
    BlockRange.calculateNextRange_of_ge chain h]

/-- The pass through the loop is that through the ranges of the next batch. -/
theorem historicalSyncLoop_of_ranges {target current batchSize : ℤ} {range : Range}
    {ranges : List Range} (h₀ : 0 ≤ current)
    (hr : BlockRange.calculateNextRange chain current target = .ok (range, batchSize))
    (hs : BlockRange.splitRange range batchSize = .ok ranges) (answer : Answer) :
    historicalSyncLoop chain target answer current =
      processRanges range.1 current ranges answer := by
  simp only [historicalSyncLoop, if_pos (show current ≥ 0 from h₀), hr, hs]

/-- A batch whose ranges all succeed leads to the block below it. -/
theorem processRanges_of_ok {start current : ℤ} {ranges : List Range}
    {result : Range → Result Term} (h : ∀ range ∈ ranges, result range = .ok ()) :
    processRanges start current ranges (.results result) =
      some (.at (start - 1), [ranges.map fun range => (range, result range)]) := by
  have hb : Batch.result (ranges.map fun range => (range, result range)) = .ok () :=
    Batch.result_eq_ok.2 (List.forall_mem_map.2 h)
  simp only [processRanges, hb]

/-- A batch with a range that fails leads to where it started. -/
theorem processRanges_of_error {start current : ℤ} {range : Range} {ranges : List Range}
    {result : Range → Result Term} (hrange : range ∈ ranges) (h : result range ≠ .ok ()) :
    processRanges start current ranges (.results result) =
      some (.at current, [ranges.map fun range => (range, result range)]) := by
  rcases hb : Batch.result (ranges.map fun range => (range, result range)) with reason | ⟨⟩
  · simp only [processRanges, hb]
  · exact absurd (Batch.result_eq_ok.1 hb _ (List.mem_map_of_mem hrange)) h

/-- What the ranges of a batch lead to: the end of the loop, or their results, which move the
    loop below the batch if they are all `:ok`, and leave it where it is if not. -/
theorem processRanges_eq_some {start current : ℤ} {ranges : List Range} {answer : Answer}
    {next : Position} {batches : List Batch}
    (h : processRanges start current ranges answer = some (next, batches)) :
    (∃ reason, next = .ended reason ∧ batches = []) ∨
    ∃ result : Range → Result Term, answer = .results result ∧
      batches = [ranges.map fun range => (range, result range)] ∧
      ((∀ range ∈ ranges, result range = .ok ()) ∧ next = .at (start - 1) ∨
        (∃ range ∈ ranges, result range ≠ .ok ()) ∧ next = .at current) := by
  rcases answer with result | ⟨range, reason⟩
  · refine .inr ⟨result, rfl, ?_⟩
    by_cases hok : ∀ range ∈ ranges, result range = .ok ()
    · rw [processRanges_of_ok hok] at h
      cases h
      exact ⟨rfl, .inl ⟨hok, rfl⟩⟩
    · push Not at hok
      obtain ⟨range, hr, hne⟩ := hok
      rw [processRanges_of_error hr hne] at h
      cases h
      exact ⟨rfl, .inr ⟨⟨range, hr, hne⟩, rfl⟩⟩
  · rw [processRanges] at h
    split at h <;> cases h
    exact .inl ⟨reason, rfl, rfl⟩

/-- What a pass is: a call that there is no clause for, one that finds no new blocks, or one
    that goes through the ranges of a batch, which reaches up from the current block. -/
theorem historicalSyncLoop_eq_some {target current : ℤ} {answer : Answer} {next : Position}
    {batches : List Batch}
    (h : historicalSyncLoop chain target answer current = some (next, batches)) :
    (current < 0 ∧ next = .ended (.raised .functionClause) ∧ batches = []) ∨
    (target ≤ current ∧ next = .at current ∧ batches = []) ∨
    ∃ endBlock ranges, current + 1 ≤ endBlock ∧
      BlockRange.calculateNextRange chain current target =
        .ok ((current, endBlock), BlockRange.defaultBatchSize) ∧
      BlockRange.splitRange (current, endBlock) BlockRange.defaultBatchSize = .ok ranges ∧
      processRanges current current ranges answer = some (next, batches) := by
  rcases Int.lt_or_le current 0 with h₀ | h₀
  · rw [historicalSyncLoop_of_neg h₀] at h
    cases h
    exact .inl ⟨h₀, rfl, rfl⟩
  rcases Int.lt_or_le current target with ht | ht
  · obtain ⟨endBlock, hr, hle, -⟩ := BlockRange.calculateNextRange_of_lt chain ht
    obtain ⟨ranges, hs⟩ := BlockRange.exists_splitRange (current, endBlock)
      (show 0 < BlockRange.defaultBatchSize by decide)
    rw [historicalSyncLoop_of_ranges h₀ hr hs] at h
    exact .inr (.inr ⟨endBlock, ranges, hle, hr, hs, h⟩)
  · rw [historicalSyncLoop_of_ge h₀ ht] at h
    cases h
    exact .inr (.inl ⟨ht, rfl, rfl⟩)

/-- Below the target, the loop goes through a batch, which contains the current block
    and the one after it. -/
theorem historicalSyncLoop_of_lt (chain : Chain) {target current : ℤ} (answer : Answer)
    (h₀ : 0 ≤ current) (h : current < target) : ∃ ranges,
      historicalSyncLoop chain target answer current = processRanges current current ranges answer ∧
      ∀ b, current ≤ b → b ≤ current + 1 → ∃ q ∈ ranges, q.Has b := by
  obtain ⟨endBlock, hr, h₁, h₂⟩ := BlockRange.calculateNextRange_of_lt chain h
  obtain ⟨ranges, hs⟩ := BlockRange.exists_splitRange (current, endBlock)
    (show 0 < BlockRange.defaultBatchSize by decide)
  exact ⟨ranges, historicalSyncLoop_of_ranges h₀ hr hs answer, fun b hb hb' =>
    BlockRange.exists_mem_splitRange hs ⟨hb, Int.le_trans hb' h₁⟩⟩

/-- What a pass leads to: the end of the loop, the same block again without a batch, or
    a batch, after which the loop moves down a block if all its ranges succeed. -/
theorem historicalSyncLoop_cases {target current : ℤ} {answer : Answer} {next : Position}
    {batches : List Batch}
    (h : historicalSyncLoop chain target answer current = some (next, batches)) :
    (∃ reason, next = .ended reason ∧ batches = []) ∨
    (next = .at current ∧ batches = []) ∨
    ∃ batch : Batch, batches = [batch] ∧
      (batch.AllOk ∧ batch.Has current ∧ next = .at (current - 1) ∨
        ¬batch.AllOk ∧ next = .at current) := by
  rcases historicalSyncLoop_eq_some h with ⟨-, rfl, rfl⟩ | ⟨-, rfl, rfl⟩ |
    ⟨endBlock, ranges, hle, -, hs, h⟩
  · exact .inl ⟨_, rfl, rfl⟩
  · exact .inr (.inl ⟨rfl, rfl⟩)
  rcases processRanges_eq_some h with ⟨reason, rfl, rfl⟩ | ⟨result, -, rfl, hnext⟩
  · exact .inl ⟨reason, rfl, rfl⟩
  refine .inr (.inr ⟨_, rfl, ?_⟩)
  have hok : Batch.AllOk (ranges.map fun range => (range, result range)) ↔
      ∀ range ∈ ranges, result range = .ok () := List.forall_mem_map
  rcases hnext with ⟨hall, rfl⟩ | ⟨⟨range, hr, hne⟩, rfl⟩
  · obtain ⟨q, hq, hb⟩ := BlockRange.exists_mem_splitRange hs
      (show Range.Has (current, endBlock) current from
        ⟨Int.le_refl _, Int.le_trans (Int.le_add_one (Int.le_refl _)) hle⟩)
    exact .inl ⟨hok.2 hall, ⟨_, List.mem_map_of_mem hq, hb⟩, rfl⟩
  · exact .inr ⟨fun hall => hne (hok.1 hall range hr), rfl⟩

/-- A step of the loop is a pass from where it is. -/
theorem step_eq_some {s s' : Loop} {answer : Answer}
    (h : (machine chain earliest safe).step s answer = some s') : ∃ current next batches,
      s.position = .at current ∧
      historicalSyncLoop chain safe answer current = some (next, batches) ∧
      s' = ⟨next, s.batches ++ batches⟩ := by
  obtain ⟨current | reason, batches⟩ := s
  · obtain ⟨⟨next, more⟩, hl, rfl⟩ := Option.map_eq_some_iff.1 h
    exact ⟨current, next, more, rfl, hl, rfl⟩
  · exact absurd h nofun

/-! ## No block is skipped -/

/-- Every block above the position of the loop, below `earliest`, is in a batch that has
    succeeded. -/
def Covered (earliest : ℤ) (s : Loop) : Prop :=
  ∀ current, s.position = .at current → ∀ b, current + 1 ≤ b → b ≤ earliest - 1 →
    ∃ batch ∈ s.batches, batch.AllOk ∧ batch.Has b

theorem Covered.step {s s' : Loop} {answer : Answer} (h : Covered earliest s)
    (hst : (machine chain earliest safe).step s answer = some s') : Covered earliest s' := by
  obtain ⟨current, next, batches, hc, hl, rfl⟩ := step_eq_some hst
  -- Blocks that were above the position stay covered.
  have hold : ∀ b, current + 1 ≤ b → b ≤ earliest - 1 →
      ∃ batch ∈ s.batches ++ batches, batch.AllOk ∧ batch.Has b := by
    intro b hb hb'
    obtain ⟨batch, hm, h⟩ := h current hc b hb hb'
    exact ⟨batch, List.mem_append_left _ hm, h⟩
  intro current' hc' b hb hb'
  rcases historicalSyncLoop_cases hl with ⟨reason, rfl, rfl⟩ | ⟨rfl, rfl⟩ |
    ⟨batch, rfl, ⟨hok, hcur, rfl⟩ | ⟨-, rfl⟩⟩
  · exact absurd hc' nofun
  · cases hc'
    exact hold b hb hb'
  · cases hc'
    rcases Int.lt_or_le current b with hlt | hle
    · exact hold b hlt hb'
    · obtain rfl : b = current := by omega
      exact ⟨batch, List.mem_append_right _ (List.mem_singleton_self _), hok, hcur⟩
  · cases hc'
    exact hold b hb hb'

/-- In every run, no block is skipped, and the loop moves down only right after a batch
    that has succeeded. -/
theorem covered_of_reachable {s : Loop} (hs : (machine chain earliest safe).Reachable s) :
    (∀ current, s.position = .at current → ∀ b, current + 1 ≤ b → b ≤ earliest - 1 →
      ∃ batch ∈ s.batches, batch.AllOk ∧ batch.Has b) ∧
    ∀ answer s' current current', (machine chain earliest safe).step s answer = some s' →
      s.position = .at current → s'.position = .at current' → current' < current →
      ∃ batch, s'.batches = s.batches ++ [batch] ∧ batch.AllOk := by
  refine ⟨hs.invariant (P := Covered earliest) ?_ fun s l s' h hst => h.step hst, ?_⟩
  · rintro current ⟨⟩ b hb hb'
    omega
  · intro answer s' current current' hst hc hc' hlt
    obtain ⟨_, next, batches, hc₁, hl, rfl⟩ := step_eq_some hst
    cases hc.symm.trans hc₁
    rcases historicalSyncLoop_cases hl with ⟨reason, rfl, rfl⟩ | ⟨rfl, rfl⟩ |
      ⟨batch, rfl, ⟨hok, -, rfl⟩ | ⟨-, rfl⟩⟩
    · exact absurd hc' nofun
    · cases hc'
      exact absurd hlt (Int.lt_irrefl _)
    · exact ⟨batch, rfl, hok⟩
    · cases hc'
      exact absurd hlt (Int.lt_irrefl _)

/-- Two blocks to synchronise, and a batch that succeeds. -/
theorem covered_once : ∃ s, (machine .ethereum 2 2).exec [.results fun _ => .ok ()] = some s ∧
    s.position = .at 0 ∧
    (∀ current, s.position = .at current → ∀ b, current + 1 ≤ b → b ≤ 1 →
      ∃ batch ∈ s.batches, batch.AllOk ∧ batch.Has b) ∧
    ∀ answer s' current current', (machine .ethereum 2 2).step s answer = some s' →
      s.position = .at current → s'.position = .at current' → current' < current →
      ∃ batch, s'.batches = s.batches ++ [batch] ∧ batch.AllOk :=
  have h : (machine .ethereum 2 2).exec [.results fun _ => .ok ()] = some _ := rfl
  ⟨_, h, rfl, covered_of_reachable (Machine.reachable_of_exec h)⟩

/-! ## Blocks are gone through again -/

/-- No range fails. -/
def Answer.Ok : Answer → Prop
  | .results result => ∀ range, result range = .ok ()
  | .exit .. => False

/-- The ranges processed so far. -/
def Loop.ranges (s : Loop) : List Range := s.batches.flatten.map Prod.fst

/-- Each block from the position of the loop up to `earliest` has been submitted exactly
    once, by ranges of historical blocks that do not overlap, and no other block. -/
structure SubmitsOnce (earliest : ℤ) (s : Loop) : Prop where
  disjoint : s.ranges.Pairwise fun q r => ∀ b, ¬(q.Has b ∧ r.Has b)
  historical : ∀ r ∈ s.ranges, ∀ b, r.Has b → 0 ≤ b ∧ b ≤ earliest - 1
  once : ∀ current, s.position = .at current → ∀ b, current + 1 ≤ b → b ≤ earliest - 1 →
    s.ranges.countP (fun r => r.Has b) = 1
  none_above : ∀ b, earliest ≤ b → s.ranges.countP (fun r => r.Has b) = 0

/-- From a position below zero, the loop does nothing but end. -/
theorem ranges_of_nonpos (he : earliest ≤ 0) {s : Loop}
    (hs : (machine chain earliest safe).Reachable s) :
    s.batches = [] ∧ ∀ current, s.position = .at current → current = earliest - 1 := by
  refine hs.invariant (P := fun s => s.batches = [] ∧
    ∀ current, s.position = .at current → current = earliest - 1) ?_ ?_
  · exact ⟨rfl, fun current h => by cases h; rfl⟩
  · rintro s answer s' ⟨hb, hc⟩ hst
    obtain ⟨current, next, batches, hp, hl, rfl⟩ := step_eq_some hst
    have hneg : current < 0 := by
      have := hc current hp
      omega
    rw [historicalSyncLoop_of_neg hneg] at hl
    cases hl
    exact ⟨by rw [hb]; rfl, fun _ h => absurd h nofun⟩

/-- The first batch that succeeds contains the block `earliest`. -/
theorem exists_step_has_earliest (chain : Chain) (he : 0 < earliest) (hs : earliest ≤ safe) : ∃ s,
    (machine chain earliest safe).step (machine chain earliest safe).init
      (.results fun _ => .ok ()) = some s ∧ ∃ r ∈ s.ranges, r.Has earliest := by
  obtain ⟨ranges, hl, hr⟩ := historicalSyncLoop_of_lt chain
    (.results fun _ => .ok ()) (show 0 ≤ earliest - 1 by omega) (show earliest - 1 < safe by omega)
  obtain ⟨q, hq, hqe⟩ := hr earliest (by omega) (by omega)
  refine ⟨⟨.at (earliest - 1 - 1), [ranges.map fun range => (range, .ok ())]⟩, ?_, q, ?_, hqe⟩
  · simp only [machine, hl, processRanges_of_ok fun _ _ => rfl, Option.map_some,
      List.nil_append]
  · simp only [Loop.ranges, List.flatten_cons, List.flatten_nil, List.append_nil, List.map_map]
    exact List.mem_map.2 ⟨q, hq, rfl⟩

/-- Where no range fails, blocks are submitted once each, and in all runs only historical
    ones, if and only if there is no historical block. -/
theorem submitsOnce_iff (hs : earliest ≤ safe) :
    (∀ answers s, (machine chain earliest safe).Run answers s → (∀ a ∈ answers, a.Ok) →
      SubmitsOnce earliest s) ↔ earliest ≤ 0 := by
  constructor
  · intro h
    by_contra he
    obtain ⟨s, hst, r, hr, hre⟩ :=
      exists_step_has_earliest chain (show 0 < earliest by omega) hs
    have ho := h _ s (.snoc .nil hst) (by
      rintro a ha
      rw [List.mem_singleton.1 ha]
      exact fun _ => rfl)
    have := ho.historical r hr earliest hre
    omega
  · intro he answers s hr _
    obtain ⟨hb, hc⟩ := ranges_of_nonpos he hr.reachable
    have hnil : s.ranges = [] := by rw [Loop.ranges, hb]; rfl
    refine ⟨by rw [hnil]; exact .nil, ?_, fun current hp b hb₁ hb₂ => ?_,
      fun b _ => by rw [hnil]; rfl⟩
    · rw [hnil]
      exact fun _ h => absurd h List.not_mem_nil
    · have := hc current hp
      omega

theorem submitsOnce_iff_two : (∀ answers s, (machine .ethereum 2 2).Run answers s →
    (∀ a ∈ answers, a.Ok) → SubmitsOnce 2 s) ↔ (2 : ℤ) ≤ 0 :=
  submitsOnce_iff (Int.le_refl 2)

/-- With two historical blocks, `0` and `1`, below the safe block `2`, the first batch is
    `1..2`. -/
theorem not_forall_submitsOnce : ¬∀ (chain : Chain) (earliest safe : ℤ), 0 ≤ earliest →
    earliest ≤ safe → ∀ answers s, (machine chain earliest safe).Run answers s →
      (∀ a ∈ answers, a.Ok) → SubmitsOnce earliest s := fun h => by
  have hx : (machine .ethereum 2 2).exec [.results fun _ => .ok ()] = some _ := rfl
  have ho := h .ethereum 2 2 (by decide) (by decide) _ _ (Machine.run_of_exec hx) (by
    intro a ha
    rw [List.mem_singleton.1 ha]
    exact fun _ => rfl)
  have := (ho.historical (1, 2) (List.mem_singleton_self _) 2 (by decide)).2
  omega

end Sylph.Sync.Syncer

import Sylph.Sync.BlockRange

/-!
# Divisions and drained ranges

The ranges `Core.Chain.BlockRange` makes, as tilings of the blocks they are made for.

* `splitRange_tiling`: a division has each block of its range in exactly one part.
* `splitRange_bounded_iff`: its parts have `chunkSize` blocks, the last one at most, except
  where the range has one block more than that: such a range is not divided.
* `exists_drains`: the ranges calculated one after the other up to a target. They have each
  block in exactly one range, except that the target itself is left out where its distance
  is a multiple of the batch size (`drain_complete_iff`).
-/

namespace Sylph.Sync

open Lib Elixir

/-- The number of blocks of a range. -/
def Range.size (r : Range) : ℤ := r.2 - r.1 + 1

namespace BlockRange

variable {n first last : ℤ}

/-! ## Divisions -/

/-- Ranges that fill a range begin right after one another. -/
theorem isChain_of_tiles {ranges : List Range} (ht : Tiles first ranges (last + 1)) :
    ranges.IsChain fun r q => q.1 = r.2 + 1 := by
  simpa only [Order.succ_eq_add_one] using ht.isChain

/-- Of ranges that fill a range, one has a block if the range has it. -/
theorem countP_of_tiles {ranges : List Range} (ht : Tiles first ranges (last + 1)) (b : ℤ) :
    ranges.countP (fun r => r.Has b) = if Range.Has (first, last) b then 1 else 0 := by
  have hc := ht.countP b
  simp only [Int.lt_add_one_iff] at hc
  exact hc

/-- A division of a range, for every positive size of the chunks: ranges that are not empty,
    from the first to the last block of the range, one right after the other. Each block of
    the range is in exactly one of them, and no other block is in any. -/
theorem splitRange_tiling (startBlock endBlock chunkSize : ℤ) (h : startBlock ≤ endBlock)
    (hn : 0 < chunkSize) : ∃ ranges, splitRange (startBlock, endBlock) chunkSize = .ok ranges ∧
      ranges ≠ [] ∧ (∀ r ∈ ranges, r.1 ≤ r.2) ∧
      ranges.head?.map Prod.fst = some startBlock ∧ ranges.getLast?.map Prod.snd = some endBlock ∧
      ranges.IsChain (fun r q => q.1 = r.2 + 1) ∧
      ∀ b, ranges.countP (fun r => r.Has b) =
        if Range.Has (startBlock, endBlock) b then 1 else 0 := by
  obtain ⟨ranges, hs, ht⟩ := tiles_splitRange hn h
  have hlt : startBlock < endBlock + 1 := by omega
  refine ⟨ranges, hs, ht.ne_nil hlt, ht.fst_le_snd, ht.head? hlt, ?_, isChain_of_tiles ht,
    countP_of_tiles ht⟩
  have hg := ht.getLast? hlt
  simp only [Order.succ_eq_add_one] at hg
  obtain ⟨r, hr, he⟩ := Option.map_eq_some_iff.1 hg
  exact Option.map_eq_some_iff.2 ⟨r, hr, by omega⟩

/-- A range of eleven blocks, in chunks of five. -/
theorem splitRange_tiling_eleven : ∃ ranges, splitRange (0, 10) 5 = .ok ranges ∧
      ranges ≠ [] ∧ (∀ r ∈ ranges, r.1 ≤ r.2) ∧
      ranges.head?.map Prod.fst = some 0 ∧ ranges.getLast?.map Prod.snd = some 10 ∧
      ranges.IsChain (fun r q => q.1 = r.2 + 1) ∧
      ∀ b, ranges.countP (fun r => r.Has b) = if Range.Has (0, 10) b then 1 else 0 :=
  splitRange_tiling 0 10 5 (by decide) (by decide)

/-! ### The size of the chunks -/

/-- The chunks have `n` blocks, the last one at most. -/
theorem size_chunks (hn : 0 < n) (first last : ℤ) :
    (∀ r ∈ chunks n first last, r.size ≤ n) ∧
      ∀ r ∈ (chunks n first last).dropLast, r.size = n := by
  induction first using chunkStarts.induct n last with
  | case1 first hf ih =>
    rw [chunks_of_le hn hf.2]
    refine ⟨List.forall_mem_cons.2 ⟨?_, ih.1⟩, ?_⟩
    · have := Int.min_le_left (first + n - 1) last
      simp only [Range.size]
      omega
    · rcases Int.lt_or_le last (first + n) with hl | hl
      · simp [chunks_of_lt hl]
      · -- Another chunk follows, so this one is not cut off.
        have hc : chunks n (first + n) last ≠ [] := by simp [chunks_of_le hn hl]
        rw [List.dropLast_cons_of_ne_nil hc]
        refine List.forall_mem_cons.2 ⟨?_, ih.2⟩
        rw [Int.min_eq_left (by omega)]
        simp only [Range.size]
        omega
  | case2 first hf =>
    rw [chunks_of_lt (by omega)]
    simp

/-- The parts have the size asked for, the last one at most, if and only if the range does
    not have one block more than that. -/
theorem splitRange_bounded_iff (startBlock endBlock chunkSize : ℤ) (hn : 0 < chunkSize) :
    (∃ ranges, splitRange (startBlock, endBlock) chunkSize = .ok ranges ∧
      (∀ r ∈ ranges, r.size ≤ chunkSize) ∧ ∀ r ∈ ranges.dropLast, r.size = chunkSize) ↔
      endBlock - startBlock ≠ chunkSize := by
  rw [splitRange_eq hn]
  constructor
  · rintro ⟨ranges, hs, hle, -⟩ he
    -- The range is taken for one that fits into a chunk.
    rw [if_neg (by omega)] at hs
    cases hs
    have := hle _ List.mem_cons_self
    simp only [Range.size] at this
    omega
  · intro hne
    refine ⟨_, rfl, ?_⟩
    split_ifs with hgt
    · exact size_chunks hn startBlock endBlock
    · simp only [List.forall_mem_singleton, List.dropLast_singleton, Range.size]
      exact ⟨by omega, by simp⟩

theorem splitRange_bounded_iff_eleven :
    (∃ ranges, splitRange (0, 10) 5 = .ok ranges ∧
      (∀ r ∈ ranges, r.size ≤ 5) ∧ ∀ r ∈ ranges.dropLast, r.size = 5) ↔ (10 : ℤ) - 0 ≠ 5 :=
  splitRange_bounded_iff 0 10 5 (by decide)

/-- Six blocks are not divided into chunks of five. -/
theorem not_forall_splitRange_bounded : ¬∀ startBlock endBlock chunkSize : ℤ,
    startBlock ≤ endBlock → 0 < chunkSize →
      ∃ ranges, splitRange (startBlock, endBlock) chunkSize = .ok ranges ∧
        (∀ r ∈ ranges, r.size ≤ chunkSize) ∧ ∀ r ∈ ranges.dropLast, r.size = chunkSize := by
  intro h
  obtain ⟨ranges, hs, hle, -⟩ := h 0 5 5 (by decide) (by decide)
  cases hs
  exact absurd (hle (0, 5) List.mem_cons_self) (by decide)

/-! ## Drained ranges -/

/-- The ranges calculated from `currentBlock` on, each after the end of the one before it,
    until there are no new blocks: `none` if that takes more than `fuel` calculations. -/
def drain (chain : Chain) (targetBlock : ℤ) : ℕ → ℤ → Option (List Range)
  | 0, _ => none
  | fuel + 1, currentBlock =>
    match calculateNextRange chain currentBlock targetBlock with
    | .ok ((startBlock, endBlock), _) =>
      (drain chain targetBlock fuel (endBlock + 1)).map fun ranges =>
        (startBlock, endBlock) :: ranges
    | .error _ => some []

/-- Draining ends with the ranges `ranges`. -/
def Drains (chain : Chain) (current target : ℤ) (ranges : List Range) : Prop :=
  ∃ fuel, drain chain target fuel current = some ranges

variable {chain : Chain} {current target : ℤ}

/-- Below the target, the next range has at most `maxBatchSize` blocks, and it ends at the
    target, or a multiple of the batch size before the block from which to go on. -/
theorem calculateNextRange_spec (chain : Chain) (h : current < target) : ∃ endBlock,
    calculateNextRange chain current target = .ok ((current, endBlock), defaultBatchSize) ∧
    current ≤ endBlock ∧ endBlock ≤ target ∧ Range.size (current, endBlock) ≤ 1000 ∧
    (endBlock = target ∧ ¬500 ∣ target - current ∨ 500 ∣ endBlock + 1 - current) := by
  rw [calculateNextRange_eq, doCalculateRange, if_neg (Int.not_le.2 h)]
  by_cases hm : target - current > maxBatchSize
  · refine ⟨_, by rw [if_pos hm]; rfl, ?_⟩
    simp only [maxBatchSize, Range.size]
    rw [maxBatchSize] at hm
    omega
  · refine ⟨_, by rw [if_neg hm]; rfl, ?_⟩
    simp only [defaultBatchSize, Range.size]
    rw [maxBatchSize] at hm
    omega

/-- Draining ends, with a tiling of the blocks up to the target, which itself is in it unless
    its distance is a multiple of the batch size. -/
theorem exists_drains (chain : Chain) (h : current ≤ target + 1) : ∃ ranges,
    Drains chain current target ranges ∧
    Tiles current ranges (if 500 ∣ target - current then target else target + 1) ∧
    ∀ r ∈ ranges, r.size ≤ 1000 := by
  induction hd : (target + 1 - current).toNat using Nat.strongRecOn generalizing current with
  | ind d ih =>
    rcases Int.lt_or_le current target with hlt | hge
    · obtain ⟨endBlock, hc, h₁, h₂, h₃, h₄⟩ := calculateNextRange_spec chain hlt
      obtain ⟨ranges, ⟨fuel, hf⟩, ht, hs⟩ :=
        ih (target + 1 - (endBlock + 1)).toNat (by omega) (by omega) rfl
      refine ⟨(current, endBlock) :: ranges, ⟨fuel + 1, ?_⟩, .cons h₁ ?_,
        List.forall_mem_cons.2 ⟨h₃, hs⟩⟩
      · rw [drain, hc]
        simp only [hf, Option.map_some]
      · rw [Order.succ_eq_add_one]
        -- The distance changes by a multiple of the batch size, unless the target is reached.
        have hdvd : 500 ∣ target - current ↔ 500 ∣ target - (endBlock + 1) := by omega
        rw [if_congr hdvd rfl rfl]
        exact ht
    · refine ⟨[], ⟨1, by rw [drain, calculateNextRange_of_ge chain hge]⟩, ?_, by simp⟩
      rcases hge.eq_or_lt with rfl | hgt
      · rw [if_pos (by simp)]
        exact .nil _
      · obtain rfl : current = target + 1 := by omega
        rw [if_neg (by omega)]
        exact .nil _

/-- More fuel changes nothing. -/
theorem drain_mono {fuel fuel' : ℕ} {ranges : List Range} (hle : fuel ≤ fuel')
    (h : drain chain target fuel current = some ranges) :
    drain chain target fuel' current = some ranges := by
  induction fuel generalizing fuel' current ranges with
  | zero => exact absurd h nofun
  | succ fuel ih =>
    obtain ⟨fuel', rfl⟩ : ∃ k, fuel' = k + 1 := ⟨fuel' - 1, by omega⟩
    rw [drain] at h ⊢
    rcases hc : calculateNextRange chain current target with e | ⟨⟨startBlock, endBlock⟩, batchSize⟩
    · rw [hc] at h
      exact h
    · simp only [hc] at h ⊢
      obtain ⟨more, hm, rfl⟩ := Option.map_eq_some_iff.1 h
      rw [ih (Nat.le_of_succ_le_succ hle) hm]
      rfl

theorem Drains.unique {ranges ranges' : List Range} (h : Drains chain current target ranges)
    (h' : Drains chain current target ranges') : ranges = ranges' := by
  obtain ⟨fuel, h⟩ := h
  obtain ⟨fuel', h'⟩ := h'
  have hs := drain_mono (Nat.le_max_left fuel fuel') h
  rw [drain_mono (Nat.le_max_right fuel fuel') h'] at hs
  exact (Option.some.inj hs).symm

/-- Draining ends with consecutive ranges between the current and the target block, of a
    thousand blocks at most, that have each block exactly once, if and only if the distance
    to the target is not a multiple of the batch size. -/
theorem drain_complete_iff (chain : Chain) (current target : ℤ) (h : current ≤ target) :
    (∃ ranges, Drains chain current target ranges ∧ ranges.IsChain (fun r q => q.1 = r.2 + 1) ∧
      (∀ r ∈ ranges, current ≤ r.1 ∧ r.1 ≤ r.2 ∧ r.2 ≤ target ∧ r.size ≤ 1000) ∧
      ∀ b, ranges.countP (fun r => r.Has b) = if Range.Has (current, target) b then 1 else 0) ↔
      ¬500 ∣ target - current := by
  obtain ⟨ranges, hd, ht, hs⟩ := exists_drains chain (show current ≤ target + 1 by omega)
  constructor
  · rintro ⟨ranges', hd', -, -, hc⟩ hm
    obtain rfl := hd.unique hd'
    rw [if_pos hm] at ht
    -- The ranges end before the target, so it is in none of them.
    have h₀ : ranges.countP (fun r => r.Has target) = 0 :=
      (ht.countP target).trans (if_neg fun hlt => Int.lt_irrefl _ hlt.2)
    rw [hc target, if_pos ⟨h, Int.le_refl _⟩] at h₀
    exact absurd h₀ (by decide)
  · intro hm
    rw [if_neg hm] at ht
    exact ⟨ranges, hd, isChain_of_tiles ht, fun r hr => ⟨ht.le_fst r hr, ht.fst_le_snd r hr,
      Int.lt_add_one_iff.1 (ht.snd_lt r hr), hs r hr⟩, countP_of_tiles ht⟩

theorem drain_complete_iff_eleven :
    (∃ ranges, Drains .ethereum 0 10 ranges ∧ ranges.IsChain (fun r q => q.1 = r.2 + 1) ∧
      (∀ r ∈ ranges, 0 ≤ r.1 ∧ r.1 ≤ r.2 ∧ r.2 ≤ 10 ∧ r.size ≤ 1000) ∧
      ∀ b, ranges.countP (fun r => r.Has b) = if Range.Has (0, 10) b then 1 else 0) ↔
      ¬(500 : ℤ) ∣ 10 - 0 :=
  drain_complete_iff .ethereum 0 10 (by decide)

/-- Of the blocks from `0` to `500`, only the first five hundred are in a range. -/
theorem not_forall_drain_complete : ¬∀ (chain : Chain) (current target : ℤ), current ≤ target →
    ∃ ranges, Drains chain current target ranges ∧ ranges.IsChain (fun r q => q.1 = r.2 + 1) ∧
      (∀ r ∈ ranges, current ≤ r.1 ∧ r.1 ≤ r.2 ∧ r.2 ≤ target ∧ r.size ≤ 1000) ∧
      ∀ b, ranges.countP (fun r => r.Has b) = if Range.Has (current, target) b then 1 else 0 := by
  intro h
  obtain ⟨ranges, hd, -, -, hc⟩ := h .ethereum 0 500 (by decide)
  have hx : Drains .ethereum 0 500 [(0, 499)] := ⟨2, rfl⟩
  obtain rfl := hd.unique hx
  exact absurd (hc 500) (by decide)

end BlockRange

end Sylph.Sync

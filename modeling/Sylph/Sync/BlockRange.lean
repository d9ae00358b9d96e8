import Sylph.Lib.Elixir
import Sylph.Lib.Tiling

/-!
# Block ranges

`Core.Chain.BlockRange`: the range of blocks a chain is synchronised over next
(`calculateNextRange`), which starts at the current block and goes up, and its
division into ranges of a bounded size (`splitRange`).

A range is given by its first and its last block. What the syncer depends on: below
the target, the next range reaches from the current block upwards, beyond it but not
beyond the target (`calculateNextRange_of_lt`), and a division tiles its range
(`tiles_splitRange`), so that it covers it (`exists_mem_splitRange`).
-/

namespace Sylph.Sync

open Lib Elixir

/-- The chains, each named by its atom. -/
inductive Chain
  | ethereum
  | solana
  deriving DecidableEq

/-- The name of a chain. -/
def Chain.atom : Chain → Atom
  | ethereum => "ethereum"
  | solana => "solana"

/-- The blocks from the first to the second number. -/
abbrev Range := ℤ × ℤ

/-- A block of a range. -/
def Range.Has (r : Range) (b : ℤ) : Prop := r.1 ≤ b ∧ b ≤ r.2

instance (r : Range) (b : ℤ) : Decidable (r.Has b) := inferInstanceAs (Decidable (_ ∧ _))

namespace BlockRange

/-- `@default_batch_size` -/
def defaultBatchSize : ℤ := 500

/-- `@max_batch_size` -/
def maxBatchSize : ℤ := 1000

/-- The same size for all chains. -/
def getOptimalBatchSize (_chain : Chain) : Except Atom ℤ := .ok defaultBatchSize

/-- The next range, up to the target. -/
def doCalculateRange (currentBlock targetBlock batchSize : ℤ) : Except Atom Range :=
  if currentBlock ≥ targetBlock then
    .error "no_new_blocks"
  else if targetBlock - currentBlock > maxBatchSize then
    .ok (currentBlock, currentBlock + maxBatchSize - 1)
  else
    .ok (currentBlock, min (currentBlock + batchSize - 1) targetBlock)

/-- The next range, with the size of its chunks. -/
def calculateNextRange (chain : Chain) (currentBlock targetBlock : ℤ) :
    Except Atom (Range × ℤ) := do
  let batchSize ← getOptimalBatchSize chain
  let range ← doCalculateRange currentBlock targetBlock batchSize
  return (range, batchSize)

/-- The blocks the chunks of a range start at: every `chunkSize`-th one. -/
def chunkStarts (chunkSize : ℤ) (startBlock endBlock : ℤ) : List ℤ :=
  if 0 < chunkSize ∧ startBlock ≤ endBlock then
    startBlock :: chunkStarts chunkSize (startBlock + chunkSize) endBlock
  else
    []
termination_by (endBlock + 1 - startBlock).toNat
decreasing_by omega

/-- A range in chunks, unless it is hardly longer than one. -/
def splitRange (range : Range) (chunkSize : ℤ) : Except Exn (List Range) :=
  let (startBlock, endBlock) := range
  if chunkSize > 0 then
    if endBlock - startBlock > chunkSize then
      .ok ((chunkStarts chunkSize startBlock endBlock).map fun chunkStart =>
        (chunkStart, min (chunkStart + chunkSize - 1) endBlock))
    else
      .ok [(startBlock, endBlock)]
  else
    .error .functionClause

/-! ## The next range -/

theorem calculateNextRange_eq (chain : Chain) (current target : ℤ) :
    calculateNextRange chain current target =
      (doCalculateRange current target defaultBatchSize).map fun r => (r, defaultBatchSize) :=
  rfl

/-- Below the target, the next range reaches from the current block to the one after
    it at least, and to the target at most. -/
theorem calculateNextRange_of_lt (chain : Chain) {current target : ℤ} (h : current < target) :
    ∃ endBlock, calculateNextRange chain current target =
      .ok ((current, endBlock), defaultBatchSize) ∧ current + 1 ≤ endBlock ∧ endBlock ≤ target := by
  have hr : ∃ endBlock, doCalculateRange current target defaultBatchSize =
      .ok (current, endBlock) ∧ current + 1 ≤ endBlock ∧ endBlock ≤ target := by
    rw [doCalculateRange, if_neg (Int.not_le.2 h)]
    by_cases hm : target - current > maxBatchSize
    · refine ⟨_, by rw [if_pos hm], ?_, ?_⟩ <;> rw [maxBatchSize] at * <;> omega
    · refine ⟨_, by rw [if_neg hm], ?_, ?_⟩ <;> rw [defaultBatchSize] <;> omega
  obtain ⟨endBlock, hr, h⟩ := hr
  exact ⟨endBlock, by rw [calculateNextRange_eq, hr]; rfl, h⟩

theorem calculateNextRange_of_ge (chain : Chain) {current target : ℤ} (h : target ≤ current) :
    calculateNextRange chain current target = .error "no_new_blocks" := by
  rw [calculateNextRange_eq, doCalculateRange, if_pos h]
  rfl

/-! ## Divisions -/

/-- The chunks of a range, by the blocks they start at. -/
def chunks (chunkSize startBlock endBlock : ℤ) : List Range :=
  (chunkStarts chunkSize startBlock endBlock).map fun chunkStart =>
    (chunkStart, min (chunkStart + chunkSize - 1) endBlock)

variable {n first last : ℤ}

theorem chunks_of_le (hn : 0 < n) (h : first ≤ last) :
    chunks n first last = (first, min (first + n - 1) last) :: chunks n (first + n) last := by
  rw [chunks, chunkStarts, if_pos ⟨hn, h⟩]
  rfl

theorem chunks_of_lt (h : last < first) : chunks n first last = [] := by
  rw [chunks, chunkStarts, if_neg fun hf => Int.not_le.2 h hf.2]
  rfl

/-- A division is into the chunks, or into the range alone. -/
theorem splitRange_eq (hn : 0 < n) : splitRange (first, last) n =
    .ok (if last - first > n then chunks n first last else [(first, last)]) := by
  simp only [splitRange, if_pos (show n > 0 from hn)]
  split_ifs <;> rfl

theorem tiles_chunks (hn : 0 < n) (h : first ≤ last) :
    Tiles first (chunks n first last) (last + 1) := by
  induction first using chunkStarts.induct n last with
  | case1 first hf ih =>
    rw [chunks_of_le hn h]
    refine .cons (Int.le_min.2 ⟨by omega, h⟩) ?_
    rw [Order.succ_eq_add_one]
    -- The first chunk ends where the next one starts, or it is the last.
    rcases Int.lt_or_le last (first + n) with hl | hl
    · rw [chunks_of_lt hl, Int.min_eq_right (by omega)]
      exact .nil _
    · rw [Int.min_eq_left (by omega), Int.sub_add_cancel]
      exact ih hl
  | case2 first hf => exact absurd ⟨hn, h⟩ hf

theorem tiles_splitRange (hn : 0 < n) (h : first ≤ last) :
    ∃ ranges, splitRange (first, last) n = .ok ranges ∧ Tiles first ranges (last + 1) := by
  refine ⟨_, splitRange_eq hn, ?_⟩
  split_ifs
  · exact tiles_chunks hn h
  · exact .cons h (.nil _)

/-- A division that is made tiles its range. -/
theorem tiles_of_splitRange {r : Range} {ranges : List Range} (h : splitRange r n = .ok ranges)
    (hr : r.1 ≤ r.2) : Tiles r.1 ranges (r.2 + 1) := by
  obtain ⟨first, last⟩ := r
  rcases Int.lt_or_le 0 n with hn | hn
  · obtain ⟨rs, hs, ht⟩ := tiles_splitRange hn hr
    cases hs.symm.trans h
    exact ht
  · rw [splitRange, if_neg (Int.not_lt.2 hn)] at h
    exact absurd h nofun

/-- A division covers its range. -/
theorem exists_mem_splitRange {r : Range} {rs : List Range}
    (h : splitRange r n = .ok rs) {b : ℤ} (hb : r.Has b) : ∃ q ∈ rs, q.Has b :=
  (tiles_of_splitRange h (Int.le_trans hb.1 hb.2)).exists_mem ⟨hb.1, Int.lt_add_one_iff.2 hb.2⟩

/-- A division into chunks of a positive size always succeeds. -/
theorem exists_splitRange (r : Range) (hn : 0 < n) : ∃ rs, splitRange r n = .ok rs :=
  ⟨_, splitRange_eq hn⟩

end BlockRange

end Sylph.Sync

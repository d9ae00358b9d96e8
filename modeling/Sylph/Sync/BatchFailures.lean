import Sylph.Lib.AsyncStream
import Sylph.Sync.HistoricalSync

/-!
# Batches that fail

The ranges of a batch are processed by a stream of linked tasks, with its default options.
What the tasks come to is an answer to the loop (`answerOf`), whatever their order.

`inevitably_retried_iff`: the loop survives a batch, and tries it again if a range has not
succeeded, if and only if no range raises, and one that exceeds the timeout comes after
one that returns an error, at which the reduction halts. Its clause for a task that exits
is of no use, as the loop exits with the task.
-/

namespace Sylph.Sync

open Lib Elixir

namespace BlockRange

/-- There are no more chunks of a size than fit. -/
theorem length_chunkStarts_le {n first last : ℤ} {k : ℕ} (h : last < first + k * n) :
    (chunkStarts n first last).length ≤ k := by
  induction first using chunkStarts.induct n last generalizing k with
  | case1 first hf ih =>
    rw [chunkStarts, if_pos hf]
    obtain _ | k := k
    · omega
    · refine Nat.succ_le_succ (ih ?_)
      rw [Nat.cast_succ, Int.add_mul, Int.one_mul] at h
      omega
  | case2 first hf =>
    rw [chunkStarts, if_neg hf]
    exact Nat.zero_le k

/-- The next range is divided into two ranges at most. -/
theorem length_splitRange_le {chain : Chain} {current target batchSize : ℤ} {range : Range}
    {ranges : List Range} (hr : calculateNextRange chain current target = .ok (range, batchSize))
    (hs : splitRange range batchSize = .ok ranges) : ranges.length ≤ 2 := by
  have hsize : batchSize = 500 ∧ range.2 < range.1 + 1000 := by
    rw [calculateNextRange_eq, doCalculateRange] at hr
    split at hr
    · cases hr
    · split at hr <;> cases hr <;> refine ⟨rfl, ?_⟩ <;> rw [maxBatchSize] at * <;>
        try rw [defaultBatchSize]
      all_goals omega
  obtain ⟨rfl, hlt⟩ := hsize
  obtain ⟨first, last⟩ := range
  rw [splitRange, if_pos (by decide)] at hs
  split at hs <;> cases hs
  · rw [List.length_map]
    exact length_chunkStarts_le hlt
  · exact Nat.le_succ 1

end BlockRange

namespace Syncer

/-- `@parallel_ranges` -/
def parallelRanges : ℕ := 3

/-- What the task of a range comes to. -/
abbrev RangeOutcome := TaskOutcome (Result Term) ExitReason

/-- The results at which the reduction of a batch halts. -/
def isError : Result Term → Bool
  | .ok () => false
  | .error _ => true

/-- The tasks of a batch, and the loop that takes their results. -/
def stream (ranges : List Range) (outcome : Range → RangeOutcome) : Machine AsyncStream.State ℕ :=
  AsyncStream.machine (ranges.map outcome) parallelRanges isError

/-- The result of a range, if it is taken: the reduction has halted before a task that
    does not return. -/
def resultOf : RangeOutcome → Result Term
  | .returns result => result
  | .raises _ | .timesOut => .ok ()

/-- The reason the loop exits with, if it exits with the task of a range. -/
def exitReasonOf : RangeOutcome → ExitReason
  | .raises reason => reason
  | .returns _ | .timesOut => .other "timeout"

/-- What the tasks answer, when the reduction is over or the loop has exited. -/
def answerOf (ranges : List Range) (outcome : Range → RangeOutcome) :
    AsyncStream.State → Option Answer
  | .running _ => none
  | .reduced => some (.results fun range => resultOf (outcome range))
  | .exited i => ranges[i]?.map fun range => .exit range (exitReasonOf (outcome range))

/-- The loop survives the batch, and tries it again unless all ranges return `:ok`. -/
def Retried (chain : Chain) (target current : ℤ) (ranges : List Range)
    (outcome : Range → RangeOutcome) (s : AsyncStream.State) : Prop :=
  ∃ answer next batches, answerOf ranges outcome s = some answer ∧
    historicalSyncLoop chain target answer current = some (next, batches) ∧
    (∃ block, next = .at block) ∧
    ((∃ range ∈ ranges, outcome range ≠ .returns (.ok ())) → next = .at current)

section Batch

variable {chain : Chain} {target current batchSize : ℤ} {range : Range} {ranges : List Range}
  {outcome : Range → RangeOutcome}

/-- The loop only survives the batch where the reduction is over. -/
theorem Retried.eq_reduced (h₀ : 0 ≤ current)
    (hr : BlockRange.calculateNextRange chain current target = .ok (range, batchSize))
    (hs : BlockRange.splitRange range batchSize = .ok ranges) {s : AsyncStream.State}
    (h : Retried chain target current ranges outcome s) : s = .reduced := by
  obtain ⟨answer, next, batches, ha, hl, ⟨block, rfl⟩, -⟩ := h
  rcases s with finished | _ | i
  · exact absurd ha.symm (Option.some_ne_none answer)
  · rfl
  · obtain ⟨range', -, rfl⟩ := Option.map_eq_some_iff.1 ha
    rw [historicalSyncLoop_of_ranges h₀ hr hs] at hl
    rcases processRanges_eq_some hl with ⟨reason, hn, -⟩ | ⟨result, ha, -⟩
    · exact absurd hn nofun
    · exact absurd ha nofun

/-- Where failures are contained, the first range that has not succeeded has returned an
    error. -/
theorem eq_ok_of_contained (hc : AsyncStream.Contained isError (ranges.map outcome))
    (hok : ∀ range ∈ ranges, ∀ reason, outcome range ≠ .returns (.error reason)) :
    ∀ range ∈ ranges, outcome range = .returns (.ok ()) := by
  intro range hrange
  rcases ho : outcome range with (reason | ⟨⟩) | reason | _
  · exact absurd ho (hok range hrange reason)
  · rfl
  · exact absurd (List.mem_map.2 ⟨range, hrange, ho⟩) (hc.raises reason)
  · obtain ⟨pre, post, rfl⟩ := List.append_of_mem hrange
    have hsplit : (pre ++ range :: post).map outcome =
        pre.map outcome ++ .timesOut :: post.map outcome := by
      rw [List.map_append, List.map_cons, ho]
    obtain ⟨result, hm, hh⟩ := hc.timesOut _ _ hsplit
    obtain ⟨earlier, he, hres⟩ := List.mem_map.1 hm
    rcases result with reason | ⟨⟩
    · exact absurd hres (hok earlier (List.mem_append_left _ he) reason)
    · exact absurd hh Bool.false_ne_true

theorem retried_reduced (h₀ : 0 ≤ current)
    (hr : BlockRange.calculateNextRange chain current target = .ok (range, batchSize))
    (hs : BlockRange.splitRange range batchSize = .ok ranges)
    (hc : AsyncStream.Contained isError (ranges.map outcome)) :
    Retried chain target current ranges outcome .reduced := by
  have hl := historicalSyncLoop_of_ranges h₀ hr hs (.results fun range => resultOf (outcome range))
  by_cases hok : ∀ range ∈ ranges, ∀ reason, outcome range ≠ .returns (.error reason)
  · -- All ranges succeed.
    have hall := eq_ok_of_contained hc hok
    have hp := hl.trans (processRanges_of_ok fun q hq => congrArg resultOf (hall q hq))
    exact ⟨_, _, _, rfl, hp, ⟨_, rfl⟩, fun ⟨q, hq, hne⟩ => absurd (hall q hq) hne⟩
  · -- A range returns an error.
    push Not at hok
    obtain ⟨q, hq, reason, ho⟩ := hok
    have hne : resultOf (outcome q) ≠ .ok () := by
      rw [ho]
      exact nofun
    have hp := hl.trans (processRanges_of_error hq hne)
    exact ⟨_, _, _, rfl, hp, ⟨_, rfl⟩, fun _ => rfl⟩

/-- The loop survives a batch, and tries it again unless all ranges return `:ok`, in
    whatever order the tasks come to their outcomes, if and only if no range raises, and
    one that exceeds the timeout comes after one that returns an error. -/
theorem inevitably_retried_iff (h₀ : 0 ≤ current)
    (hr : BlockRange.calculateNextRange chain current target = .ok (range, batchSize))
    (hs : BlockRange.splitRange range batchSize = .ok ranges) (outcome : Range → RangeOutcome) :
    (stream ranges outcome).Inevitably (Retried chain target current ranges outcome)
      (stream ranges outcome).init ↔ AsyncStream.Contained isError (ranges.map outcome) := by
  have hlen : (ranges.map outcome).length ≤ parallelRanges := by
    rw [List.length_map]
    exact (BlockRange.length_splitRange_le hr hs).trans (Nat.le_succ 2)
  rw [← AsyncStream.inevitably_reduced_iff hlen]
  constructor
  · exact fun h => h.mono fun s hr' => hr'.eq_reduced h₀ hr hs
  · intro h
    refine h.mono ?_
    rintro _ rfl
    exact retried_reduced h₀ hr hs (AsyncStream.contained_of_inevitably hlen h)

end Batch

/-- A batch of two ranges. -/
def twoRanges : List Range := [(2000, 2499), (2500, 2999)]

/-- The first range returns an error, and the other one exceeds the timeout. -/
def slowSecond (range : Range) : RangeOutcome :=
  if range.1 = 2000 then .returns (.error .nil) else .timesOut

theorem contained_slowSecond : AsyncStream.Contained isError (twoRanges.map slowSecond) where
  raises reason hm := by
    rcases List.mem_cons.1 hm with hm | hm
    · cases hm
    · cases List.mem_singleton.1 hm
  timesOut pre post he := by
    rcases pre with _ | ⟨first, pre⟩
    · cases he
    · obtain ⟨rfl, -⟩ := List.cons.inj he
      exact ⟨.error .nil, List.mem_cons_self, rfl⟩

theorem inevitably_retried_slowSecond :
    (stream twoRanges slowSecond).Inevitably (Retried .ethereum 5000 2000 twoRanges slowSecond)
      (stream twoRanges slowSecond).init :=
  have hr : BlockRange.calculateNextRange .ethereum 2000 5000 = .ok ((2000, 2999), 500) := rfl
  have hs : BlockRange.splitRange (2000, 2999) 500 = .ok twoRanges := by
    simp [BlockRange.splitRange, BlockRange.chunkStarts, twoRanges]
  (inevitably_retried_iff (by decide) hr hs slowSecond).2 contained_slowSecond

/-- A range that exceeds the timeout ends the loop. -/
theorem not_forall_retried : ¬∀ (chain : Chain) (current target batchSize : ℤ) (range : Range)
    (ranges : List Range) (outcome : Range → RangeOutcome), 0 ≤ current →
      BlockRange.calculateNextRange chain current target = .ok (range, batchSize) →
      BlockRange.splitRange range batchSize = .ok ranges →
      (stream ranges outcome).Inevitably (Retried chain target current ranges outcome)
        (stream ranges outcome).init := fun h => by
  have hr : BlockRange.calculateNextRange .ethereum 0 1 = .ok ((0, 1), 500) := rfl
  have hs : BlockRange.splitRange (0, 1) 500 = .ok [(0, 1)] := rfl
  have hi := h .ethereum 0 1 500 (0, 1) [(0, 1)] (fun _ => .timesOut) (Int.le_refl 0) hr hs
  obtain ⟨result, hm, -⟩ := (AsyncStream.contained_of_inevitably (Nat.le_add_left 1 2)
    (hi.mono fun s hs' => hs'.eq_reduced (Int.le_refl 0) hr hs)).timesOut [] [] rfl
  exact absurd hm List.not_mem_nil

end Syncer

end Sylph.Sync

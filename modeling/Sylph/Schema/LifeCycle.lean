import Mathlib.Data.List.Count
import Sylph.Lib.History
import Sylph.Schema.MissingBlock

/-!
# The life of a missing block

What a sequence of failures and resolutions, one after the other and about any blocks,
leaves in the table of the missing blocks.

* `Held`: what the table holds of a block, and what an operation on the block makes of it
  (`Held.after`); the operations on other blocks leave it alone (`keywise_held`).
* `foldl_after`: what is held of a block after its operations, by the number of its
  failures and the last operation.
* `lifeCycle`: hence the attempts and the status of a block, and that it is never pending
  again once it has failed six times.
-/

namespace Sylph.Schema.MissingBlock

open Lib Elixir Ecto Sync

/-- An operation, with valid arguments. -/
inductive Op
  | recordFailure (f : Failure) (h : f.Valid)
  | markResolved (chain : Chain) (blockNumber : ℤ)

namespace Op

/-- The block the operation is about. -/
def key : Op → Key
  | recordFailure f _ => f.key
  | markResolved chain blockNumber => (chain.atom.name, blockNumber)

/-- The operation records a failure. -/
def isFailure : Op → Bool
  | recordFailure .. => true
  | markResolved .. => false

/-- The table after the operation. -/
def run (t : Rows) : Op → Rows
  | recordFailure f _ => (MissingBlock.recordFailure f t).2
  | markResolved chain blockNumber => (MissingBlock.markResolved chain blockNumber t).2

/-- The table after the operations of a list, from an empty one. -/
def runAll (ops : List Op) : Rows := ops.foldl run .empty

end Op

/-! ## What is held of a block -/

/-- The attempts and the status of a block, if there is a row. -/
abbrev Held := Option (ℤ × String)

/-- What an operation makes of what is held of its block. -/
def Held.after : Held → Op → Held
  | none, .recordFailure .. => some (1, "pending")
  | some (attempts, _), .recordFailure .. => some (attempts + 1, statusAfter attempts)
  | none, .markResolved .. => none
  | some (attempts, _), .markResolved .. => some (attempts, "resolved")

/-- The number of failures among the operations. -/
def failures (ops : List Op) : ℕ := ops.countP Op.isFailure

theorem failures_concat (ops : List Op) (op : Op) :
    failures (ops ++ [op]) = failures ops + if op.isFailure then 1 else 0 := by
  rw [failures, List.countP_append, List.countP_singleton, failures]

/-- The status of a block after its operations, by the number of its failures and the last
    operation. -/
def statusOf (ops : List Op) : String :=
  if (ops.getLast?.map Op.isFailure) = some false then "resolved"
  else if 6 ≤ failures ops then "failed"
  else "pending"

theorem statusOf_concat (ops : List Op) (op : Op) : statusOf (ops ++ [op]) =
    if op.isFailure then (if 6 ≤ failures (ops ++ [op]) then "failed" else "pending")
    else "resolved" := by
  rw [statusOf, List.getLast?_concat, Option.map_some]
  cases op.isFailure <;> rfl

/-- What is held of a block after its operations. -/
theorem foldl_after (ops : List Op) :
    ops.foldl Held.after none =
      if failures ops = 0 then none else some ((failures ops : ℤ), statusOf ops) := by
  induction ops using List.reverseRecOn with
  | nil => rfl
  | append_singleton ops op ih =>
    rw [List.foldl_append, List.foldl_cons, List.foldl_nil, ih, statusOf_concat, failures_concat]
    rcases op with ⟨f, h⟩ | ⟨chain, n⟩
    · by_cases hz : failures ops = 0
      · rw [if_pos hz, hz]
        rfl
      · have hs : statusAfter (failures ops) =
            if 6 ≤ failures ops + 1 then "failed" else "pending" := by
          by_cases h5 : 5 ≤ failures ops
          · rw [statusAfter, if_pos (by omega), if_pos (by omega)]
          · rw [statusAfter, if_neg (by omega), if_neg (by omega)]
        rw [if_neg hz, Held.after, hs]
        rfl
    · by_cases hz : failures ops = 0
      · rw [if_pos hz, hz]
        rfl
      · rw [if_neg hz]
        exact (if_neg hz).symm

/-! ## The table -/

/-- A table whose rows say what went wrong, as those that the operations leave. -/
structure Records where
  rows : Rows
  named : ∀ k r, rows.find k = some r → isBlank r.errorType = false

namespace Records

/-- What is held of a block. -/
def held (s : Records) (k : Key) : Held := (s.rows.find k).map fun r => (r.attempts, r.status)

/-- An operation that puts a row under its key leaves such a table. -/
theorem named_of_find {s : Records} {t : Rows} {k : Key} {r : Row}
    (hb : isBlank r.errorType = false)
    (hf : ∀ k', t.find k' = if k = k' then some r else s.rows.find k') :
    ∀ k' r', t.find k' = some r' → isBlank r'.errorType = false := by
  intro k' r' h
  rw [hf] at h
  by_cases hk : k = k'
  · rw [if_pos hk] at h
    exact Option.some_inj.1 h ▸ hb
  · rw [if_neg hk] at h
    exact s.named k' r' h

/-- What an operation does: it leaves a row under its key that holds what is to be held,
    or nothing, if nothing is to be held. -/
theorem run_cases (s : Records) (op : Op) :
    (Held.after (s.held op.key) op = none ∧ op.run s.rows = s.rows ∧ s.rows.find op.key = none) ∨
    ∃ r, isBlank r.errorType = false ∧ Held.after (s.held op.key) op = some (r.attempts, r.status) ∧
      ∀ k, (op.run s.rows).find k = if op.key = k then some r else s.rows.find k := by
  -- A failure, with no row or with one; a success, with no row or with one.
  rcases op with ⟨f, hv⟩ | ⟨chain, n⟩
  · rcases hr : s.rows.find f.key with _ | r
    · obtain ⟨_, t', r, hw, hf, hb, ha, hs⟩ := exists_writeFailure_none hv hr
      refine .inr ⟨r, hb, ?_, fun k => ?_⟩
      · rw [held, Op.key, hr, ha, hs]
        rfl
      · rw [Op.run, recordFailure, hr, hw]
        exact hf k
    · obtain ⟨_, t', r', hw, hf, ha, h⟩ := exists_writeFailure_some hv (e := r) hr
      obtain ⟨hb, hs⟩ := h rfl
      refine .inr ⟨r', hb, ?_, fun k => ?_⟩
      · rw [held, Op.key, hr, ha, hs]
        rfl
      · rw [Op.run, recordFailure, hr, hw]
        exact hf k
  · rcases hr : s.rows.find (chain.atom.name, n) with _ | r
    · refine .inl ⟨?_, ?_, hr⟩
      · rw [held, Op.key, hr]
        rfl
      · rw [Op.run, markResolved, hr]
    · obtain ⟨_, t', r', hw, hf, hb, ha, hs⟩ := exists_markResolved hr (s.named _ r hr)
      refine .inr ⟨r', hb, ?_, fun k => ?_⟩
      · rw [held, Op.key, hr, ha, hs]
        rfl
      · rw [Op.run, hw]
        exact hf k

/-- The table after an operation. -/
def run (s : Records) (op : Op) : Records where
  rows := op.run s.rows
  named := by
    rcases s.run_cases op with ⟨-, hr, -⟩ | ⟨r, hb, -, hf⟩
    · rw [hr]
      exact s.named
    · exact named_of_find hb hf

/-- No block has failed yet. -/
def empty : Records := ⟨.empty, fun _ _ h => by cases h⟩

theorem rows_foldl (ops : List Op) (s : Records) :
    (ops.foldl run s).rows = ops.foldl Op.run s.rows := by
  induction ops generalizing s with
  | nil => rfl
  | cons op ops ih => exact ih (s.run op)

theorem held_run (s : Records) (op : Op) (k : Key) :
    (s.run op).held k = ((op.run s.rows).find k).map fun r => (r.attempts, r.status) := rfl

/-- An operation acts on what is held of its block, and on nothing else. -/
theorem keywise_held : History.Keywise run Op.key held Held.after where
  same s op := by
    rcases s.run_cases op with ⟨ha, hr, hn⟩ | ⟨r, -, ha, hf⟩
    · rw [ha, held_run, hr, hn]
      rfl
    · rw [ha, held_run, hf, if_pos rfl]
      rfl
  other s op k hk := by
    rcases s.run_cases op with ⟨-, hr, -⟩ | ⟨r, -, -, hf⟩
    · rw [held_run, hr, held]
    · rw [held_run, hf, if_neg hk, held]

end Records

/-- What is held of a block after operations on any blocks. -/
theorem held_runAll (ops : List Op) (k : Key) :
    ((Op.runAll ops).find k).map (fun r => (r.attempts, r.status)) =
      if failures (History.about Op.key k ops) = 0 then none
      else some ((failures (History.about Op.key k ops) : ℤ),
        statusOf (History.about Op.key k ops)) := by
  have h : (ops.foldl Records.run .empty).held k = _ :=
    Records.keywise_held.view_foldl .empty ops k
  rw [Records.held, Records.rows_foldl] at h
  exact h.trans (foldl_after _)

/-! ## The life of a block -/

/-- The operations on the block `n` of a chain. -/
def opsOn (chain : Chain) (n : ℤ) (ops : List Op) : List Op :=
  History.about Op.key (chain.atom.name, n) ops

/-- After a failure, there is a row. -/
theorem exists_find_runAll {ops : List Op} {chain : Chain} {n : ℤ}
    (h : failures (opsOn chain n ops) ≠ 0) :
    ∃ r, (Op.runAll ops).find (chain.atom.name, n) = some r ∧
      r.attempts = failures (opsOn chain n ops) ∧ r.status = statusOf (opsOn chain n ops) := by
  have hh := (held_runAll ops (chain.atom.name, n)).trans (if_neg h)
  obtain ⟨r, hr, he⟩ := Option.map_eq_some_iff.1 hh
  exact ⟨r, hr, congrArg Prod.fst he, congrArg Prod.snd he⟩

theorem failures_opsOn_append (chain : Chain) (n : ℤ) (ops more : List Op) :
    failures (opsOn chain n (ops ++ more)) =
      failures (opsOn chain n ops) + failures (opsOn chain n more) := by
  rw [opsOn, History.about, List.filter_append, failures, List.countP_append]
  rfl

/-- A block that has failed six times is not pending. -/
theorem statusOf_of_le {ops : List Op} (h : 6 ≤ failures ops) :
    statusOf ops ∉ ["pending", "retrying"] := by
  rw [statusOf, if_pos h]
  by_cases hr : (ops.getLast?.map Op.isFailure) = some false
  · rw [if_pos hr]
    decide
  · rw [if_neg hr]
    decide

theorem blockNumber_ne_of_pending (ops : List Op) {chain : Chain} {n : ℤ}
    (h : 6 ≤ failures (opsOn chain n ops)) {limit : ℕ} {r : Row}
    (hr : r ∈ getPendingBlocks chain limit (Op.runAll ops)) : r.blockNumber ≠ n := by
  rintro rfl
  have hm := List.mem_mergeSort.1 (List.mem_of_mem_take hr)
  obtain ⟨hm, hp⟩ := List.mem_filter.1 hm
  obtain ⟨hc, hs⟩ := of_decide_eq_true hp
  have hf := Table.find_of_mem hm
  rw [Row.key, hc] at hf
  obtain ⟨r', hr', -, hs'⟩ := exists_find_runAll (Nat.ne_of_gt (Nat.lt_of_lt_of_le (by decide) h))
  cases hf.symm.trans hr'
  exact statusOf_of_le h (hs' ▸ hs)

/-- The life cycle of a block that has failed: there is one row, its attempts are the number
    of the failures, it is resolved iff the last operation says so, failed iff the last one
    is at least the sixth failure, and pending otherwise; and from the sixth failure on, it
    is never listed as pending again. -/
theorem lifeCycle (ops : List Op) (chain : Chain) (n : ℤ) (h : 1 ≤ failures (opsOn chain n ops)) :
    (∃ r, ((Op.runAll ops).rows.filter fun r => r.key = (chain.atom.name, n)) = [r] ∧
      r.attempts = failures (opsOn chain n ops) ∧
      (r.status = "resolved" ↔ (opsOn chain n ops).getLast?.map Op.isFailure = some false) ∧
      (r.status = "failed" ↔ (opsOn chain n ops).getLast?.map Op.isFailure = some true ∧
        6 ≤ failures (opsOn chain n ops)) ∧
      (r.status ≠ "resolved" → r.status ≠ "failed" → r.status = "pending")) ∧
    (6 ≤ failures (opsOn chain n ops) → ∀ more limit,
      ∀ r ∈ getPendingBlocks chain limit (Op.runAll (ops ++ more)), r.blockNumber ≠ n) := by
  refine ⟨?_, fun h6 more limit r hr => ?_⟩
  · obtain ⟨r, hr, ha, hs⟩ := exists_find_runAll (Nat.ne_of_gt h)
    refine ⟨r, by rw [Table.filter_key, hr]; rfl, ha, ?_⟩
    have hne : opsOn chain n ops ≠ [] := by
      intro he
      rw [he] at h
      exact absurd h (by decide)
    obtain ⟨b, hb⟩ : ∃ b, (opsOn chain n ops).getLast?.map Op.isFailure = some b :=
      ⟨_, by rw [List.getLast?_eq_some_getLast hne]; rfl⟩
    -- The last operation and the number of failures decide.
    rw [hs, statusOf, hb]
    rcases b
    · rw [if_pos rfl]
      simp
    · rw [if_neg (by decide)]
      by_cases h6 : 6 ≤ failures (opsOn chain n ops)
      · rw [if_pos h6]
        simp [h6]
      · rw [if_neg h6]
        simp [h6]
  · -- More operations do not take failures back.
    refine blockNumber_ne_of_pending (ops ++ more) ?_ hr
    rw [failures_opsOn_append]
    exact h6.trans (Nat.le_add_right _ _)

theorem valid_timeout : Failure.Valid ⟨.ethereum, 5, "timeout", {}, 0⟩ :=
  ⟨rfl, fun _ h => absurd h.symm (Option.some_ne_none _)⟩

/-- A block of Ethereum that fails seven times, and is marked as resolved after that. -/
def givingUp : List Op :=
  List.replicate 7 (.recordFailure _ valid_timeout) ++ [.markResolved .ethereum 5]

theorem lifeCycle_givingUp :
    (∃ r, ((Op.runAll givingUp).rows.filter fun r => r.key = ("ethereum", 5)) = [r] ∧
      r.attempts = 7 ∧ r.status = "resolved") ∧
    ∀ more limit, ∀ r ∈ getPendingBlocks .ethereum limit (Op.runAll (givingUp ++ more)),
      r.blockNumber ≠ 5 := by
  obtain ⟨⟨r, hr, ha, hs, -⟩, hp⟩ := lifeCycle givingUp .ethereum 5 (by decide)
  exact ⟨⟨r, hr, ha, hs.2 rfl⟩, hp (by decide)⟩

end Sylph.Schema.MissingBlock

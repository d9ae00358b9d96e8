import Sylph.Schema.LifeCycle

/-!
# The pending blocks

What is listed of the missing blocks of a chain (`get_pending_blocks`) after failures and
resolutions of any blocks.

* `Due`: the last operation on a block was a failure, and its fifth at most.
* `getPendingBlocks_spec`: the rows that are listed are those of blocks that are due, and in a
  strict order, by the priority, the attempts and the number; a block that is due is listed as
  well, unless there are as many rows before its row as are asked for.
-/

namespace Sylph.Schema.MissingBlock

open Lib Elixir Ecto Sync

/-- The block is to be tried again. -/
def Due (ops : List Op) (chain : Chain) (n : ℤ) : Prop :=
  (opsOn chain n ops).getLast?.map Op.isFailure = some true ∧ failures (opsOn chain n ops) ≤ 5

/-- The order of the list, which is strict among the blocks of a chain. -/
def Row.Precedes (r r' : Row) : Prop :=
  r'.priority < r.priority ∨ (r.priority = r'.priority ∧
    (r.attempts < r'.attempts ∨ (r.attempts = r'.attempts ∧ r.blockNumber < r'.blockNumber)))

variable {ops : List Op} {chain : Chain} {n : ℤ} {r r' : Row} {t : Rows}

/-! ## The order -/

theorem before_trans (a b c : Row) (hab : a.before b = true) (hbc : b.before c = true) :
    a.before c = true := by
  simp only [Row.before, decide_eq_true_eq] at hab hbc ⊢
  omega

theorem before_total (a b : Row) : (a.before b || b.before a) = true := by
  simp only [Row.before, Bool.or_eq_true, decide_eq_true_eq]
  omega

theorem precedes_of_before (h : r.before r' = true) (hne : r.blockNumber ≠ r'.blockNumber) :
    r.Precedes r' := by
  simp only [Row.before, decide_eq_true_eq] at h
  rw [Row.Precedes]
  omega

/-- The blocks of a chain that are pending, or are being retried. -/
def pendingRows (chain : Chain) (t : Rows) : List Row :=
  t.rows.filter fun r => r.chain = chain.atom.name ∧ r.status ∈ ["pending", "retrying"]

theorem mem_pendingRows : r ∈ pendingRows chain t ↔
    t.find (chain.atom.name, r.blockNumber) = some r ∧ r.status ∈ ["pending", "retrying"] := by
  rw [pendingRows, List.mem_filter, decide_eq_true_eq]
  constructor
  · rintro ⟨hm, hc, hs⟩
    have hf := Table.find_of_mem hm
    rw [Row.key, hc] at hf
    exact ⟨hf, hs⟩
  · rintro ⟨hf, hs⟩
    obtain ⟨hm, hk⟩ := Table.mem_of_find hf
    exact ⟨hm, congrArg Prod.fst hk, hs⟩

/-- They are sorted strictly. -/
theorem pairwise_precedes (chain : Chain) (t : Rows) :
    ((pendingRows chain t).mergeSort Row.before).Pairwise Row.Precedes := by
  have hsort := List.pairwise_mergeSort before_trans before_total (pendingRows chain t)
  have hnodup : ((pendingRows chain t).mergeSort Row.before).Pairwise
      fun a b => a.key ≠ b.key := by
    have hn : (pendingRows chain t).Pairwise fun a b => a.key ≠ b.key :=
      (List.pairwise_map.1 t.nodup).filter _
    exact hn.perm (List.mergeSort_perm _ _).symm fun h => h.symm
  refine (hsort.and hnodup).imp_of_mem fun ha hb hab => precedes_of_before hab.1 fun he => hab.2 ?_
  have hca := Table.key_of_find (mem_pendingRows.1 (List.mem_mergeSort.1 ha)).1
  have hcb := Table.key_of_find (mem_pendingRows.1 (List.mem_mergeSort.1 hb)).1
  rw [hca, hcb, he]

/-! ## The blocks -/

theorem failures_ne_zero (h : ops.getLast?.map Op.isFailure = some true) : failures ops ≠ 0 := by
  obtain ⟨op, hop, hf⟩ := Option.map_eq_some_iff.1 h
  have hm : op ∈ ops := List.mem_of_getLast? hop
  exact Nat.ne_of_gt (List.countP_pos_iff.2 ⟨op, hm, hf⟩)

/-- The status after operations, the last one of which decides. -/
theorem statusOf_mem_iff (h : failures ops ≠ 0) : statusOf ops ∈ ["pending", "retrying"] ↔
    ops.getLast?.map Op.isFailure = some true ∧ failures ops ≤ 5 := by
  obtain ⟨b, hb⟩ : ∃ b, ops.getLast?.map Op.isFailure = some b := by
    rcases ops.eq_nil_or_concat with rfl | ⟨ops, op, rfl⟩
    · exact absurd rfl h
    · exact ⟨op.isFailure, by rw [List.concat_eq_append, List.getLast?_concat, Option.map_some]⟩
  rw [statusOf, hb]
  cases b with
  | false =>
    rw [if_pos rfl]
    exact iff_of_false (by decide) (by simp)
  | true =>
    rw [if_neg (by decide)]
    by_cases h6 : 6 ≤ failures ops
    · rw [if_pos h6]
      exact iff_of_false (by decide) (by omega)
    · rw [if_neg h6]
      exact iff_of_true (by decide) ⟨rfl, by omega⟩

/-- A row is pending after operations if and only if its block is due. -/
theorem find_due (h : (Op.runAll ops).find (chain.atom.name, n) = some r) :
    r.status ∈ ["pending", "retrying"] ↔ Due ops chain n := by
  have hh := held_runAll ops (chain.atom.name, n)
  rw [h, Option.map_some, ← opsOn] at hh
  have hne : failures (opsOn chain n ops) ≠ 0 := by
    intro h0
    rw [if_pos h0] at hh
    cases hh
  rw [if_neg hne] at hh
  have hs : r.status = statusOf (opsOn chain n ops) := congrArg Prod.snd (Option.some_inj.1 hh)
  rw [hs, statusOf_mem_iff hne, Due]

/-- A block is due, and how many times it has failed. -/
theorem due_of_mem (h : r ∈ pendingRows chain (Op.runAll ops)) :
    Due ops chain r.blockNumber ∧ r.attempts = failures (opsOn chain r.blockNumber ops) := by
  obtain ⟨hf, hs⟩ := mem_pendingRows.1 h
  have hd := (find_due hf).1 hs
  obtain ⟨r', hr', ha, -⟩ := exists_find_runAll (failures_ne_zero hd.1)
  obtain rfl := Option.some_inj.1 (hf.symm.trans hr')
  exact ⟨hd, ha⟩

theorem exists_mem_of_due (h : Due ops chain n) :
    ∃ r ∈ pendingRows chain (Op.runAll ops),
      (Op.runAll ops).find (chain.atom.name, n) = some r := by
  obtain ⟨r, hr, -⟩ := exists_find_runAll (failures_ne_zero h.1)
  have hn : r.blockNumber = n := congrArg Prod.snd (Table.key_of_find hr)
  exact ⟨r, mem_pendingRows.2 ⟨hn.symm ▸ hr, (find_due hr).2 h⟩, hr⟩

/-- After operations on any blocks, the rows that are listed are those of blocks that are due,
    in a strict order. A block that is due is listed, unless as many rows as are asked for precede
    the row of the block. -/
theorem getPendingBlocks_spec (ops : List Op) (chain : Chain) (limit : ℕ) :
    (getPendingBlocks chain limit (Op.runAll ops)).Pairwise Row.Precedes ∧
    (∀ r ∈ getPendingBlocks chain limit (Op.runAll ops),
      (Op.runAll ops).find (chain.atom.name, r.blockNumber) = some r ∧
      Due ops chain r.blockNumber ∧ r.attempts = failures (opsOn chain r.blockNumber ops)) ∧
    ∀ n, Due ops chain n → ∃ r, (Op.runAll ops).find (chain.atom.name, n) = some r ∧
      (r ∈ getPendingBlocks chain limit (Op.runAll ops) ∨
        ((getPendingBlocks chain limit (Op.runAll ops)).length = limit ∧
          ∀ r' ∈ getPendingBlocks chain limit (Op.runAll ops), r'.Precedes r)) := by
  have hsorted := pairwise_precedes chain (Op.runAll ops)
  refine ⟨hsorted.sublist (List.take_sublist _ _), fun r hr => ?_, fun n hn => ?_⟩
  · have hm : r ∈ pendingRows chain (Op.runAll ops) :=
      List.mem_mergeSort.1 (List.mem_of_mem_take hr)
    exact ⟨(mem_pendingRows.1 hm).1, due_of_mem hm⟩
  · obtain ⟨r, hr, hf⟩ := exists_mem_of_due hn
    have hm : r ∈ (pendingRows chain (Op.runAll ops)).mergeSort Row.before :=
      List.mem_mergeSort.2 hr
    rw [← List.take_append_drop limit ((pendingRows chain (Op.runAll ops)).mergeSort Row.before)]
      at hm hsorted
    refine ⟨r, hf, ?_⟩
    rcases List.mem_append.1 hm with hm | hm
    · exact Or.inl hm
    · -- What is not listed comes after all that is.
      refine Or.inr ⟨?_, fun r' hr' => (List.pairwise_append.1 hsorted).2.2 r' hr' r hm⟩
      have hlen := List.length_pos_of_mem hm
      rw [List.length_drop] at hlen
      have hle : limit ≤ ((pendingRows chain (Op.runAll ops)).mergeSort Row.before).length := by
        omega
      exact List.length_take_of_le hle

end Sylph.Schema.MissingBlock

import Mathlib.Data.List.SplitLengths
import Sylph.Solana.Indexing

/-!
# The owners of the instructions

The service puts the instructions of all transactions of a block in one list, without
saying which transaction an instruction is of. It can be recovered: the list, cut into
segments of the lengths the transactions say (`programCount`), gives back the instructions
of each transaction, in their order (`forall₂_owns`).

* `IsInstruction`, `IsAccount`: what a record says of an instruction, and of an account.
* `splitLengths_flatten`: lists that have been joined are recovered from their lengths.
-/

namespace Sylph.Solana

open Lib Lib.Except Lib.Rust

/-- Lists are recovered from their lengths. -/
theorem splitLengths_flatten {α : Type*} (ls : List (List α)) :
    (ls.map List.length).splitLengths ls.flatten = ls := by
  induction ls with
  | nil => rfl
  | cons l ls ih =>
    rw [List.map_cons, List.flatten_cons, List.splitLengths_cons, List.take_left, List.drop_left,
      ih]

variable {p : Packages} {message : Message} {tx : EnrichedTransaction UiTransactionStatusMeta}
  {block : RpcBlock} {data : Proto.Solana.BlockData}

/-- The record of an account at a position of an instruction. -/
structure IsAccount (p : Packages) (message : Message) (account : UInt8 × ℕ)
    (r : Proto.Solana.InstructionAccount) : Prop where
  address : ∃ key, message.accountKeys.1[account.1.toNat]? = some key ∧
    r.address = p.showPubkey key
  orderIndex : r.orderIndex.toInt = account.2

/-- The record of an instruction at a position of a transaction. -/
structure IsInstruction (p : Packages) (message : Message) (ix : CompiledInstruction × ℕ)
    (r : Proto.Solana.Instruction) : Prop where
  programId : ∃ key, message.accountKeys.1[ix.1.programIdIndex.toNat]? = some key ∧
    r.programId = p.showPubkey key
  data : r.data = ix.1.data.1
  orderIndex : r.orderIndex.toInt = ix.2
  accounts : List.Forall₂ (IsAccount p message) ix.1.accounts.1.zipIdx r.accounts

/-- A position in a list that comes with its length in two bytes. -/
theorem lt_of_mem_zipIdx {α : Type} {l : ShortVec α} {a : α × ℕ} (h : a ∈ l.1.zipIdx) :
    a.2 < 2 ^ 31 :=
  Nat.lt_of_lt_of_le (List.snd_lt_of_mem_zipIdx h) (Nat.le_trans (Nat.le_of_lt l.2) (by decide))

theorem isAccount {account : UInt8 × ℕ} {r : Proto.Solana.InstructionAccount}
    (hlt : account.2 < 2 ^ 31) (h : convertAccount p message account = .ok r) :
    IsAccount p message account r := by
  obtain ⟨key, hk, h⟩ := bind_eq_ok.1 h
  cases h
  exact ⟨⟨key, index_eq_ok.1 hk, rfl⟩, Int32.toInt_ofNat_of_lt hlt⟩

theorem isInstruction {ix : CompiledInstruction × ℕ} {r : Proto.Solana.Instruction}
    (hlt : ix.2 < 2 ^ 31) (h : convertInstruction p message ix = .ok r) :
    IsInstruction p message ix r := by
  obtain ⟨programId, hp, h⟩ := bind_eq_ok.1 h
  obtain ⟨accounts, ha, h⟩ := bind_eq_ok.1 h
  obtain ⟨parsed, -, h⟩ := bind_eq_ok.1 h
  cases h
  obtain ⟨key, hk, rfl⟩ := map_eq_ok.1 hp
  exact ⟨⟨key, index_eq_ok.1 hk, rfl⟩, rfl, Int32.toInt_ofNat_of_lt hlt,
    forall₂_of_mapM ha fun _ hm _ => isAccount (lt_of_mem_zipIdx hm)⟩

/-- The record of a transaction, and the records of its instructions. -/
structure Owns (p : Packages) (tx : EnrichedTransaction UiTransactionStatusMeta)
    (r : Proto.Solana.Transaction) (instructions : List Proto.Solana.Instruction) : Prop where
  transaction : ∃ category, r = transactionRecord p tx category
  programCount : r.programCount.toInt = instructions.length
  instructions : List.Forall₂ (IsInstruction p tx.transaction.message)
    tx.transaction.message.instructions.1.zipIdx instructions

theorem owns {r : TransactionRecords} (h : convertRecords p tx = .ok r) :
    Owns p tx r.transaction r.instructions := by
  obtain ⟨category, instructions, _, -, hi, -, rfl⟩ := convertRecords_eq_ok.1 h
  have hr := forall₂_of_mapM hi fun _ hm _ => isInstruction (lt_of_mem_zipIdx hm)
  have hlt : tx.transaction.message.instructions.1.length < 2 ^ 31 :=
    Nat.lt_trans tx.transaction.message.instructions.2 (by decide)
  refine ⟨⟨category, rfl⟩, ?_, hr⟩
  refine (Int32.toInt_ofNat_of_lt hlt).trans ?_
  rw [← hr.length_eq, List.length_zipIdx]

/-- The lengths the transactions of a block say. -/
def programCounts (data : Proto.Solana.BlockData) : List ℕ :=
  data.transactions.map fun r => r.programCount.toInt.toNat

/-- The instructions of a block, cut into segments of these lengths. -/
def segments (data : Proto.Solana.BlockData) : List (List Proto.Solana.Instruction) :=
  (programCounts data).splitLengths data.instructions

/-- The segments are the lists that have been joined. -/
theorem segments_eq {records : List TransactionRecords}
    (h : block.transactions.mapM (convertRecords p) = .ok records)
    (ht : data.transactions = records.map (·.transaction))
    (hi : data.instructions = records.flatMap (·.instructions)) :
    programCounts data = records.map (·.instructions.length) ∧
      segments data = records.map (·.instructions) := by
  have hcounts : programCounts data = records.map (·.instructions.length) := by
    rw [programCounts, ht, List.map_map]
    refine List.map_congr_left fun r hr => ?_
    obtain ⟨tx, -, hc⟩ := (mem_of_mapM h).1 hr
    have hn := (owns hc).programCount
    rw [Function.comp_apply, hn, Int.toNat_natCast]
  refine ⟨hcounts, ?_⟩
  rw [segments, hcounts, hi, List.flatMap_def]
  -- The instructions are joined in the order of the transactions.
  have := splitLengths_flatten (records.map (·.instructions))
  rwa [List.map_map] at this

/-- The list of the instructions of a block, cut into segments of the lengths its transactions
    say, with nothing left, gives the instructions of each of them. -/
theorem forall₂_owns (h : convertBlockData p block = .ok data) :
    data.transactions.length = block.transactions.length ∧
      (programCounts data).sum = data.instructions.length ∧
      List.Forall₂ (fun tx r => Owns p tx r.1 r.2) block.transactions
        (data.transactions.zip (segments data)) := by
  obtain ⟨records, hr, he⟩ := convertBlockData_eq_ok.1 h
  have ht : data.transactions = records.map (·.transaction) := by rw [he]
  have hi : data.instructions = records.flatMap (·.instructions) := by rw [he]
  obtain ⟨hcounts, hsegments⟩ := segments_eq hr ht hi
  have howns := forall₂_of_mapM hr fun tx _ r hc => owns hc
  refine ⟨?_, ?_, ?_⟩
  · rw [ht, List.length_map, howns.length_eq]
  · rw [hcounts, hi, List.length_flatMap]
  · rw [ht, hsegments, List.zip_map', List.forall₂_map_right_iff]
    exact howns

theorem forall₂_owns_pairBlock : ∃ data,
    convertBlockData .reference pairBlock = .ok data ∧
      data.transactions.length = 2 ∧ (programCounts data).sum = data.instructions.length ∧
      List.Forall₂ (fun tx r => Owns .reference tx r.1 r.2) [checkedTransfer none, paidTransfer]
        (data.transactions.zip (segments data)) := by
  obtain ⟨data, h⟩ := exists_convertBlockData_pairBlock
  exact ⟨data, h, forall₂_owns h⟩

end Sylph.Solana

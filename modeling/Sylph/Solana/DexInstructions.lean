import Sylph.Solana.Findings

/-!
# Instructions of exchanges

`categorizeDexInstruction` tells the instructions of an exchange by the first byte of their
data, which `categorizeTransaction` does not look at.

* `category_of_isDexProgram`: the category of a transaction with one instruction of an
  exchange, by its program.
* `categorizeTransaction_eq_dexProgram_iff`: the two agree about new orders of Serum, swaps
  of Raydium and all instructions of Jupiter, and about no other.
-/

namespace Sylph.Solana

open Lib Lib.Except Lib.Rust

/-- The instruction of an exchange, by its program and the first byte of its data. -/
def categorizeDexInstruction (p : Packages) (programId : Pubkey) (data : List UInt8) :
    DexProgramType :=
  let programIdStr := p.showPubkey programId
  if programIdStr = serumProgram then
    match data.head? with
    | some 0 => .serumNewOrder
    | some 1 => .serumMatchOrder
    | some 2 => .serumCancelOrder
    | _ => .other
  else if programIdStr ∈ raydiumPrograms then
    match data.head? with
    | some 1 => .raydiumSwap
    | some 2 => .raydiumAddLiquidity
    | some 3 => .raydiumRemoveLiquidity
    | _ => .other
  else if programIdStr ∈ jupiterPrograms then
    .jupiterSwap
  else
    .other

variable {p : Packages} {message : Message} {ix : CompiledInstruction} {key : Pubkey}
  {data : List UInt8}

/-! ## One instruction -/

theorem isDexProgram_iff_mem : isDexProgram p key = true ↔ p.showPubkey key = serumProgram ∨
    p.showPubkey key ∈ raydiumPrograms ∨ p.showPubkey key ∈ jupiterPrograms := by
  simp only [isDexProgram, serumProgram, raydiumPrograms, jupiterPrograms, List.mem_cons,
    List.not_mem_nil, or_false, decide_eq_true_eq]
  tauto

theorem raydium_ne_serum {programId : String} (h : programId ∈ raydiumPrograms) :
    programId ≠ serumProgram := by
  rintro rfl
  exact absurd h (by decide)

theorem jupiter_ne_serum {programId : String} (h : programId ∈ jupiterPrograms) :
    programId ≠ serumProgram := by
  rintro rfl
  exact absurd h (by decide)

theorem jupiter_not_mem_raydium {programId : String} (h : programId ∈ jupiterPrograms) :
    programId ∉ raydiumPrograms := by
  have hall : ∀ programId ∈ jupiterPrograms, programId ∉ raydiumPrograms := by decide
  exact hall programId h

/-- The exchange of a program, as the category of a transaction has it. -/
def exchange (programId : String) : DexProgramType :=
  if programId = serumProgram then .serumNewOrder
  else if programId ∈ raydiumPrograms then .raydiumSwap
  else .jupiterSwap

/-- What the flags of one instruction of an exchange make. -/
theorem category_addProgram (data : List UInt8) {programId : String} (h : programId = serumProgram ∨
    programId ∈ raydiumPrograms ∨ programId ∈ jupiterPrograms) :
    (({} : Findings).addProgram p programId data).category = .dexProgram (exchange programId) := by
  simp only [raydiumPrograms, jupiterPrograms, List.mem_cons, List.not_mem_nil, or_false] at h
  rcases h with rfl | (rfl | rfl | rfl) | rfl | rfl <;>
    simp [Findings.addProgram, Findings.category, exchange, systemProgram, tokenProgram,
      serumProgram, raydiumPrograms, jupiterPrograms]

/-- The category of a transaction with one instruction of an exchange. -/
theorem category_of_isDexProgram
    (hk : message.accountKeys.1[ix.programIdIndex.toNat]? = some key)
    (hd : isDexProgram p key = true) :
    categorizeTransaction p message [ix] = .ok (.dexProgram (exchange (p.showPubkey key))) := by
  have hindex : index message.accountKeys.1 ix.programIdIndex.toNat = .ok key := index_eq_ok.2 hk
  have hadd : Findings.add p message {} ix =
      .ok (({} : Findings).addProgram p (p.showPubkey key) ix.data.1) := by
    rw [Findings.add, hindex]
    rfl
  rw [categorizeTransaction, List.foldlM_cons, hadd,
    ← category_addProgram (p := p) ix.data.1 (isDexProgram_iff_mem.1 hd)]
  rfl

/-! ## Agreement -/

/-- The first byte that the instruction of an exchange has, if its category is right. -/
theorem categorizeDexInstruction_eq_iff (hd : isDexProgram p key = true) :
    categorizeDexInstruction p key data = exchange (p.showPubkey key) ↔
      (p.showPubkey key = serumProgram ∧ data.head? = some 0) ∨
        (p.showPubkey key ∈ raydiumPrograms ∧ data.head? = some 1) ∨
          p.showPubkey key ∈ jupiterPrograms := by
  rw [categorizeDexInstruction, exchange]
  rcases isDexProgram_iff_mem.1 hd with hs | hr | hj
  · have hnr : p.showPubkey key ∉ raydiumPrograms := fun hr => raydium_ne_serum hr hs
    have hnj : p.showPubkey key ∉ jupiterPrograms := fun hj => jupiter_ne_serum hj hs
    rw [if_pos hs, if_pos hs, and_iff_right hs, or_iff_left]
    · split <;> simp_all
    · exact fun h => h.elim (fun h => hnr h.1) hnj
  · have hns := raydium_ne_serum hr
    have hnj : p.showPubkey key ∉ jupiterPrograms := fun hj => jupiter_not_mem_raydium hj hr
    rw [if_neg hns, if_neg hns, if_pos hr, if_pos hr, or_iff_right fun h => hns h.1,
      and_iff_right hr, or_iff_left hnj]
    split <;> simp_all
  · have hns := jupiter_ne_serum hj
    have hnr := jupiter_not_mem_raydium hj
    rw [if_neg hns, if_neg hns, if_neg hnr, if_neg hnr, if_pos hj]
    exact iff_of_true rfl (.inr (.inr hj))

/-- A transaction with one instruction of an exchange has the category of the instruction if
    and only if it is a new order of Serum, a swap of Raydium or one of Jupiter. -/
theorem categorizeTransaction_eq_dexProgram_iff
    (hk : message.accountKeys.1[ix.programIdIndex.toNat]? = some key)
    (hd : isDexProgram p key = true) :
    categorizeTransaction p message [ix] =
        .ok (.dexProgram (categorizeDexInstruction p key ix.data.1)) ↔
      (p.showPubkey key = serumProgram ∧ ix.data.1.head? = some 0) ∨
        (p.showPubkey key ∈ raydiumPrograms ∧ ix.data.1.head? = some 1) ∨
          p.showPubkey key ∈ jupiterPrograms := by
  rw [category_of_isDexProgram hk hd, ← categorizeDexInstruction_eq_iff hd]
  constructor
  · intro h
    exact (TransactionCategory.dexProgram.inj (Except.ok.inj h)).symm
  · intro h
    rw [h]

/-- The key of Serum. -/
def serumKey : Pubkey := ⟨[133, 15, 45, 110, 2, 164, 122, 248, 36, 208, 154, 182, 157, 196, 45, 112,
  203, 40, 203, 250, 36, 159, 183, 238, 87, 185, 210, 86, 193, 39, 98, 239], rfl⟩

theorem showPubkey_serumKey : Packages.reference.showPubkey serumKey = serumProgram := by decide

theorem isDexProgram_serumKey : isDexProgram .reference serumKey = true := by
  rw [isDexProgram_iff_mem]
  exact .inl showPubkey_serumKey

/-- An instruction of Serum. -/
def serumInstruction (data : ShortVec UInt8) : CompiledInstruction :=
  ⟨0, ⟨[], Nat.two_pow_pos 16⟩, data⟩

/-- A message with this instruction. -/
def serumMessage (data : ShortVec UInt8) : Message where
  header := ⟨1, 0, 1⟩
  accountKeys := ⟨[serumKey], by decide⟩
  recentBlockhash := ⟨List.replicate 32 0, rfl⟩
  instructions := ⟨[serumInstruction data], by rw [List.length_singleton]; decide⟩

/-- A new order. -/
theorem categorizeTransaction_newOrder :
    categorizeTransaction .reference (serumMessage ⟨[0], by decide⟩)
        [serumInstruction ⟨[0], by decide⟩] =
          .ok (.dexProgram (categorizeDexInstruction .reference serumKey [0])) ↔
      (Packages.reference.showPubkey serumKey = serumProgram ∧ [(0 : UInt8)].head? = some 0) ∨
        (Packages.reference.showPubkey serumKey ∈ raydiumPrograms ∧
          [(0 : UInt8)].head? = some 1) ∨
          Packages.reference.showPubkey serumKey ∈ jupiterPrograms :=
  have hk : (serumMessage ⟨[0], by decide⟩).accountKeys.1[
      (serumInstruction ⟨[0], by decide⟩).programIdIndex.toNat]? = some serumKey := rfl
  categorizeTransaction_eq_dexProgram_iff hk isDexProgram_serumKey

/-- An instruction of Serum without data is taken for a new order. -/
theorem not_forall_categorizeTransaction : ¬∀ (p : Packages) (message : Message)
    (ix : CompiledInstruction) (key : Pubkey),
      message.accountKeys.1[ix.programIdIndex.toNat]? = some key → isDexProgram p key = true →
        categorizeTransaction p message [ix] =
          .ok (.dexProgram (categorizeDexInstruction p key ix.data.1)) := by
  intro h
  have hagree := h .reference (serumMessage ⟨[], by decide⟩) (serumInstruction ⟨[], by decide⟩)
    serumKey rfl isDexProgram_serumKey
  rw [category_of_isDexProgram rfl isDexProgram_serumKey, exchange, categorizeDexInstruction,
    showPubkey_serumKey] at hagree
  cases hagree

end Sylph.Solana

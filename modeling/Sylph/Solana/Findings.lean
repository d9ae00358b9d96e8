import Sylph.Solana.Indexing

/-!
# What the category of a transaction depends on

The category is read off six flags, which a loop over the instructions sets and never clears.
Which flags an instruction sets depends on the instruction only (`Sets`), so a flag is set in
the end if and only if one of the instructions sets it (`Findings.has_foldlM`), whatever their
order and number.

`categorizeTransaction_spec`: the category is that of the first flag that is set, in the order
of the cascade (`Precedence`), and one of an exchange if and only if an instruction is of a
program that `isDexProgram` lists.
-/

namespace Sylph.Solana

open Lib Lib.Except Lib.Rust

/-- `is_dex_program`, by the address as a text. -/
def isDexProgram (p : Packages) (programId : Pubkey) : Bool :=
  p.showPubkey programId ∈ [
    "9xQeWvG816bUx9EPjHmaT23yvVM2ZWbrrpZb9PusVFin",
    "675kPX9MHTjS2zt1qfr1NYHuzeLXfQM9H24wFSUt1Mp8",
    "5quBtoiQqxF9Jv6KYKctB59NT3gtJD2Y65kdnB1Uev3h",
    "CAMMCzo5YL8w4VFF8KVHrK22GGUsp5VTaW7grrKgrWqK",
    "JUP4Fb2cqiRUcaTHdrPC8h2gNsA2ETXiPDD33WcGuJB",
    "JUP6LkbZbjS1jKKwapdHNy74zcZ3tLUZoi5QNyVTaRk"]

/-- The flags of the loop over the instructions. -/
inductive Flag
  | systemTransfer
  | tokenTransfer
  | nftOperation
  | serumDex
  | raydium
  | jupiter

theorem Flag.exists_iff {P : Flag → Prop} : (∃ flag, P flag) ↔ P .systemTransfer ∨
    P .tokenTransfer ∨ P .nftOperation ∨ P .serumDex ∨ P .raydium ∨ P .jupiter := by
  constructor
  · rintro ⟨flag, h⟩
    cases flag <;> simp [h]
  · rintro (h | h | h | h | h | h) <;> exact ⟨_, h⟩

/-- An instruction of a program, with its data, sets a flag. -/
def Sets (p : Packages) (programId : String) (data : List UInt8) : Flag → Prop
  | .systemTransfer => programId = systemProgram ∧
    ∃ lamports, p.deserializeSystem data = some (.transfer lamports)
  | .tokenTransfer => programId = tokenProgram ∧
    ∃ amount, p.unpackToken data = some (.transfer amount)
  | .nftOperation => programId = metadataProgram
  | .serumDex => programId = serumProgram
  | .raydium => programId ∈ raydiumPrograms
  | .jupiter => programId ∈ jupiterPrograms

/-- An instruction of a message sets a flag. -/
def SetBy (p : Packages) (message : Message) (flag : Flag) (ix : CompiledInstruction) : Prop :=
  ∃ key, message.accountKeys.1[ix.programIdIndex.toNat]? = some key ∧
    Sets p (p.showPubkey key) ix.data.1 flag

variable {p : Packages} {message : Message} {ixs : List CompiledInstruction}
  {ix : CompiledInstruction} {programId : String} {data : List UInt8} {flag : Flag}

/-! ## Programs and their flags -/

theorem sets_systemProgram : Sets p systemProgram data flag ↔ flag = .systemTransfer ∧
    ∃ lamports, p.deserializeSystem data = some (.transfer lamports) := by
  cases flag <;> simp [Sets, systemProgram, tokenProgram, metadataProgram, serumProgram,
    raydiumPrograms, jupiterPrograms]

theorem sets_tokenProgram : Sets p tokenProgram data flag ↔ flag = .tokenTransfer ∧
    ∃ amount, p.unpackToken data = some (.transfer amount) := by
  cases flag <;> simp [Sets, systemProgram, tokenProgram, metadataProgram, serumProgram,
    raydiumPrograms, jupiterPrograms]

theorem sets_serumProgram : Sets p serumProgram data flag ↔ flag = .serumDex := by
  cases flag <;> simp [Sets, systemProgram, tokenProgram, metadataProgram, serumProgram,
    raydiumPrograms, jupiterPrograms]

theorem sets_of_mem_raydiumPrograms (h : programId ∈ raydiumPrograms) :
    Sets p programId data flag ↔ flag = .raydium := by
  simp only [raydiumPrograms, List.mem_cons, List.not_mem_nil, or_false] at h
  rcases h with rfl | rfl | rfl <;> cases flag <;> simp [Sets, systemProgram, tokenProgram,
    metadataProgram, serumProgram, raydiumPrograms, jupiterPrograms]

theorem sets_of_mem_jupiterPrograms (h : programId ∈ jupiterPrograms) :
    Sets p programId data flag ↔ flag = .jupiter := by
  simp only [jupiterPrograms, List.mem_cons, List.not_mem_nil, or_false] at h
  rcases h with rfl | rfl <;> cases flag <;> simp [Sets, systemProgram, tokenProgram,
    metadataProgram, serumProgram, raydiumPrograms, jupiterPrograms]

theorem sets_metadataProgram : Sets p metadataProgram data flag ↔ flag = .nftOperation := by
  cases flag <;> simp [Sets, systemProgram, tokenProgram, metadataProgram, serumProgram,
    raydiumPrograms, jupiterPrograms]

/-- The programs of the exchanges are those of three of the flags. -/
theorem isDexProgram_iff (key : Pubkey) (data : List UInt8) : isDexProgram p key = true ↔
    ∃ flag, (flag = .jupiter ∨ flag = .raydium ∨ flag = .serumDex) ∧
      Sets p (p.showPubkey key) data flag := by
  simp only [or_and_right, exists_or, exists_eq_left, Sets, isDexProgram, serumProgram,
    raydiumPrograms, jupiterPrograms, List.mem_cons, List.not_mem_nil, or_false,
    decide_eq_true_eq]
  tauto

namespace Findings

/-- Whether a flag is set. -/
def has (found : Findings) : Flag → Bool
  | .systemTransfer => found.hasSystemTransfer
  | .tokenTransfer => found.hasTokenTransfer
  | .nftOperation => found.hasNftOperation
  | .serumDex => found.hasSerumDex
  | .raydium => found.hasRaydium
  | .jupiter => found.hasJupiter

theorem ext_has {found found' : Findings}
    (h : ∀ flag, found.has flag = true ↔ found'.has flag = true) : found = found' := by
  have hb : ∀ flag, found.has flag = found'.has flag := fun flag => Bool.eq_iff_iff.2 (h flag)
  obtain ⟨system, token, nft, serum, raydium, jupiter⟩ := found
  rw [mk.injEq]
  exact ⟨hb .systemTransfer, hb .tokenTransfer, hb .nftOperation, hb .serumDex, hb .raydium,
    hb .jupiter⟩

/-! ## The loop -/

/-- A flag is set after an instruction if it has been before, or the instruction sets it. -/
theorem has_addProgram (found : Findings) (programId : String) (data : List UInt8) (flag : Flag) :
    (found.addProgram p programId data).has flag = true ↔
      found.has flag = true ∨ Sets p programId data flag := by
  rw [addProgram]
  split
  · next h =>
    rw [h, sets_systemProgram]
    split
    · next lamports hd => cases flag <;> simp [has, hd]
    · next hn => simpa using fun _ lamports hd => absurd hd (hn lamports)
  split
  · next h =>
    rw [h, sets_tokenProgram]
    split
    · next amount hu => cases flag <;> simp [has, hu]
    · next hn => simpa using fun _ amount hu => absurd hu (hn amount)
  split
  · next h => cases flag <;> simp [has, h, sets_serumProgram]
  split
  · next h => cases flag <;> simp [has, sets_of_mem_raydiumPrograms h]
  split
  · next h => cases flag <;> simp [has, sets_of_mem_jupiterPrograms h]
  split
  · next h => cases flag <;> simp [has, h, sets_metadataProgram]
  -- The arm of all other programs.
  next h₁ h₂ h₃ h₄ h₅ h₆ => cases flag <;> simp [Sets, h₁, h₂, h₃, h₄, h₅, h₆]

theorem has_add {found found' : Findings} (h : found.add p message ix = .ok found') :
    found'.has flag = true ↔ found.has flag = true ∨ SetBy p message flag ix := by
  obtain ⟨programId, hp, h⟩ := bind_eq_ok.1 h
  obtain rfl := Except.ok.inj h
  obtain ⟨key, hk, rfl⟩ := map_eq_ok.1 hp
  rw [has_addProgram, SetBy, index_eq_ok.1 hk]
  simp

theorem has_foldlM {found found' : Findings} (h : ixs.foldlM (add p message) found = .ok found') :
    found'.has flag = true ↔ found.has flag = true ∨ ∃ ix ∈ ixs, SetBy p message flag ix := by
  induction ixs generalizing found with
  | nil =>
    cases h
    simp
  | cons ix ixs ih =>
    rw [List.foldlM_cons] at h
    obtain ⟨found₁, ha, h⟩ := bind_eq_ok.1 h
    rw [ih h, has_add ha, List.exists_mem_cons_iff, or_assoc]

/-- Nothing has been found at first. -/
theorem has_initial (flag : Flag) : ({} : Findings).has flag = false := by
  cases flag <;> rfl

end Findings

/-! ## The cascade -/

/-- No exchange is among the programs. -/
def NoDex (set : Flag → Prop) : Prop := ¬set .jupiter ∧ ¬set .raydium ∧ ¬set .serumDex

/-- The category of the first flag that is set. -/
inductive Precedence (set : Flag → Prop) : TransactionCategory → Prop
  | jupiter (h : set .jupiter) : Precedence set (.dexProgram .jupiterSwap)
  | raydium (hj : ¬set .jupiter) (h : set .raydium) : Precedence set (.dexProgram .raydiumSwap)
  | serumDex (hj : ¬set .jupiter) (hr : ¬set .raydium) (h : set .serumDex) :
    Precedence set (.dexProgram .serumNewOrder)
  | systemTransfer (hd : NoDex set) (h : set .systemTransfer) :
    Precedence set (.systemProgram .transfer)
  | tokenTransfer (hd : NoDex set) (hs : ¬set .systemTransfer) (h : set .tokenTransfer) :
    Precedence set (.tokenProgram .transfer)
  | nftOperation (hd : NoDex set) (hs : ¬set .systemTransfer) (ht : ¬set .tokenTransfer)
    (h : set .nftOperation) : Precedence set (.nftProgram .other)
  | unknown (h : ∀ flag, ¬set flag) : Precedence set .unknown

theorem Findings.precedence_category (found : Findings) :
    Precedence (fun flag => found.has flag = true) found.category := by
  obtain ⟨system, token, nft, serum, raydium, jupiter⟩ := found
  rw [category]
  -- The cases are split in the order of the cascade.
  cases jupiter
  · cases raydium
    · cases serum
      · have hd : NoDex fun flag =>
            has ⟨system, token, nft, false, false, false⟩ flag = true := by simp [NoDex, has]
        cases system
        · cases token
          · cases nft
            · exact .unknown fun flag => by cases flag <;> simp [has]
            · exact .nftOperation hd (by simp [has]) (by simp [has]) rfl
          · exact .tokenTransfer hd (by simp [has]) rfl
        · exact .systemTransfer hd rfl
      · exact .serumDex (by simp [has]) (by simp [has]) rfl
    · exact .raydium (by simp [has]) rfl
  · exact .jupiter rfl

/-- The category is that of an exchange if and only if there is one. -/
theorem Precedence.dexProgram_iff {set : Flag → Prop} {category : TransactionCategory}
    (h : Precedence set category) : (∃ t, category = .dexProgram t) ↔
      ∃ flag, (flag = .jupiter ∨ flag = .raydium ∨ flag = .serumDex) ∧ set flag := by
  cases h with
  | jupiter h => exact iff_of_true ⟨_, rfl⟩ ⟨_, .inl rfl, h⟩
  | raydium _ h => exact iff_of_true ⟨_, rfl⟩ ⟨_, .inr (.inl rfl), h⟩
  | serumDex _ _ h => exact iff_of_true ⟨_, rfl⟩ ⟨_, .inr (.inr rfl), h⟩
  | unknown h => simp [h]
  | systemTransfer hd | tokenTransfer hd | nftOperation hd =>
    obtain ⟨hj, hr, hs⟩ := hd
    simp [hj, hr, hs]

/-- A flag is set in the end if and only if one of the instructions sets it. -/
theorem exists_findings (h : ∀ ix ∈ ixs, ix.programIdIndex.toNat < message.accountKeys.1.length) :
    ∃ found, ixs.foldlM (Findings.add p message) {} = .ok found ∧
      ∀ flag, found.has flag = true ↔ ∃ ix ∈ ixs, SetBy p message flag ix := by
  obtain ⟨found, hf⟩ := exists_foldlM_add (p := p) h
  refine ⟨found, hf, fun flag => ?_⟩
  rw [Findings.has_foldlM hf, Findings.has_initial]
  simp

/-- The category depends on the instructions that there are only: it is that of the first flag
    one of them sets, and that of an exchange if and only if one is of its program. -/
theorem categorizeTransaction_spec (p : Packages) (message : Message)
    (ixs : List CompiledInstruction)
    (h : ∀ ix ∈ ixs, ix.programIdIndex.toNat < message.accountKeys.1.length) :
    ∃ category, categorizeTransaction p message ixs = .ok category ∧
      Precedence (fun flag => ∃ ix ∈ ixs, SetBy p message flag ix) category ∧
      ((∃ t, category = .dexProgram t) ↔ ∃ ix ∈ ixs, ∃ key,
        message.accountKeys.1[ix.programIdIndex.toNat]? = some key ∧
          isDexProgram p key = true) ∧
      ∀ ixs', (∀ ix, ix ∈ ixs' ↔ ix ∈ ixs) →
        categorizeTransaction p message ixs' = .ok category := by
  obtain ⟨found, hf, hflag⟩ := exists_findings (p := p) h
  -- The findings are the instructions' flags, and nothing else of the list is kept.
  have hset : (fun flag => found.has flag = true) =
      fun flag => ∃ ix ∈ ixs, SetBy p message flag ix := funext fun flag => propext (hflag flag)
  have hp := found.precedence_category
  refine ⟨found.category, by rw [categorizeTransaction, hf]; rfl, hset ▸ hp, ?_, ?_⟩
  · rw [hp.dexProgram_iff]
    simp only [hflag, SetBy]
    constructor
    · rintro ⟨flag, hd, ix, hi, key, hk, hs⟩
      exact ⟨ix, hi, key, hk, (isDexProgram_iff key ix.data.1).2 ⟨flag, hd, hs⟩⟩
    · rintro ⟨ix, hi, key, hk, hd⟩
      obtain ⟨flag, hd, hs⟩ := (isDexProgram_iff key ix.data.1).1 hd
      exact ⟨flag, hd, ix, hi, key, hk, hs⟩
  · intro ixs' hixs
    obtain ⟨found', hf', hflag'⟩ := exists_findings (p := p) fun ix hi => h ix ((hixs ix).1 hi)
    have he : found' = found := Findings.ext_has fun flag => by
      rw [hflag, hflag']
      exact exists_congr fun ix => and_congr_left fun _ => hixs ix
    rw [categorizeTransaction, hf', he]
    rfl

theorem categorizeTransaction_spec_paidTransfer : ∃ category,
    categorizeTransaction .reference paidTransfer.transaction.message
      paidTransfer.transaction.message.instructions.1 = .ok category ∧
    Precedence (fun flag => ∃ ix ∈ paidTransfer.transaction.message.instructions.1,
      SetBy .reference paidTransfer.transaction.message flag ix) category ∧
    ((∃ t, category = .dexProgram t) ↔
      ∃ ix ∈ paidTransfer.transaction.message.instructions.1, ∃ key,
        paidTransfer.transaction.message.accountKeys.1[ix.programIdIndex.toNat]? =
          some key ∧ isDexProgram .reference key = true) ∧
    categorizeTransaction .reference paidTransfer.transaction.message
      paidTransfer.transaction.message.instructions.1.reverse = .ok category := by
  obtain ⟨category, hc, hp, hd, hall⟩ :=
    categorizeTransaction_spec .reference _ _ sanitized_paidTransfer.program
  exact ⟨category, hc, hp, hd, hall _ fun ix => List.mem_reverse⟩

end Sylph.Solana

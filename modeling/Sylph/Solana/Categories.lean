import Sylph.Solana.Findings

/-!
# Categories and transfers

The category of a transaction and the transfers of tokens in it are found independently.

* `category_ne_unknown_iff`: a category is known if and only if one of the instructions is
  recognised: a transfer of the system program, a `Transfer` of the token program, or any
  instruction of one of the other programs there is a category for.
* `parseTokenTransfers_eq_some_iff`: a transfer is found if and only if the instruction is a
  `TransferChecked`, with its three accounts.

A `TransferChecked` is not recognised, so a transaction with one may well be of an unknown
category (`agrees_iff`).
-/

namespace Sylph.Solana

open Lib Lib.Except Lib.Rust

variable {p : Packages} {message : Message} {ixs : List CompiledInstruction}
  {ix : CompiledInstruction} {accounts : List Pubkey}
  {preTokenBalances postTokenBalances : Option (List UiTransactionTokenBalance)}

/-! ## Categories -/

/-- An instruction of a program counts for the category. -/
def Recognizes (p : Packages) (programId : String) (data : List UInt8) : Prop :=
  (programId = systemProgram ∧ ∃ lamports, p.deserializeSystem data = some (.transfer lamports)) ∨
    (programId = tokenProgram ∧ ∃ amount, p.unpackToken data = some (.transfer amount)) ∨
    programId = serumProgram ∨ programId ∈ raydiumPrograms ∨ programId ∈ jupiterPrograms ∨
    programId = metadataProgram

/-- An instruction of a message counts for the category. -/
def Recognized (p : Packages) (message : Message) (ix : CompiledInstruction) : Prop :=
  ∃ key, message.accountKeys.1[ix.programIdIndex.toNat]? = some key ∧
    Recognizes p (p.showPubkey key) ix.data.1

/-- An instruction counts if and only if it sets a flag. -/
theorem recognizes_iff {programId : String} {data : List UInt8} :
    Recognizes p programId data ↔ ∃ flag, Sets p programId data flag := by
  rw [Flag.exists_iff, Recognizes]
  simp only [Sets]
  tauto

theorem recognizes_tokenProgram {data : List UInt8} : Recognizes p tokenProgram data ↔
    ∃ amount, p.unpackToken data = some (.transfer amount) := by
  simp [recognizes_iff, sets_tokenProgram]

theorem recognized_iff : Recognized p message ix ↔ ∃ flag, SetBy p message flag ix := by
  simp only [Recognized, SetBy, recognizes_iff]
  constructor
  · rintro ⟨key, hk, flag, h⟩
    exact ⟨flag, key, hk, h⟩
  · rintro ⟨flag, key, hk, h⟩
    exact ⟨key, hk, flag, h⟩

/-- The category is unknown if and only if no flag is set. -/
theorem Precedence.ne_unknown_iff {set : Flag → Prop} {category : TransactionCategory}
    (h : Precedence set category) : category ≠ .unknown ↔ ∃ flag, set flag := by
  cases h with
  | unknown h => simp [h]
  | jupiter h | raydium _ h | serumDex _ _ h | systemTransfer _ h | tokenTransfer _ _ h
  | nftOperation _ _ _ h => exact iff_of_true nofun ⟨_, h⟩

namespace Findings

/-- Something has been found. -/
def any (found : Findings) : Prop :=
  found.hasSystemTransfer = true ∨ found.hasTokenTransfer = true ∨ found.hasNftOperation = true ∨
    found.hasSerumDex = true ∨ found.hasRaydium = true ∨ found.hasJupiter = true

theorem any_iff (found : Findings) : found.any ↔ ∃ flag, found.has flag = true := by
  rw [Flag.exists_iff]
  rfl

theorem category_ne_unknown_iff (found : Findings) : found.category ≠ .unknown ↔ found.any := by
  rw [found.precedence_category.ne_unknown_iff, any_iff]

/-- Something has been found in the end if one of the instructions counts. -/
theorem any_foldlM {found found' : Findings} (h : ixs.foldlM (add p message) found = .ok found') :
    found'.any ↔ found.any ∨ ∃ ix ∈ ixs, Recognized p message ix := by
  simp only [any_iff, has_foldlM h, recognized_iff, exists_or]
  refine or_congr_right ⟨?_, ?_⟩
  · rintro ⟨flag, ix, hi, h⟩
    exact ⟨ix, hi, flag, h⟩
  · rintro ⟨ix, hi, flag, h⟩
    exact ⟨flag, ix, hi, h⟩

end Findings

/-- A transaction has a category if and only if one of its instructions counts. -/
theorem category_ne_unknown_iff {category : TransactionCategory}
    (h : categorizeTransaction p message ixs = .ok category) :
    category ≠ .unknown ↔ ∃ ix ∈ ixs, Recognized p message ix := by
  obtain ⟨found, hf, h⟩ := bind_eq_ok.1 h
  obtain rfl := Except.ok.inj h
  rw [found.category_ne_unknown_iff, Findings.any_foldlM hf]
  simp [Findings.any]

/-! ## Transfers -/

/-- A `TransferChecked` with the accounts that the parser asks for. -/
def FindsTransfer (p : Packages) (message : Message) (accounts : List Pubkey)
    (ix : CompiledInstruction) : Prop :=
  TransfersChecked p message ix ∧
    ∀ i < 3, ∃ j, ix.accounts.1[i]? = some j ∧ j.toNat < accounts.length

theorem parseTransferChecked_eq_ok_iff {amount : UInt64} {decimals : UInt8} :
    (∃ r, parseTransferChecked p ix accounts amount decimals = .ok r) ↔
      ∀ i < 3, ∃ j, ix.accounts.1[i]? = some j ∧ j.toNat < accounts.length := by
  constructor
  · rintro ⟨r, h⟩ i hi
    rw [parseTransferChecked] at h
    obtain ⟨j₀, h₀, h⟩ := bind_eq_ok.1 h
    obtain ⟨j₁, h₁, h⟩ := bind_eq_ok.1 h
    obtain ⟨j₂, h₂, h⟩ := bind_eq_ok.1 h
    obtain ⟨fromAddress, hf, h⟩ := bind_eq_ok.1 h
    obtain ⟨toAddress, ht, h⟩ := bind_eq_ok.1 h
    obtain ⟨mint, hm, -⟩ := bind_eq_ok.1 h
    -- The accounts are shown in another order than they are looked up.
    have hlt₀ := exists_showPubkey_iff.1 ⟨fromAddress, hf⟩
    have hlt₁ := exists_showPubkey_iff.1 ⟨mint, hm⟩
    have hlt₂ := exists_showPubkey_iff.1 ⟨toAddress, ht⟩
    interval_cases i
    · exact ⟨j₀, index_eq_ok.1 h₀, hlt₀⟩
    · exact ⟨j₁, index_eq_ok.1 h₁, hlt₁⟩
    · exact ⟨j₂, index_eq_ok.1 h₂, hlt₂⟩
  · intro h
    obtain ⟨j₀, h₀, hlt₀⟩ := h 0 (by decide)
    obtain ⟨j₁, h₁, hlt₁⟩ := h 1 (by decide)
    obtain ⟨j₂, h₂, hlt₂⟩ := h 2 (by decide)
    obtain ⟨fromAddress, hf⟩ := (exists_showPubkey_iff (p := p)).2 hlt₀
    obtain ⟨mint, hm⟩ := (exists_showPubkey_iff (p := p)).2 hlt₁
    obtain ⟨toAddress, ht⟩ := (exists_showPubkey_iff (p := p)).2 hlt₂
    exact exists_bind_iff.2 ⟨j₀, index_eq_ok.2 h₀, exists_bind_iff.2 ⟨j₁, index_eq_ok.2 h₁,
      exists_bind_iff.2 ⟨j₂, index_eq_ok.2 h₂, exists_bind_iff.2 ⟨fromAddress, hf,
        exists_bind_iff.2 ⟨toAddress, ht, exists_bind_iff.2 ⟨mint, hm, _, rfl⟩⟩⟩⟩⟩⟩

theorem parseTokenTransfers_of_checked {amount : UInt64} {decimals : UInt8}
    (ho : OfTokenProgram p message ix)
    (hu : p.unpackToken ix.data.1 = some (.transferChecked amount decimals)) :
    parseTokenTransfers p message ix accounts preTokenBalances postTokenBalances =
      parseTransferChecked p ix accounts amount decimals := by
  rw [parseTokenTransfers_of ho, hu]

/-- A transfer is found for a `TransferChecked` with the accounts. -/
theorem parseTokenTransfers_eq_some_iff :
    (∃ info, parseTokenTransfers p message ix accounts preTokenBalances postTokenBalances =
      .ok (some info)) ↔ FindsTransfer p message accounts ix := by
  constructor
  · rintro ⟨info, h⟩
    have hc := (isSome_parseTokenTransfers_iff h).1 rfl
    refine ⟨hc, ?_⟩
    obtain ⟨ho, amount, decimals, hu⟩ := hc
    rw [parseTokenTransfers_of_checked ho hu] at h
    exact parseTransferChecked_eq_ok_iff.1 ⟨_, h⟩
  · rintro ⟨⟨ho, amount, decimals, hu⟩, hacc⟩
    obtain ⟨r, h⟩ := (parseTransferChecked_eq_ok_iff (p := p)).2 hacc
    obtain ⟨info, rfl⟩ := Option.isSome_iff_exists.1 (isSome_of_parseTransferChecked h)
    exact ⟨info, (parseTokenTransfers_of_checked ho hu).trans h⟩

/-! ## Agreement -/

/-- A list of instructions with a transfer of tokens has a category if and only if it has
    a `TransferChecked` with its accounts only together with an instruction that counts. -/
theorem agrees_iff {category : TransactionCategory}
    (h : categorizeTransaction p message ixs = .ok category) :
    ((∃ ix ∈ ixs, ∃ info, parseTokenTransfers p message ix accounts preTokenBalances
        postTokenBalances = .ok (some info)) → category ≠ .unknown) ↔
      ((∃ ix ∈ ixs, FindsTransfer p message accounts ix) →
        ∃ ix ∈ ixs, Recognized p message ix) := by
  rw [category_ne_unknown_iff h]
  refine imp_congr_left (exists_congr fun ix => and_congr_right fun _ => ?_)
  exact parseTokenTransfers_eq_some_iff

/-- The message of a `TransferChecked`, and its instruction. -/
theorem exists_categorize_checkedTransfer : ∃ category,
    categorizeTransaction .reference (checkedTransfer none).transaction.message
      (checkedTransfer none).transaction.message.instructions.1 = .ok category :=
  exists_categorizeTransaction (sanitized_checkedTransfer none)

theorem agrees_iff_checkedTransfer : ∃ category,
    categorizeTransaction .reference (checkedTransfer none).transaction.message
      (checkedTransfer none).transaction.message.instructions.1 = .ok category ∧
    (((∃ ix ∈ (checkedTransfer none).transaction.message.instructions.1, ∃ info,
        parseTokenTransfers .reference (checkedTransfer none).transaction.message ix
          (checkedTransfer none).transaction.message.accountKeys.1 none none =
            .ok (some info)) → category ≠ .unknown) ↔
      ((∃ ix ∈ (checkedTransfer none).transaction.message.instructions.1,
        FindsTransfer .reference (checkedTransfer none).transaction.message
          (checkedTransfer none).transaction.message.accountKeys.1 ix) →
        ∃ ix ∈ (checkedTransfer none).transaction.message.instructions.1,
          Recognized .reference (checkedTransfer none).transaction.message ix)) := by
  obtain ⟨category, h⟩ := exists_categorize_checkedTransfer
  exact ⟨category, h, agrees_iff h⟩

/-- A `TransferChecked` does not count. -/
theorem not_recognized_checkedTransfer :
    ∀ ix ∈ (checkedTransfer none).transaction.message.instructions.1,
      ¬Recognized .reference (checkedTransfer none).transaction.message ix := by
  rintro ix hix ⟨key, hk, hr⟩
  cases List.mem_singleton.1 hix
  obtain rfl := Option.some_inj.1 (ofTokenProgram_tokenTransaction.symm.trans hk)
  rw [Packages.reference.showPubkey_tokenProgramId, recognizes_tokenProgram] at hr
  obtain ⟨amount, hu⟩ := hr
  cases hu

theorem findsTransfer_checkedTransfer :
    ∃ ix ∈ (checkedTransfer none).transaction.message.instructions.1,
      FindsTransfer .reference (checkedTransfer none).transaction.message
        (checkedTransfer none).transaction.message.accountKeys.1 ix := by
  refine ⟨_, List.mem_singleton_self _, ⟨ofTokenProgram_tokenTransaction, 1, 6, rfl⟩, ?_⟩
  intro i hi
  interval_cases i
  · exact ⟨1, rfl, by decide⟩
  · exact ⟨2, rfl, by decide⟩
  · exact ⟨3, rfl, by decide⟩

/-- A `TransferChecked` on its own is of an unknown category. -/
theorem not_forall_agrees : ¬∀ (p : Packages) (message : Message) (ixs : List CompiledInstruction)
    (preTokenBalances postTokenBalances : Option (List UiTransactionTokenBalance))
    (category : TransactionCategory), categorizeTransaction p message ixs = .ok category →
      (∃ ix ∈ ixs, ∃ info, parseTokenTransfers p message ix message.accountKeys.1
        preTokenBalances postTokenBalances = .ok (some info)) → category ≠ .unknown := by
  intro h
  obtain ⟨category, hc⟩ := exists_categorize_checkedTransfer
  obtain ⟨ix, hix, hf⟩ := findsTransfer_checkedTransfer
  have hne := h .reference _ _ none none category hc
    ⟨ix, hix, parseTokenTransfers_eq_some_iff.2 hf⟩
  obtain ⟨ix', hix', hr⟩ := (category_ne_unknown_iff hc).1 hne
  exact not_recognized_checkedTransfer ix' hix' hr

end Sylph.Solana

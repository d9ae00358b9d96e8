import Sylph.Lib.Dict
import Sylph.Lib.Except
import Sylph.Lib.Rust
import Sylph.Solana.Client

/-!
# The parser of instructions

What the service reads of the instructions of a message: the type and the parameters of
one (`parseInstruction`), the category of all (`categorizeTransaction`), and the transfer
of a token that one stands for (`parseTokenTransfers`).

* A message that is sanitized (`Message.Sanitized`) has a key for every index in its
  instructions. No more than that is known of the accounts of an instruction, so its
  first ones, which `parseTokenTransfers` asks for, may not be there:
  `exists_parseTokenTransfers_iff`.
* `findTokenMint` compares the index of an account with an address, and finds nothing
  (`findTokenMint_eq_none`): only a `TransferChecked` stands for a transfer
  (`isSome_parseTokenTransfers_iff`).

The instructions of the system program and of the token program belong to other packages,
which are the fields of `Packages`.
-/

namespace Sylph.Solana

open Lib Lib.Except Lib.Rust

/-- An instruction of the system program. Those the parser takes no notice of are `other`. -/
inductive SystemInstruction
  | createAccount (lamports space : UInt64) (owner : Pubkey)
  | transfer (lamports : UInt64)
  | other

/-- An instruction of the token program. Those the parser takes no notice of are `other`. -/
inductive TokenInstruction
  | transfer (amount : UInt64)
  | mintTo (amount : UInt64)
  | burn (amount : UInt64)
  | transferChecked (amount : UInt64) (decimals : UInt8)
  | other

/-- The address of the system program. -/
def systemProgram : String := "11111111111111111111111111111111"

/-- The address that is taken for the one of the token program. -/
def tokenProgram : String := "TokenkegQfeZyiNwAJbNbGKPFXCWuBvf9Ss623VQ5DA"

/-- The address of the metadata program of Metaplex. -/
def metadataProgram : String := "meta5YZgf5YscZgqDCqXv8oQL7UzDMhXQ6VBHxGgqYf"

/-- The address of the exchange Serum. -/
def serumProgram : String := "9xQeWvG816bUx9EPjHmaT23yvVM2ZWbrrpZb9PusVFin"

/-- The addresses of the exchange Raydium. -/
def raydiumPrograms : List String := [
  "675kPX9MHTjS2zt1qfr1NYHuzeLXfQM9H24wFSUt1Mp8",
  "5quBtoiQqxF9Jv6KYKctB59NT3gtJD2Y65kdnB1Uev3h",
  "CAMMCzo5YL8w4VFF8KVHrK22GGUsp5VTaW7grrKgrWqK"]

/-- The addresses of the exchange Jupiter. -/
def jupiterPrograms : List String := [
  "JUP4Fb2cqiRUcaTHdrPC8h2gNsA2ETXiPDD33WcGuJB",
  "JUP6LkbZbjS1jKKwapdHNy74zcZ3tLUZoi5QNyVTaRk"]

/-- The packages that the parser and the service rely on. -/
structure Packages where
  /-- The text of a public key, in base58. -/
  showPubkey : Pubkey → String
  le_length_showPubkey : ∀ key, 32 ≤ (showPubkey key).length
  /-- `spl_token::id()` -/
  tokenProgramId : Pubkey
  showPubkey_tokenProgramId : showPubkey tokenProgramId = tokenProgram
  /-- `bincode::deserialize::<SystemInstruction>` -/
  deserializeSystem : List UInt8 → Option SystemInstruction
  /-- `TokenInstruction::unpack` -/
  unpackToken : List UInt8 → Option TokenInstruction
  isSigner : Message → ℕ → Bool
  /-- `is_maybe_writable`, without a set of reserved accounts. -/
  isMaybeWritable : Message → ℕ → Bool

/-- What an instruction of the system program is for. -/
inductive SystemProgramType
  | createAccount
  | transfer
  | assign
  | other

/-- What an instruction of the token program is for. -/
inductive TokenProgramType
  | transfer
  | mintTo
  | burn
  | createAccount
  | other

/-- What an instruction of an exchange is for. -/
inductive DexProgramType
  | serumNewOrder
  | serumMatchOrder
  | serumCancelOrder
  | raydiumSwap
  | raydiumAddLiquidity
  | raydiumRemoveLiquidity
  | jupiterSwap
  | other

/-- What an instruction about an NFT is for. -/
inductive NFTProgramType
  | mint
  | transfer
  | list
  | other

/-- The category of a transaction, by its most telling instruction. -/
inductive TransactionCategory
  | systemProgram (t : SystemProgramType)
  | tokenProgram (t : TokenProgramType)
  | dexProgram (t : DexProgramType)
  | nftProgram (t : NFTProgramType)
  | unknown

/-- What a token is taken for. -/
inductive TokenType
  | spl
  | nft

/-- A transfer of tokens, as the parser finds it. -/
structure TokenTransferInfo where
  fromAddress : String
  toAddress : String
  amount : UInt64
  mint : String
  tokenType : TokenType

/-- A key for every program and every account of an instruction: the rule that a message
    has to pass. -/
structure Message.Sanitized (m : Message) : Prop where
  program : ∀ ix ∈ m.instructions.1, ix.programIdIndex.toNat < m.accountKeys.1.length
  account : ∀ ix ∈ m.instructions.1, ∀ i ∈ ix.accounts.1, i.toNat < m.accountKeys.1.length

section Parser

variable (p : Packages)

/-! ## The type of an instruction -/

/-- The name and the arguments of an instruction of the system program. -/
def parseSystemInstruction (ix : CompiledInstruction) : String × Dict String String :=
  match p.deserializeSystem ix.data.1 with
  | some (.createAccount lamports space owner) =>
    ("CreateAccount", (((∅ : Dict String String).insert "lamports" (toString lamports)).insert
      "space" (toString space)).insert "owner" (p.showPubkey owner))
  | some (.transfer lamports) =>
    ("Transfer", (∅ : Dict String String).insert "lamports" (toString lamports))
  | some _ => ("Unknown", ∅)
  | none => ("Invalid", ∅)

/-- The name and the arguments of an instruction of the token program. -/
def parseTokenInstruction (ix : CompiledInstruction) : String × Dict String String :=
  match p.unpackToken ix.data.1 with
  | some (.transfer amount) =>
    ("Transfer", (∅ : Dict String String).insert "amount" (toString amount))
  | some (.mintTo amount) =>
    ("MintTo", (∅ : Dict String String).insert "amount" (toString amount))
  | some (.burn amount) =>
    ("Burn", (∅ : Dict String String).insert "amount" (toString amount))
  | some _ => ("Unknown", ∅)
  | none => ("Invalid", ∅)

/-- The name and the arguments of an instruction; only two programs are known. -/
def parseInstruction (ix : CompiledInstruction) (message : Message) :
    Except Panic (String × Dict String String) := do
  let programId ← p.showPubkey <$> index message.accountKeys.1 ix.programIdIndex.toNat
  return if programId = systemProgram then parseSystemInstruction p ix
    else if programId = tokenProgram then parseTokenInstruction p ix
    else ("Unknown", ∅)

/-! ## The category of a transaction -/

/-- What has been found among the instructions. -/
structure Findings where
  hasSystemTransfer : Bool := false
  hasTokenTransfer : Bool := false
  hasNftOperation : Bool := false
  hasSerumDex : Bool := false
  hasRaydium : Bool := false
  hasJupiter : Bool := false

/-- What an instruction of a program adds. -/
def Findings.addProgram (found : Findings) (programId : String) (data : List UInt8) : Findings :=
  if programId = systemProgram then
    match p.deserializeSystem data with
    | some (.transfer _) => { found with hasSystemTransfer := true }
    | _ => found
  else if programId = tokenProgram then
    match p.unpackToken data with
    | some (.transfer _) => { found with hasTokenTransfer := true }
    | _ => found
  else if programId = serumProgram then
    { found with hasSerumDex := true }
  else if programId ∈ raydiumPrograms then
    { found with hasRaydium := true }
  else if programId ∈ jupiterPrograms then
    { found with hasJupiter := true }
  else if programId = metadataProgram then
    { found with hasNftOperation := true }
  else
    found

/-- The body of the loop over the instructions. -/
def Findings.add (message : Message) (found : Findings) (ix : CompiledInstruction) :
    Except Panic Findings := do
  let programId ← p.showPubkey <$> index message.accountKeys.1 ix.programIdIndex.toNat
  return found.addProgram p programId ix.data.1

/-- Exchanges go first, in their order, then transfers, and NFTs last. -/
def Findings.category (found : Findings) : TransactionCategory :=
  if found.hasJupiter then .dexProgram .jupiterSwap
  else if found.hasRaydium then .dexProgram .raydiumSwap
  else if found.hasSerumDex then .dexProgram .serumNewOrder
  else match found.hasSystemTransfer, found.hasTokenTransfer, found.hasNftOperation with
    | true, _, _ => .systemProgram .transfer
    | _, true, _ => .tokenProgram .transfer
    | _, _, true => .nftProgram .other
    | _, _, _ => .unknown

/-- The category of a transaction, from all its instructions. -/
def categorizeTransaction (message : Message) (instructions : List CompiledInstruction) :
    Except Panic TransactionCategory := do
  let found ← instructions.foldlM (Findings.add p message) {}
  return found.category

/-! ## Transfers of tokens -/

/-- Whether the program is `spl_token::id()`. -/
def isTokenProgram (programId : Pubkey) : Bool := programId = p.tokenProgramId

/-- The balances before are searched first. -/
def findTokenMint (tokenAccount : String)
    (preBalances postBalances : Option (List UiTransactionTokenBalance)) : Option String :=
  let find (balances : List UiTransactionTokenBalance) :=
    balances.find? fun b => toString b.accountIndex = tokenAccount
  ((preBalances.bind find).or (postBalances.bind find)).map (·.mint)

/-- Whether the first balance of a mint shows a single indivisible token. -/
def isNftMint (mint : String) (tokenBalances : Option (List UiTransactionTokenBalance)) : Bool :=
  match tokenBalances.bind fun balances => balances.find? fun b => b.mint = mint with
  | some balance => balance.uiTokenAmount.decimals == 0 && balance.uiTokenAmount.amount == "1"
  | none => false

/-- The case of a `Transfer`. -/
def parseTransfer (instruction : CompiledInstruction) (accounts : List Pubkey)
    (preTokenBalances postTokenBalances : Option (List UiTransactionTokenBalance))
    (amount : UInt64) : Except Panic (Option TokenTransferInfo) := do
  let fromIndex ← index instruction.accounts.1 0
  let toIndex ← index instruction.accounts.1 1
  let fromAddress ← p.showPubkey <$> index accounts fromIndex.toNat
  let toAddress ← p.showPubkey <$> index accounts toIndex.toNat
  return (findTokenMint fromAddress preTokenBalances postTokenBalances).map fun mint => {
    fromAddress := fromAddress
    toAddress := toAddress
    amount := amount
    mint := mint
    tokenType := if amount = 1 ∧ isNftMint mint preTokenBalances then .nft else .spl }

/-- The case of a `TransferChecked`. -/
def parseTransferChecked (instruction : CompiledInstruction) (accounts : List Pubkey)
    (amount : UInt64) (decimals : UInt8) : Except Panic (Option TokenTransferInfo) := do
  let fromIndex ← index instruction.accounts.1 0
  let mintIndex ← index instruction.accounts.1 1
  let toIndex ← index instruction.accounts.1 2
  let fromAddress ← p.showPubkey <$> index accounts fromIndex.toNat
  let toAddress ← p.showPubkey <$> index accounts toIndex.toNat
  let mint ← p.showPubkey <$> index accounts mintIndex.toNat
  return some {
    fromAddress := fromAddress
    toAddress := toAddress
    amount := amount
    mint := mint
    tokenType := if amount = 1 ∧ decimals = 0 then .nft else .spl }

/-- The transfer of an instruction, if it is one of the token program. -/
def parseTokenTransfers (message : Message) (instruction : CompiledInstruction)
    (accounts : List Pubkey)
    (preTokenBalances postTokenBalances : Option (List UiTransactionTokenBalance)) :
    Except Panic (Option TokenTransferInfo) := do
  let programId ← index message.accountKeys.1 instruction.programIdIndex.toNat
  if isTokenProgram p programId then
    match p.unpackToken instruction.data.1 with
    | some (.transfer amount) =>
      parseTransfer p instruction accounts preTokenBalances postTokenBalances amount
    | some (.transferChecked amount decimals) =>
      parseTransferChecked p instruction accounts amount decimals
    | _ => return none
  else
    return none

end Parser

section Spec

variable {p : Packages} {message : Message} {ix : CompiledInstruction}
  {preTokenBalances postTokenBalances : Option (List UiTransactionTokenBalance)}
  {r : Option TokenTransferInfo}

/-! ## Transfers that the parser finds -/

/-- An index of an account is no address. -/
theorem toString_ne_showPubkey (i : UInt8) (key : Pubkey) : toString i ≠ p.showPubkey key := by
  intro h
  have hle : (toString i).length ≤ 3 :=
    (Nat.length_repr_le_iff (by decide)).2 (lt_trans i.toNat_lt (by decide))
  rw [h] at hle
  exact absurd (le_trans (p.le_length_showPubkey key) hle) (by decide)

theorem findTokenMint_eq_none (key : Pubkey) :
    findTokenMint (p.showPubkey key) preTokenBalances postTokenBalances = none := by
  have hf : ∀ balances : Option (List UiTransactionTokenBalance), (balances.bind fun balances =>
      balances.find? fun b => toString b.accountIndex = p.showPubkey key) = none := by
    intro balances
    rw [Option.bind_eq_none_iff]
    intro balances _
    rw [List.find?_eq_none]
    intro b _
    rw [decide_eq_true_iff]
    exact toString_ne_showPubkey b.accountIndex key
  rw [findTokenMint]
  rw [hf, hf, Option.or_none, Option.map_none]

theorem eq_none_of_parseTransfer {accounts : List Pubkey} {amount : UInt64}
    (h : parseTransfer p ix accounts preTokenBalances postTokenBalances amount = .ok r) :
    r = none := by
  rw [parseTransfer] at h
  obtain ⟨i, -, h⟩ := bind_eq_ok.1 h
  obtain ⟨j, -, h⟩ := bind_eq_ok.1 h
  obtain ⟨fromAddress, hf, h⟩ := bind_eq_ok.1 h
  obtain ⟨toAddress, -, h⟩ := bind_eq_ok.1 h
  obtain ⟨key, -, rfl⟩ := map_eq_ok.1 hf
  rw [findTokenMint_eq_none] at h
  exact (Except.ok.inj h).symm

theorem isSome_of_parseTransferChecked {accounts : List Pubkey} {amount : UInt64} {decimals : UInt8}
    (h : parseTransferChecked p ix accounts amount decimals = .ok r) : r.isSome = true := by
  rw [parseTransferChecked] at h
  obtain ⟨i, -, h⟩ := bind_eq_ok.1 h
  obtain ⟨j, -, h⟩ := bind_eq_ok.1 h
  obtain ⟨k, -, h⟩ := bind_eq_ok.1 h
  obtain ⟨fromAddress, -, h⟩ := bind_eq_ok.1 h
  obtain ⟨toAddress, -, h⟩ := bind_eq_ok.1 h
  obtain ⟨mint, -, h⟩ := bind_eq_ok.1 h
  cases h
  rfl

variable (p message ix) in
/-- An instruction of the token program. -/
def OfTokenProgram : Prop :=
  message.accountKeys.1[ix.programIdIndex.toNat]? = some p.tokenProgramId

/-- An instruction of the token program is parsed by what it is. -/
theorem parseTokenTransfers_of {accounts : List Pubkey} (h : OfTokenProgram p message ix) :
    parseTokenTransfers p message ix accounts preTokenBalances postTokenBalances =
      match p.unpackToken ix.data.1 with
      | some (.transfer amount) =>
        parseTransfer p ix accounts preTokenBalances postTokenBalances amount
      | some (.transferChecked amount decimals) =>
        parseTransferChecked p ix accounts amount decimals
      | _ => .ok none := by
  have hid : isTokenProgram p p.tokenProgramId = true := decide_eq_true rfl
  rw [parseTokenTransfers, index_eq_ok.2 h]
  change (if isTokenProgram p p.tokenProgramId = true then _ else _) = _
  rw [if_pos hid]
  rfl

variable (p message ix) in
/-- A transfer that the parser finds. -/
def TransfersChecked : Prop :=
  OfTokenProgram p message ix ∧
    ∃ amount decimals, p.unpackToken ix.data.1 = some (.transferChecked amount decimals)

theorem isSome_parseTokenTransfers_iff {accounts : List Pubkey}
    (h : parseTokenTransfers p message ix accounts preTokenBalances postTokenBalances = .ok r) :
    r.isSome = true ↔ TransfersChecked p message ix := by
  rw [parseTokenTransfers] at h
  obtain ⟨programId, hp, h⟩ := bind_eq_ok.1 h
  rw [TransfersChecked, OfTokenProgram, index_eq_ok.1 hp, Option.some_inj]
  split at h
  · rename_i hid
    rw [isTokenProgram, decide_eq_true_iff] at hid
    split at h
    · -- No mint is found for a `Transfer`.
      rename_i amount hu
      rw [eq_none_of_parseTransfer h, hu]
      exact ⟨fun h => absurd h nofun, fun ⟨_, _, _, h⟩ => absurd h nofun⟩
    · rename_i amount decimals hu
      exact ⟨fun _ => ⟨hid, amount, decimals, hu⟩, fun _ => isSome_of_parseTransferChecked h⟩
    · rename_i hn
      cases h
      exact ⟨fun h => absurd h nofun, fun ⟨_, amount, decimals, h⟩ => absurd h (hn amount decimals)⟩
  · rename_i hid
    cases h
    exact ⟨fun h => absurd h nofun, fun ⟨h, _⟩ => absurd (decide_eq_true h) hid⟩

/-! ## Panics -/

/-- The number of its accounts that the parser asks for. -/
def TokenInstruction.transferAccounts : TokenInstruction → ℕ
  | transfer _ => 2
  | transferChecked _ _ => 3
  | _ => 0

variable (p message ix) in
/-- An instruction with the accounts that the parser asks for. -/
def HasTransferAccounts : Prop :=
  OfTokenProgram p message ix →
    ∀ t, p.unpackToken ix.data.1 = some t → t.transferAccounts ≤ ix.accounts.1.length

theorem exists_showPubkey_iff {l : List Pubkey} {i : ℕ} :
    (∃ text, p.showPubkey <$> index l i = .ok text) ↔ i < l.length := by
  rw [← exists_index_iff]
  constructor
  · rintro ⟨text, h⟩
    obtain ⟨key, hk, -⟩ := map_eq_ok.1 h
    exact ⟨key, hk⟩
  · rintro ⟨key, hk⟩
    exact ⟨p.showPubkey key, map_eq_ok.2 ⟨key, hk, rfl⟩⟩

theorem exists_parseInstruction {ix : CompiledInstruction}
    (h : ix.programIdIndex.toNat < message.accountKeys.1.length) :
    ∃ r, parseInstruction p ix message = .ok r := by
  obtain ⟨programId, hp⟩ := exists_showPubkey_iff.2 h
  exact exists_bind_iff.2 ⟨programId, hp, _, rfl⟩

/-- The loop over instructions gets through if they have their programs. -/
theorem exists_foldlM_add {ixs : List CompiledInstruction}
    (h : ∀ ix ∈ ixs, ix.programIdIndex.toNat < message.accountKeys.1.length) :
    ∃ found, ixs.foldlM (Findings.add p message) {} = .ok found := by
  have hadd : ∀ ix ∈ ixs, ∀ found, ∃ found', Findings.add p message found ix = .ok found' := by
    intro ix hi found
    obtain ⟨programId, hp⟩ := exists_showPubkey_iff.2 (h ix hi)
    exact exists_bind_iff.2 ⟨programId, hp, _, rfl⟩
  exact exists_foldlM hadd {}

theorem exists_categorizeTransaction (hs : message.Sanitized) :
    ∃ category, categorizeTransaction p message message.instructions.1 = .ok category := by
  obtain ⟨found, hf⟩ := exists_foldlM_add (p := p) hs.program
  exact exists_bind_iff.2 ⟨found, hf, _, rfl⟩

section Sanitized

variable {accounts : List Pubkey} (hs : ∀ i ∈ ix.accounts.1, i.toNat < accounts.length)

include hs

variable (p) in
theorem exists_address {i : ℕ} (h : i < ix.accounts.1.length) :
    ∃ j, index ix.accounts.1 i = .ok j ∧
      ∃ text, p.showPubkey <$> index accounts j.toNat = .ok text := by
  obtain ⟨j, hj⟩ := exists_index_iff.2 h
  exact ⟨j, hj, exists_showPubkey_iff.2 (hs j (mem_of_index hj))⟩

theorem exists_parseTransfer_iff {amount : UInt64} :
    (∃ r, parseTransfer p ix accounts preTokenBalances postTokenBalances amount = .ok r) ↔
      2 ≤ ix.accounts.1.length := by
  constructor
  · rintro ⟨r, h⟩
    rw [parseTransfer] at h
    obtain ⟨i, -, h⟩ := bind_eq_ok.1 h
    obtain ⟨j, hj, -⟩ := bind_eq_ok.1 h
    exact exists_index_iff.1 ⟨j, hj⟩
  · intro h
    obtain ⟨i, hi, fromAddress, hf⟩ := exists_address p hs (Nat.zero_lt_of_lt h)
    obtain ⟨j, hj, toAddress, ht⟩ := exists_address p hs h
    exact exists_bind_iff.2 ⟨i, hi, exists_bind_iff.2 ⟨j, hj, exists_bind_iff.2 ⟨fromAddress, hf,
      exists_bind_iff.2 ⟨toAddress, ht, _, rfl⟩⟩⟩⟩

theorem exists_parseTransferChecked_iff {amount : UInt64} {decimals : UInt8} :
    (∃ r, parseTransferChecked p ix accounts amount decimals = .ok r) ↔
      3 ≤ ix.accounts.1.length := by
  constructor
  · rintro ⟨r, h⟩
    rw [parseTransferChecked] at h
    obtain ⟨i, -, h⟩ := bind_eq_ok.1 h
    obtain ⟨j, -, h⟩ := bind_eq_ok.1 h
    obtain ⟨k, hk, -⟩ := bind_eq_ok.1 h
    exact exists_index_iff.1 ⟨k, hk⟩
  · intro h
    obtain ⟨i, hi, fromAddress, hf⟩ := exists_address p hs (Nat.zero_lt_of_lt h)
    obtain ⟨j, hj, mint, hm⟩ := exists_address p hs (Nat.lt_of_succ_lt h)
    obtain ⟨k, hk, toAddress, ht⟩ := exists_address p hs h
    exact exists_bind_iff.2 ⟨i, hi, exists_bind_iff.2 ⟨j, hj, exists_bind_iff.2 ⟨k, hk,
      exists_bind_iff.2 ⟨fromAddress, hf, exists_bind_iff.2 ⟨toAddress, ht,
        exists_bind_iff.2 ⟨mint, hm, _, rfl⟩⟩⟩⟩⟩⟩

end Sanitized

/-- The accounts that the parser asks for are all that it may panic about. -/
theorem exists_parseTokenTransfers_iff (hs : message.Sanitized) (hi : ix ∈ message.instructions.1) :
    (∃ r, parseTokenTransfers p message ix message.accountKeys.1 preTokenBalances
      postTokenBalances = .ok r) ↔ HasTransferAccounts p message ix := by
  obtain ⟨programId, hp⟩ := exists_index_iff.2 (hs.program ix hi)
  rw [parseTokenTransfers, hp, HasTransferAccounts, OfTokenProgram, index_eq_ok.1 hp,
    Option.some_inj]
  change (∃ r, (if isTokenProgram p programId = true then _ else _) = _) ↔ _
  split
  · rename_i hid
    rw [isTokenProgram, decide_eq_true_iff] at hid
    rw [imp_iff_right hid]
    split
    · rename_i amount hu
      rw [exists_parseTransfer_iff (hs.account ix hi), hu]
      simp only [Option.some_inj, forall_eq', TokenInstruction.transferAccounts]
    · rename_i amount decimals hu
      rw [exists_parseTransferChecked_iff (hs.account ix hi), hu]
      simp only [Option.some_inj, forall_eq', TokenInstruction.transferAccounts]
    · -- No account is asked of another instruction.
      rename_i ht htc
      refine ⟨fun _ t hu => ?_, fun _ => ⟨none, rfl⟩⟩
      cases t with
      | transfer amount => exact absurd hu (ht amount)
      | transferChecked amount decimals => exact absurd hu (htc amount decimals)
      | _ => exact Nat.zero_le _
  · rename_i hid
    exact ⟨fun _ h => absurd (decide_eq_true h) hid, fun _ => ⟨none, rfl⟩⟩

end Spec

end Sylph.Solana

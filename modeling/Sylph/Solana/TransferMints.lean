import Sylph.Solana.Indexing

/-!
# Transfers and the balances of their accounts

A `Transfer` of the token program does not name its mint, which is to be found in a balance of
the account it is from, before or after the transaction (`SourceMint`). The balances name that
account by its index, the parser by its address, and the two are never the same.

* `parseTokenTransfers_transfer`: the parser finds no transfer, whatever the balances.
* `yieldsTransfer_iff`: hence it understands a `Transfer` exactly where there is no balance of
  the account it is from, and no transfer to be found.
-/

namespace Sylph.Solana

open Lib Lib.Except Lib.Rust

/-- A key of the accounts of an instruction, by its position. -/
def AccountAt (ix : CompiledInstruction) (accounts : List Pubkey) (k : ℕ) (key : Pubkey) : Prop :=
  ∃ i, ix.accounts.1[k]? = some i ∧ accounts[i.toNat]? = some key

/-- One of the balances is of the first account of an instruction. -/
def HasSource (ix : CompiledInstruction) (balances : Option (List UiTransactionTokenBalance)) :
    Prop :=
  ∃ b ∈ balances.getD [], ix.accounts.1[0]? = some b.accountIndex

/-- The mint of a balance of the first account, of one before the transaction if there is
    one. -/
def SourceMint (ix : CompiledInstruction)
    (preTokenBalances postTokenBalances : Option (List UiTransactionTokenBalance))
    (mint : String) : Prop :=
  (∃ b ∈ preTokenBalances.getD [], ix.accounts.1[0]? = some b.accountIndex ∧ b.mint = mint) ∨
    ¬HasSource ix preTokenBalances ∧ ∃ b ∈ postTokenBalances.getD [],
      ix.accounts.1[0]? = some b.accountIndex ∧ b.mint = mint

/-- The result for a `Transfer` is the transfer it stands for, where there is a balance of the
    account it is from, and nothing only where there is none. -/
def YieldsTransfer (p : Packages) (ix : CompiledInstruction) (accounts : List Pubkey)
    (preTokenBalances postTokenBalances : Option (List UiTransactionTokenBalance))
    (amount : UInt64) (r : Except Panic (Option TokenTransferInfo)) : Prop :=
  (HasSource ix preTokenBalances ∨ HasSource ix postTokenBalances →
    ∃ source destination info, AccountAt ix accounts 0 source ∧
      AccountAt ix accounts 1 destination ∧ r = .ok (some info) ∧
      info.fromAddress = p.showPubkey source ∧ info.toAddress = p.showPubkey destination ∧
      info.amount = amount ∧ SourceMint ix preTokenBalances postTokenBalances info.mint) ∧
  (r = .ok none → ¬(HasSource ix preTokenBalances ∨ HasSource ix postTokenBalances))

variable {p : Packages} {message : Message} {ix : CompiledInstruction} {accounts : List Pubkey}
  {preTokenBalances postTokenBalances : Option (List UiTransactionTokenBalance)} {amount : UInt64}

/-- The parser finds no transfer for a `Transfer`. -/
theorem parseTokenTransfers_ne_some (hu : p.unpackToken ix.data.1 = some (.transfer amount))
    (info : TokenTransferInfo) :
    parseTokenTransfers p message ix accounts preTokenBalances postTokenBalances ≠
      .ok (some info) := by
  intro h
  obtain ⟨-, amount', decimals, hu'⟩ := (isSome_parseTokenTransfers_iff h).1 rfl
  rw [hu] at hu'
  exact absurd hu' nofun

/-- For a `Transfer` with its accounts, it returns nothing. -/
theorem parseTokenTransfers_transfer (ho : OfTokenProgram p message ix)
    (hu : p.unpackToken ix.data.1 = some (.transfer amount))
    (hs : ∀ i ∈ ix.accounts.1, i.toNat < accounts.length) (hl : 2 ≤ ix.accounts.1.length) :
    parseTokenTransfers p message ix accounts preTokenBalances postTokenBalances = .ok none := by
  obtain ⟨r, hr⟩ := (exists_parseTransfer_iff (p := p) hs).2 hl
  obtain rfl := eq_none_of_parseTransfer hr
  rw [parseTokenTransfers_of ho, hu]
  exact hr

/-- The result for a `Transfer` is as it should be if and only if there is no transfer to be
    found: no balance of the account it is from. -/
theorem yieldsTransfer_iff (p : Packages) (message : Message) (ix : CompiledInstruction)
    (accounts : List Pubkey)
    (preTokenBalances postTokenBalances : Option (List UiTransactionTokenBalance))
    (amount : UInt64) (hu : p.unpackToken ix.data.1 = some (.transfer amount)) :
    YieldsTransfer p ix accounts preTokenBalances postTokenBalances amount
      (parseTokenTransfers p message ix accounts preTokenBalances postTokenBalances) ↔
      ¬(HasSource ix preTokenBalances ∨ HasSource ix postTokenBalances) := by
  constructor
  · rintro ⟨hs, -⟩ hb
    obtain ⟨source, destination, info, -, -, hr, -⟩ := hs hb
    exact parseTokenTransfers_ne_some hu info hr
  · exact fun hb => ⟨fun h => absurd h hb, fun _ => hb⟩

/-- A `Transfer` from the second account of its message to the third. -/
def plainInstruction : CompiledInstruction :=
  ⟨4, ⟨[1, 2, 0], by decide⟩, ⟨[3, 2, 0, 0, 0, 0, 0, 0, 0], by decide⟩⟩

/-- A transfer in a transaction without balances. -/
def plainTransfer : EnrichedTransaction UiTransactionStatusMeta :=
  tokenTransaction none plainInstruction.accounts plainInstruction.data

/-- A balance of the account it is from. -/
def sourceBalance : UiTransactionTokenBalance where
  accountIndex := 1
  mint := base58 (List.replicate 32 9)
  uiTokenAmount := ⟨6, "1"⟩

/-- A balance of the account it is to. -/
def destinationBalance : UiTransactionTokenBalance :=
  { sourceBalance with accountIndex := 2 }

theorem yieldsTransfer_iff_plain :
    YieldsTransfer .reference plainInstruction
      plainTransfer.transaction.message.accountKeys.1 (some [destinationBalance])
      (some [destinationBalance, sourceBalance]) 2
      (parseTokenTransfers .reference plainTransfer.transaction.message plainInstruction
        plainTransfer.transaction.message.accountKeys.1 (some [destinationBalance])
        (some [destinationBalance, sourceBalance])) ↔
      ¬(HasSource plainInstruction (some [destinationBalance]) ∨
        HasSource plainInstruction (some [destinationBalance, sourceBalance])) :=
  yieldsTransfer_iff _ _ _ _ _ _ 2 rfl

/-- With the balance of the account, the transfer is not found. -/
theorem not_forall_yieldsTransfer : ¬∀ (p : Packages) (message : Message)
    (ix : CompiledInstruction)
    (preTokenBalances postTokenBalances : Option (List UiTransactionTokenBalance))
    (amount : UInt64), message.Sanitized → ix ∈ message.instructions.1 →
      OfTokenProgram p message ix → p.unpackToken ix.data.1 = some (.transfer amount) →
      2 ≤ ix.accounts.1.length →
      YieldsTransfer p ix message.accountKeys.1 preTokenBalances postTokenBalances amount
        (parseTokenTransfers p message ix message.accountKeys.1 preTokenBalances
          postTokenBalances) := by
  intro h
  have hs : plainTransfer.transaction.message.Sanitized := sanitized_tokenTransaction rfl
  have hy := h .reference plainTransfer.transaction.message plainInstruction
    (some [sourceBalance]) (some [sourceBalance]) 2 hs (List.mem_singleton_self _)
    ofTokenProgram_tokenTransaction rfl (by decide)
  have hb : HasSource plainInstruction (some [sourceBalance]) :=
    ⟨sourceBalance, List.mem_singleton_self _, rfl⟩
  obtain ⟨source, destination, info, -, -, hr, -⟩ := hy.1 (.inl hb)
  exact parseTokenTransfers_ne_some rfl info hr

end Sylph.Solana

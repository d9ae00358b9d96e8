import Sylph.Solana.Base58
import Sylph.Solana.Service

/-!
# What is indexed of a block

* `convertBlockData_iff`: the service panics about a block of sanitized transactions
  exactly if there is a transfer in it without the accounts that the parser asks for. A
  transaction that failed may well have one.
* `executed_iff`: the transfers that are indexed have been executed exactly if there is no
  `TransferChecked` in the transactions that failed, as these are searched for transfers
  like the others.
-/

namespace Sylph.Solana

/-! ## The packages -/

/-- Eight bytes, the lowest first. -/
def readU64 (bytes : List UInt8) : Option UInt64 :=
  if 8 ≤ bytes.length then
    some (.ofNat ((bytes.take 8).foldr (fun b n => b.toNat + 2 ^ 8 * n) 0))
  else
    none

/-- Packages that do what is documented of those in use, for the instructions that the
    parser takes notice of. -/
def Packages.reference : Packages where
  showPubkey key := base58 key.1
  le_length_showPubkey key := le_trans (Nat.le_of_eq key.2.symm) (le_length_base58 key.1)
  tokenProgramId := ⟨[6, 221, 246, 225, 215, 101, 161, 147, 217, 203, 225, 70, 206, 235, 121, 172,
    28, 180, 133, 237, 95, 91, 55, 145, 58, 140, 245, 133, 126, 255, 0, 169], rfl⟩
  showPubkey_tokenProgramId := by decide
  deserializeSystem
    | 0 :: 0 :: 0 :: 0 :: data => do
      let lamports ← readU64 data
      let space ← readU64 (data.drop 8)
      if h : ((data.drop 16).take 32).length = 32 then
        some (.createAccount lamports space ⟨(data.drop 16).take 32, h⟩)
      else
        none
    | 2 :: 0 :: 0 :: 0 :: data => (readU64 data).map .transfer
    | _ => none
  unpackToken
    | 3 :: data => (readU64 data).map .transfer
    | 7 :: data => (readU64 data).map .mintTo
    | 8 :: data => (readU64 data).map .burn
    | 12 :: data => do
      let amount ← readU64 data
      let decimals ← data[8]?
      some (.transferChecked amount decimals)
    | _ => none
  isSigner m i := i < m.header.numRequiredSignatures.toNat
  isMaybeWritable m i :=
    let signatures := m.header.numRequiredSignatures.toNat
    let signed := signatures - m.header.numReadonlySignedAccounts.toNat
    let unsigned := m.accountKeys.1.length - m.header.numReadonlyUnsignedAccounts.toNat
    (i < signed || (signatures ≤ i && i < unsigned)) &&
      !m.instructions.1.any fun ix => ix.programIdIndex.toNat = i

/-! ## Blocks -/

/-- A transaction with one instruction of the token program. -/
def tokenTransaction (error : Option String) (accounts data : ShortVec UInt8) :
    EnrichedTransaction UiTransactionStatusMeta where
  signature := base58 (List.replicate 64 2)
  slot := 1
  error := error
  statusMeta := some {
    err := error
    fee := 5000
    preBalances := [10000, 1, 1, 1, 1]
    postBalances := [5000, 1, 1, 1, 1]
    preTokenBalances := .none
    postTokenBalances := .none
    computeUnitsConsumed := .some 150 }
  transaction := {
    signatures := ⟨[⟨List.replicate 64 2, rfl⟩], by decide⟩
    message := {
      header := ⟨1, 0, 1⟩
      accountKeys := ⟨[⟨List.replicate 32 1, rfl⟩, ⟨List.replicate 32 2, rfl⟩,
        ⟨List.replicate 32 3, rfl⟩, ⟨List.replicate 32 4, rfl⟩, Packages.reference.tokenProgramId],
          by decide⟩
      recentBlockhash := ⟨List.replicate 32 5, rfl⟩
      instructions := ⟨[⟨4, accounts, data⟩], Nat.one_lt_two_pow (Nat.succ_ne_zero 15)⟩ } }

/-- A block with a single transaction, for tests. -/
def singletonBlock (tx : EnrichedTransaction UiTransactionStatusMeta) : RpcBlock where
  slot := 1
  blockhash := base58 (List.replicate 32 6)
  parentSlot := 0
  timestamp := 0
  previousBlockhash := base58 (List.replicate 32 7)
  leader := base58 (List.replicate 32 8)
  leaderReward := none
  totalComputeUnits := 150
  totalFee := 5000
  transactions := [tx]

/-- A `Transfer` without accounts. -/
def transferWithoutAccounts : EnrichedTransaction UiTransactionStatusMeta :=
  tokenTransaction
    (some "Error processing Instruction 0: insufficient account keys for instruction")
    ⟨[], by decide⟩ ⟨[3, 1, 0, 0, 0, 0, 0, 0, 0], by decide⟩

/-- A `TransferChecked` that failed, or that did not. -/
def checkedTransfer (error : Option String) : EnrichedTransaction UiTransactionStatusMeta :=
  tokenTransaction error ⟨[1, 2, 3, 0], by decide⟩ ⟨[12, 1, 0, 0, 0, 0, 0, 0, 0, 6], by decide⟩

theorem sanitized_tokenTransaction {error : Option String} {accounts data : ShortVec UInt8}
    (h : accounts.1.all (fun i => i.toNat < 5) = true) :
    (tokenTransaction error accounts data).transaction.message.Sanitized where
  program ix hi := by
    cases List.mem_singleton.1 hi
    exact Nat.lt_succ_self 4
  account ix hi i ha := by
    cases List.mem_singleton.1 hi
    exact of_decide_eq_true (List.all_eq_true.1 h i ha)

theorem ofTokenProgram_tokenTransaction {error : Option String} {accounts data : ShortVec UInt8} :
    OfTokenProgram .reference (tokenTransaction error accounts data).transaction.message
      ⟨4, accounts, data⟩ := rfl

theorem sanitized_transferWithoutAccounts :
    transferWithoutAccounts.transaction.message.Sanitized := sanitized_tokenTransaction rfl

theorem sanitized_checkedTransfer (error : Option String) :
    (checkedTransfer error).transaction.message.Sanitized :=
  sanitized_tokenTransaction rfl

theorem hasTransferAccounts_checkedTransfer (error : Option String) :
    ∀ ix ∈ (checkedTransfer error).transaction.message.instructions.1,
      HasTransferAccounts .reference (checkedTransfer error).transaction.message ix := by
  intro ix hi
  cases List.mem_singleton.1 hi
  intro _ t ht
  cases ht
  exact Nat.le_succ 3

/-- The block of a transfer that has the accounts is converted. -/
theorem exists_convertBlockData_checkedTransfer (error : Option String) :
    ∃ data, convertBlockData .reference (singletonBlock (checkedTransfer error)) = .ok data := by
  refine exists_convertBlockData_iff.2 fun tx htx => ?_
  rw [List.mem_singleton.1 htx]
  exact (exists_convertRecords_iff (sanitized_checkedTransfer error)).2
    (hasTransferAccounts_checkedTransfer error)

theorem not_hasTransferAccounts_transferWithoutAccounts :
    ¬HasTransferAccounts .reference transferWithoutAccounts.transaction.message
      ⟨4, ⟨[], by decide⟩, ⟨[3, 1, 0, 0, 0, 0, 0, 0, 0], by decide⟩⟩ := by
  intro hacc
  have hu : Packages.reference.unpackToken [3, 1, 0, 0, 0, 0, 0, 0, 0] = some (.transfer 1) := rfl
  exact absurd (hacc ofTokenProgram_tokenTransaction (.transfer 1) hu) (Nat.not_succ_le_zero 1)

theorem transfersTokens_checkedTransfer (error : Option String) :
    TransfersTokens .reference (checkedTransfer error) :=
  ⟨_, List.mem_singleton_self _, ofTokenProgram_tokenTransaction, 1, 6, rfl⟩

/-- A transaction with a transfer of lamports, and then a `TransferChecked`. -/
def paidTransfer : EnrichedTransaction UiTransactionStatusMeta where
  signature := base58 (List.replicate 64 3)
  slot := 1
  error := none
  statusMeta := some {
    err := none
    fee := 7000
    preBalances := [20000, 1, 1, 1, 1, 1]
    postBalances := [12998, 3, 1, 1, 1, 1]
    preTokenBalances := .none
    postTokenBalances := .none
    computeUnitsConsumed := .some 300 }
  transaction := {
    signatures := ⟨[⟨List.replicate 64 3, rfl⟩], by decide⟩
    message := {
      header := ⟨1, 0, 2⟩
      accountKeys := ⟨[⟨List.replicate 32 1, rfl⟩, ⟨List.replicate 32 2, rfl⟩,
        ⟨List.replicate 32 3, rfl⟩, ⟨List.replicate 32 4, rfl⟩, Packages.reference.tokenProgramId,
          ⟨0 :: List.replicate 31 0, rfl⟩], by decide⟩
      recentBlockhash := ⟨List.replicate 32 5, rfl⟩
      instructions := ⟨[
        ⟨5, ⟨[0, 1], by decide⟩, ⟨[2, 0, 0, 0, 2, 0, 0, 0, 0, 0, 0, 0], by decide⟩⟩,
        ⟨4, ⟨[1, 2, 3, 0], by decide⟩, ⟨[12, 1, 0, 0, 0, 0, 0, 0, 0, 6], by decide⟩⟩],
          by decide⟩ } }

theorem sanitized_paidTransfer : paidTransfer.transaction.message.Sanitized where
  program ix hi := by
    rcases List.mem_pair.1 hi with rfl | rfl
    · exact Nat.lt_succ_self 5
    · exact Nat.lt_succ_of_lt (Nat.lt_succ_self 4)
  account ix hi i ha := by
    have hall : ∀ l : List UInt8, l.all (fun i => i.toNat < 6) = true → i ∈ l → i.toNat < 6 :=
      fun l h hm => of_decide_eq_true (List.all_eq_true.1 h i hm)
    rcases List.mem_pair.1 hi with rfl | rfl
    · exact hall [0, 1] rfl ha
    · exact hall [1, 2, 3, 0] rfl ha

theorem hasTransferAccounts_paidTransfer :
    ∀ ix ∈ paidTransfer.transaction.message.instructions.1,
      HasTransferAccounts .reference paidTransfer.transaction.message ix := by
  intro ix hi ho t ht
  rcases List.mem_pair.1 hi with rfl | rfl
  · -- The first instruction is one of the system program.
    cases ho
  · cases ht
    exact Nat.le_succ 3

/-- A block with both transfers. -/
def pairBlock : RpcBlock :=
  { singletonBlock (checkedTransfer none) with
    totalComputeUnits := 450
    totalFee := 12000
    transactions := [checkedTransfer none, paidTransfer] }

theorem sanitized_pairBlock :
    ∀ tx ∈ pairBlock.transactions, tx.transaction.message.Sanitized := by
  intro tx htx
  rcases List.mem_pair.1 htx with rfl | rfl
  · exact sanitized_checkedTransfer none
  · exact sanitized_paidTransfer

theorem hasTransferAccounts_pairBlock : ∀ tx ∈ pairBlock.transactions,
    ∀ ix ∈ tx.transaction.message.instructions.1,
      HasTransferAccounts .reference tx.transaction.message ix := by
  intro tx htx
  rcases List.mem_pair.1 htx with rfl | rfl
  · exact hasTransferAccounts_checkedTransfer none
  · exact hasTransferAccounts_paidTransfer

/-- The block of both is converted. -/
theorem exists_convertBlockData_pairBlock :
    ∃ data, convertBlockData .reference pairBlock = .ok data :=
  exists_convertBlockData_iff.2 fun tx htx =>
    (exists_convertRecords_iff (sanitized_pairBlock tx htx)).2
      (hasTransferAccounts_pairBlock tx htx)

/-! ## Panics -/

/-- A block of sanitized transactions is converted exactly if the transfers of the token
    program have the accounts that the parser asks for. -/
theorem convertBlockData_iff (p : Packages) (block : RpcBlock)
    (hs : ∀ tx ∈ block.transactions, tx.transaction.message.Sanitized) :
    (∃ data, convertBlockData p block = .ok data) ↔ ∀ tx ∈ block.transactions,
      ∀ ix ∈ tx.transaction.message.instructions.1,
        HasTransferAccounts p tx.transaction.message ix := by
  rw [exists_convertBlockData_iff]
  exact forall₂_congr fun tx htx => exists_convertRecords_iff (hs tx htx)

theorem convertBlockData_checkedTransfer :
    ∃ data, convertBlockData .reference (singletonBlock (checkedTransfer none)) = .ok data := by
  refine (convertBlockData_iff _ _ fun tx htx => ?_).2 fun tx htx => ?_
  · rw [List.mem_singleton.1 htx]
    exact sanitized_checkedTransfer none
  · rw [List.mem_singleton.1 htx]
    exact hasTransferAccounts_checkedTransfer none

/-- The service panics about a `Transfer` without accounts. -/
theorem not_forall_convertBlockData : ¬∀ (p : Packages) (block : RpcBlock),
    (∀ tx ∈ block.transactions, tx.transaction.message.Sanitized) →
      ∃ data, convertBlockData p block = .ok data := by
  intro h
  have hs := sanitized_transferWithoutAccounts
  have hall := exists_convertBlockData_iff.1 (h .reference (singletonBlock transferWithoutAccounts)
    fun tx htx => by rw [List.mem_singleton.1 htx]; exact hs)
  have hr := hall _ (List.mem_singleton_self _)
  exact not_hasTransferAccounts_transferWithoutAccounts
    ((exists_convertRecords_iff hs).1 hr _ (List.mem_singleton_self _))

/-! ## Transactions that failed -/

/-- The transfers that are indexed have signatures of transactions that succeeded, exactly
    if the failed transactions with a transfer that the parser finds have. -/
theorem executed_iff {p : Packages} {block : RpcBlock} {data : Proto.Solana.BlockData}
    (h : convertBlockData p block = .ok data) :
    (∀ t ∈ data.tokenTransfers, ∃ r ∈ data.transactions,
      r.signature = t.transactionSignature ∧ r.success = true) ↔
      ∀ tx ∈ block.transactions, tx.error ≠ none → TransfersTokens p tx →
        ∃ tx' ∈ block.transactions, tx'.signature = tx.signature ∧ tx'.error = none := by
  simp only [exists_success_iff h]
  constructor
  · intro hall tx htx _ htr
    obtain ⟨t, ht, hsig⟩ := (exists_transfer_iff h).2 ⟨tx, htx, htr, rfl⟩
    rw [← hsig]
    exact hall t ht
  · intro hall t ht
    obtain ⟨tx, htx, htr, hsig⟩ := (exists_transfer_iff h).1 ⟨t, ht, rfl⟩
    rw [← hsig]
    by_cases he : tx.error = none
    · exact ⟨tx, htx, rfl, he⟩
    · exact hall tx htx he htr

theorem executed_checkedTransfer : ∃ data,
    convertBlockData .reference (singletonBlock (checkedTransfer none)) = .ok data ∧
      ∀ t ∈ data.tokenTransfers, ∃ r ∈ data.transactions,
        r.signature = t.transactionSignature ∧ r.success = true := by
  obtain ⟨data, h⟩ := exists_convertBlockData_checkedTransfer none
  refine ⟨data, h, (executed_iff h).2 fun tx htx he => ?_⟩
  cases List.mem_singleton.1 htx
  exact absurd rfl he

/-- A transfer that failed is indexed. -/
theorem not_forall_executed : ¬∀ (p : Packages) (block : RpcBlock) (data : Proto.Solana.BlockData),
    convertBlockData p block = .ok data → ∀ t ∈ data.tokenTransfers, ∃ r ∈ data.transactions,
      r.signature = t.transactionSignature ∧ r.success = true := by
  intro h
  let error := "Error processing Instruction 0: custom program error: 0x1"
  obtain ⟨data, hd⟩ := exists_convertBlockData_checkedTransfer (some error)
  obtain ⟨t, ht, -⟩ := (exists_transfer_iff hd).2 ⟨_, List.mem_singleton_self _,
    transfersTokens_checkedTransfer (some error), rfl⟩
  obtain ⟨tx, htx, -, he⟩ := (exists_success_iff hd).1 (h _ _ data hd t ht)
  cases List.mem_singleton.1 htx
  exact absurd he (Option.some_ne_none error)

end Sylph.Solana

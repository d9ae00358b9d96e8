import Mathlib.Data.List.ReduceOption
import Sylph.Proto.Solana
import Sylph.Solana.Client
import Sylph.Solana.Parser

/-!
# The service of a Solana chain

What the service makes of a block of the node (`convertBlockData`): a record of the block,
and for every transaction a record of it, of each of its instructions, and of the transfers
of tokens that these stand for. The result is never an error, but the service may panic.

* Sanitized transactions are converted if all transfers among their instructions have the
  accounts the parser asks for (`exists_convertRecords_iff`).
* The records of the transactions and those of the transfers are made independently
  (`exists_success_iff`, `exists_transfer_iff`).
-/

namespace Sylph.Solana

open Lib Lib.Except Lib.Rust

/-! ## Texts -/

/-- `{:?}` -/
def SystemProgramType.debug : SystemProgramType → String
  | createAccount => "CreateAccount"
  | transfer => "Transfer"
  | assign => "Assign"
  | other => "Other"

/-- `{:?}` -/
def TokenProgramType.debug : TokenProgramType → String
  | transfer => "Transfer"
  | mintTo => "MintTo"
  | burn => "Burn"
  | createAccount => "CreateAccount"
  | other => "Other"

/-- `{:?}` -/
def DexProgramType.debug : DexProgramType → String
  | serumNewOrder => "SerumNewOrder"
  | serumMatchOrder => "SerumMatchOrder"
  | serumCancelOrder => "SerumCancelOrder"
  | raydiumSwap => "RaydiumSwap"
  | raydiumAddLiquidity => "RaydiumAddLiquidity"
  | raydiumRemoveLiquidity => "RaydiumRemoveLiquidity"
  | jupiterSwap => "JupiterSwap"
  | other => "Other"

/-- `{:?}` -/
def NFTProgramType.debug : NFTProgramType → String
  | mint => "Mint"
  | transfer => "Transfer"
  | list => "List"
  | other => "Other"

/-- The category in the record of a transaction. -/
def TransactionCategory.text : TransactionCategory → String
  | systemProgram t => "System_" ++ t.debug
  | tokenProgram t => "Token_" ++ t.debug
  | dexProgram t => "Dex_" ++ t.debug
  | nftProgram t => "NFT_" ++ t.debug
  | unknown => "Unknown"

/-- The type in the record of a transfer. -/
def TokenType.text : TokenType → String
  | spl => "SPL"
  | nft => "NFT"

section Service

variable (p : Packages)

/-! ## Records -/

/-- The record of a block; the numbers are converted with `as i64`. -/
def blockRecord (block : RpcBlock) : Proto.Solana.Block where
  slot := block.slot.toInt64
  blockhash := block.blockhash
  parentSlot := block.parentSlot.toInt64
  timestamp := block.timestamp
  previousBlockhash := block.previousBlockhash
  leader := block.leader
  leaderReward := match block.leaderReward with
    | some reward => reward.toInt64
    | none => 0
  totalComputeUnits := block.totalComputeUnits.toInt64
  totalFee := toString block.totalFee

/-- The compute units, none if the metadata is missing. -/
def computeUnitsConsumed (statusMeta : Option UiTransactionStatusMeta) : Int64 :=
  ((statusMeta.bind fun m => m.computeUnitsConsumed.toOption).getD 0).toInt64

/-- Nothing is counted for a transaction without metadata. -/
def writeAccountCount (tx : EnrichedTransaction UiTransactionStatusMeta) : Int32 :=
  match tx.statusMeta with
  | some m =>
    let message := tx.transaction.message
    let writableAccounts :=
      (List.range message.accountKeys.1.length).countP (p.isMaybeWritable message)
    let createdAccounts := m.postBalances.length - m.preBalances.length
    let tokenAccounts := (m.postTokenBalances.toOption.map List.length).getD 0
    .ofNat (writableAccounts + createdAccounts + tokenAccounts)
  | none => 0

/-- How many accounts are read only. -/
def readAccountCount (message : Message) : Int32 :=
  .ofNat ((List.range message.accountKeys.1.length).countP fun i => !p.isMaybeWritable message i)

/-- The record of a transaction. -/
def transactionRecord (tx : EnrichedTransaction UiTransactionStatusMeta)
    (category : TransactionCategory) : Proto.Solana.Transaction where
  signature := tx.signature
  success := tx.error.isNone
  fee := match tx.statusMeta with
    | some m => toString m.fee
    | none => "0"
  computeUnitsConsumed := computeUnitsConsumed tx.statusMeta
  transactionCategory := category.text
  programCount := .ofNat tx.transaction.message.instructions.1.length
  writeAccountCount := writeAccountCount p tx
  readAccountCount := readAccountCount p tx.transaction.message

/-- The body of the loop over the accounts of an instruction. -/
def convertAccount (message : Message) (account : UInt8 × ℕ) :
    Except Panic Proto.Solana.InstructionAccount := do
  let accountKey ← index message.accountKeys.1 account.1.toNat
  return {
    address := p.showPubkey accountKey
    isSigner := p.isSigner message account.1.toNat
    isWritable := p.isMaybeWritable message account.1.toNat
    orderIndex := .ofNat account.2 }

/-- The body of the loop over the instructions. -/
def convertInstruction (message : Message) (instruction : CompiledInstruction × ℕ) :
    Except Panic Proto.Solana.Instruction := do
  let ix := instruction.1
  let programId ← p.showPubkey <$> index message.accountKeys.1 ix.programIdIndex.toNat
  let accounts ← ix.accounts.1.zipIdx.mapM (convertAccount p message)
  let (instructionType, parsedData) ← parseInstruction p ix message
  return {
    programId := programId
    data := ix.data.1
    orderIndex := .ofNat instruction.2
    instructionType := instructionType
    parsedData := parsedData
    accounts := accounts }

/-- The record of a transfer. -/
def tokenTransferRecord (signature : String) (info : TokenTransferInfo) :
    Proto.Solana.TokenTransfer where
  fromAddress := info.fromAddress
  toAddress := info.toAddress
  amount := toString info.amount
  tokenType := info.tokenType.text
  tokenMint := info.mint
  transactionSignature := signature

/-- The transfer that an instruction of the transaction stands for. -/
def parseTransfersOf (tx : EnrichedTransaction UiTransactionStatusMeta) (ix : CompiledInstruction) :
    Except Panic (Option TokenTransferInfo) :=
  let message := tx.transaction.message
  parseTokenTransfers p message ix message.accountKeys.1
    (tx.statusMeta.map fun m => m.preTokenBalances.toOption.getD [])
    (tx.statusMeta.map fun m => m.postTokenBalances.toOption.getD [])

/-- The records that a transaction adds to those of the block. -/
structure TransactionRecords where
  transaction : Proto.Solana.Transaction
  instructions : List Proto.Solana.Instruction
  tokenTransfers : List Proto.Solana.TokenTransfer

/-- The body of the loop over the transactions. -/
def convertRecords (tx : EnrichedTransaction UiTransactionStatusMeta) :
    Except Panic TransactionRecords := do
  let message := tx.transaction.message
  let category ← categorizeTransaction p message message.instructions.1
  let instructions ← message.instructions.1.zipIdx.mapM (convertInstruction p message)
  let transfers ← message.instructions.1.mapM (parseTransfersOf p tx)
  return {
    transaction := transactionRecord p tx category
    instructions := instructions
    tokenTransfers := transfers.reduceOption.map (tokenTransferRecord tx.signature) }

/-- The records of a block: those of its transactions, in their order. -/
def convertBlockData (block : RpcBlock) : Except Panic Proto.Solana.BlockData := do
  let records ← block.transactions.mapM (convertRecords p)
  return {
    block := some (blockRecord block)
    transactions := records.map (·.transaction)
    instructions := records.flatMap (·.instructions)
    tokenTransfers := records.flatMap (·.tokenTransfers) }

end Service

section Spec

variable {p : Packages} {message : Message} {tx : EnrichedTransaction UiTransactionStatusMeta}
  {block : RpcBlock} {data : Proto.Solana.BlockData}

/-! ## Panics -/

theorem exists_convertInstruction (hs : message.Sanitized) {ix : CompiledInstruction}
    (hi : ix ∈ message.instructions.1) (n : ℕ) :
    ∃ r, convertInstruction p message (ix, n) = .ok r := by
  have hacc : ∀ account ∈ ix.accounts.1.zipIdx, ∃ r, convertAccount p message account = .ok r := by
    intro account ha
    have hlt := hs.account ix hi account.1 (List.fst_mem_of_mem_zipIdx ha)
    obtain ⟨key, hk⟩ := exists_index_iff.2 hlt
    exact exists_bind_iff.2 ⟨key, hk, _, rfl⟩
  obtain ⟨programId, hp⟩ := exists_showPubkey_iff.2 (hs.program ix hi)
  obtain ⟨accounts, ha⟩ := exists_mapM_iff.2 hacc
  obtain ⟨parsed, hr⟩ := exists_parseInstruction (p := p) (hs.program ix hi)
  exact exists_bind_iff.2 ⟨programId, hp, exists_bind_iff.2 ⟨accounts, ha,
    exists_bind_iff.2 ⟨parsed, hr, _, rfl⟩⟩⟩

theorem convertRecords_eq_ok {r : TransactionRecords} : convertRecords p tx = .ok r ↔
    ∃ category instructions transfers,
      categorizeTransaction p tx.transaction.message tx.transaction.message.instructions.1 =
        .ok category ∧
      tx.transaction.message.instructions.1.zipIdx.mapM
        (convertInstruction p tx.transaction.message) = .ok instructions ∧
      tx.transaction.message.instructions.1.mapM (parseTransfersOf p tx) = .ok transfers ∧
      r = ⟨transactionRecord p tx category, instructions,
        transfers.reduceOption.map (tokenTransferRecord tx.signature)⟩ := by
  constructor
  · intro h
    obtain ⟨category, hc, h⟩ := bind_eq_ok.1 h
    obtain ⟨instructions, hi, h⟩ := bind_eq_ok.1 h
    obtain ⟨transfers, ht, h⟩ := bind_eq_ok.1 h
    exact ⟨category, instructions, transfers, hc, hi, ht, (Except.ok.inj h).symm⟩
  · rintro ⟨category, instructions, transfers, hc, hi, ht, rfl⟩
    exact bind_eq_ok.2 ⟨category, hc, bind_eq_ok.2 ⟨instructions, hi,
      bind_eq_ok.2 ⟨transfers, ht, rfl⟩⟩⟩

theorem exists_convertRecords_iff (hs : tx.transaction.message.Sanitized) :
    (∃ r, convertRecords p tx = .ok r) ↔ ∀ ix ∈ tx.transaction.message.instructions.1,
      HasTransferAccounts p tx.transaction.message ix := by
  have htr : (∃ transfers, tx.transaction.message.instructions.1.mapM (parseTransfersOf p tx) =
      .ok transfers) ↔ ∀ ix ∈ tx.transaction.message.instructions.1,
        HasTransferAccounts p tx.transaction.message ix := by
    rw [exists_mapM_iff]
    exact forall₂_congr fun ix hi => exists_parseTokenTransfers_iff hs hi
  rw [← htr]
  constructor
  · rintro ⟨r, h⟩
    obtain ⟨_, _, transfers, -, -, ht, -⟩ := convertRecords_eq_ok.1 h
    exact ⟨transfers, ht⟩
  · rintro ⟨transfers, ht⟩
    obtain ⟨category, hc⟩ := exists_categorizeTransaction (p := p) hs
    obtain ⟨instructions, hi⟩ := exists_mapM_iff.2 fun ix hi =>
      exists_convertInstruction (p := p) hs (List.fst_mem_of_mem_zipIdx hi) ix.2
    exact ⟨_, convertRecords_eq_ok.2 ⟨category, instructions, transfers, hc, hi, ht, rfl⟩⟩

theorem convertBlockData_eq_ok : convertBlockData p block = .ok data ↔
    ∃ records, block.transactions.mapM (convertRecords p) = .ok records ∧
      data = ⟨some (blockRecord block), records.map (·.transaction),
        records.flatMap (·.instructions), records.flatMap (·.tokenTransfers)⟩ := by
  constructor
  · intro h
    obtain ⟨records, hr, h⟩ := bind_eq_ok.1 h
    exact ⟨records, hr, (Except.ok.inj h).symm⟩
  · rintro ⟨records, hr, rfl⟩
    exact bind_eq_ok.2 ⟨records, hr, rfl⟩

theorem exists_convertBlockData_iff :
    (∃ data, convertBlockData p block = .ok data) ↔
      ∀ tx ∈ block.transactions, ∃ r, convertRecords p tx = .ok r := by
  rw [← exists_mapM_iff]
  constructor
  · rintro ⟨data, h⟩
    obtain ⟨records, hr, -⟩ := convertBlockData_eq_ok.1 h
    exact ⟨records, hr⟩
  · rintro ⟨records, hr⟩
    exact ⟨_, convertBlockData_eq_ok.2 ⟨records, hr, rfl⟩⟩

/-! ## Success and transfers -/

theorem signature_of_convertRecords {r : TransactionRecords} (h : convertRecords p tx = .ok r) :
    r.transaction.signature = tx.signature ∧ r.transaction.success = tx.error.isNone := by
  obtain ⟨_, _, _, -, -, -, rfl⟩ := convertRecords_eq_ok.1 h
  exact ⟨rfl, rfl⟩

variable (p tx) in
/-- A transaction that the parser finds a transfer in. -/
def TransfersTokens : Prop :=
  ∃ ix ∈ tx.transaction.message.instructions.1, TransfersChecked p tx.transaction.message ix

theorem exists_mem_tokenTransfers_iff {r : TransactionRecords} (h : convertRecords p tx = .ok r)
    {signature : String} : (∃ t ∈ r.tokenTransfers, t.transactionSignature = signature) ↔
      TransfersTokens p tx ∧ tx.signature = signature := by
  obtain ⟨_, _, transfers, -, -, ht, rfl⟩ := convertRecords_eq_ok.1 h
  constructor
  · rintro ⟨t, hm, rfl⟩
    obtain ⟨info, hinfo, rfl⟩ := List.mem_map.1 hm
    obtain ⟨ix, hi, hix⟩ := (mem_of_mapM ht).1 (List.reduceOption_mem_iff.1 hinfo)
    exact ⟨⟨ix, hi, (isSome_parseTokenTransfers_iff hix).1 rfl⟩, rfl⟩
  · rintro ⟨⟨ix, hi, hix⟩, rfl⟩
    obtain ⟨info, hinfo⟩ := exists_mapM_iff.1 ⟨transfers, ht⟩ ix hi
    obtain ⟨info, rfl⟩ := Option.isSome_iff_exists.1 ((isSome_parseTokenTransfers_iff hinfo).2 hix)
    have hm := List.reduceOption_mem_iff.2 ((mem_of_mapM ht).2 ⟨ix, hi, hinfo⟩)
    exact ⟨_, List.mem_map_of_mem hm, rfl⟩

section BlockData

variable (h : convertBlockData p block = .ok data) {signature : String}

include h

/-- The records of a block are those of its transactions. -/
theorem exists_records : ∃ records : List TransactionRecords,
    (∀ r, r ∈ records ↔ ∃ tx ∈ block.transactions, convertRecords p tx = .ok r) ∧
      data.transactions = records.map (·.transaction) ∧
        data.tokenTransfers = records.flatMap (·.tokenTransfers) := by
  obtain ⟨records, hr, rfl⟩ := convertBlockData_eq_ok.1 h
  exact ⟨records, fun _ => mem_of_mapM hr, rfl, rfl⟩

theorem exists_success_iff :
    (∃ r ∈ data.transactions, r.signature = signature ∧ r.success = true) ↔
      ∃ tx ∈ block.transactions, tx.signature = signature ∧ tx.error = none := by
  obtain ⟨records, hmem, htx, -⟩ := exists_records h
  rw [htx]
  constructor
  · rintro ⟨record, hm, hsig, hsuc⟩
    obtain ⟨r, hr, rfl⟩ := List.mem_map.1 hm
    obtain ⟨tx, ht, hc⟩ := (hmem r).1 hr
    obtain ⟨hs, he⟩ := signature_of_convertRecords hc
    exact ⟨tx, ht, hs.symm.trans hsig, Option.isNone_iff_eq_none.1 (he.symm.trans hsuc)⟩
  · rintro ⟨tx, ht, hsig, herr⟩
    obtain ⟨r, hc⟩ := exists_convertBlockData_iff.1 ⟨data, h⟩ tx ht
    obtain ⟨hs, he⟩ := signature_of_convertRecords hc
    exact ⟨_, List.mem_map_of_mem ((hmem r).2 ⟨tx, ht, hc⟩), hs.trans hsig,
      he.trans (Option.isNone_iff_eq_none.2 herr)⟩

theorem exists_transfer_iff :
    (∃ t ∈ data.tokenTransfers, t.transactionSignature = signature) ↔
      ∃ tx ∈ block.transactions, TransfersTokens p tx ∧ tx.signature = signature := by
  obtain ⟨records, hmem, -, htt⟩ := exists_records h
  rw [htt]
  constructor
  · rintro ⟨t, ht, hsig⟩
    obtain ⟨r, hr, ht⟩ := List.mem_flatMap.1 ht
    obtain ⟨tx, htx, hc⟩ := (hmem r).1 hr
    exact ⟨tx, htx, (exists_mem_tokenTransfers_iff hc).1 ⟨t, ht, hsig⟩⟩
  · rintro ⟨tx, htx, htr⟩
    obtain ⟨r, hc⟩ := exists_convertBlockData_iff.1 ⟨data, h⟩ tx htx
    obtain ⟨t, ht, hsig⟩ := (exists_mem_tokenTransfers_iff hc).2 htr
    exact ⟨t, List.mem_flatMap.2 ⟨r, (hmem r).2 ⟨tx, htx, hc⟩, ht⟩, hsig⟩

end BlockData

end Spec

end Sylph.Solana

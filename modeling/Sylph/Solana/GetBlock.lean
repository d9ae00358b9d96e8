import Sylph.Lib.Numbers
import Sylph.Solana.Conversion
import Sylph.Solana.Indexing

/-!
# The totals of a block

What the client makes of a block of the node (`getBlock`), whose fees and compute units it
adds up over the transactions as they come (`totals`). The service shows the fee and the
compute units of each transaction on its own, from what the client has made of it.

* `toNat_totals`: the sums are those of the numbers, as long as they do not overflow.
* `map_statusMeta`: a transaction is converted with the metadata it comes with.
* `totals_eq`: so the totals of a block are the sums over the transactions the service
  shows.
-/

namespace Sylph.Solana

open Lib Lib.Except

/-- What a reward is for. -/
inductive RewardType
  | fee
  | rent
  | staking
  | voting
  deriving DecidableEq

/-- A reward of a block. -/
structure Reward where
  pubkey : String
  lamports : Int64
  rewardType : Option RewardType

/-- A block as a node sends it. -/
structure UiConfirmedBlock where
  previousBlockhash : String
  blockhash : String
  parentSlot : UInt64
  transactions : Option (List (EncodedTransactionWithStatusMeta UiTransactionStatusMeta))
  rewards : Option (List Reward)

/-! ## The request -/

/-- The error of a request for a block, or for its time. -/
def requestError (slot : UInt64) : ClientError → RpcError
  | .forUser msg =>
    if "Block not available".toList <:+: msg.toList then .blockNotFound slot
    else .clientError (.forUser msg)
  | e => .clientError e

/-- The reward of the leader. -/
def feeReward (block : UiConfirmedBlock) : Option Reward :=
  block.rewards.bind fun rewards => rewards.find? fun reward => reward.rewardType = some .fee

/-- The fee in the metadata of a transaction, if there are any. -/
def feeOf (statusMeta : Option UiTransactionStatusMeta) : UInt64 :=
  (statusMeta.map fun m => m.fee).getD 0

/-- The compute units in the metadata of a transaction, if there are any. -/
def unitsOf (statusMeta : Option UiTransactionStatusMeta) : UInt64 :=
  (statusMeta.bind fun m => m.computeUnitsConsumed.toOption).getD 0

/-- The body of the loop that adds up the fees and the compute units, which wrap around. -/
def addTotals (sums : UInt64 × UInt64)
    (tx : EncodedTransactionWithStatusMeta UiTransactionStatusMeta) : UInt64 × UInt64 :=
  (sums.1 + feeOf tx.statusMeta, sums.2 + unitsOf tx.statusMeta)

/-- The compute units and the fees of a block, summed up; the sums wrap. -/
def totals (block : UiConfirmedBlock) : UInt64 × UInt64 :=
  (block.transactions.map fun txs => txs.foldl addTotals (0, 0)).getD (0, 0)

/-- The block at a slot, by the answers to the two requests. -/
def getBlock (d : Decoders UiTransactionStatusMeta) (slot : UInt64)
    (response : Except ClientError UiConfirmedBlock) (time : Except ClientError Int64) :
    Except RpcError RpcBlock := do
  let block ← response.mapError (requestError slot)
  let timestamp ← time.mapError (requestError slot)
  let transactions ← convertTransactions d slot block.transactions
  return {
    slot := slot
    blockhash := block.blockhash
    parentSlot := block.parentSlot
    timestamp := timestamp
    previousBlockhash := block.previousBlockhash
    leader := ((feeReward block).map Reward.pubkey).getD ""
    leaderReward := (feeReward block).map fun reward => reward.lamports.toUInt64
    totalComputeUnits := (totals block).2
    totalFee := (totals block).1
    transactions := transactions }

/-! ## The sums -/

/-- The number a decimal text stands for. -/
def readNumber (text : String) : ℕ := Nat.ofDigitChars 10 text.toList 0

theorem readNumber_toString (n : UInt64) : readNumber (toString n) = n.toNat :=
  (Decimal.denotes_toString n.toNat).value

theorem readNumber_zero : readNumber "0" = 0 := by
  decide

/-- The metadata of the transactions of a block. -/
def statusMetas (block : UiConfirmedBlock) : List (Option UiTransactionStatusMeta) :=
  (block.transactions.getD []).map fun tx => tx.statusMeta

/-- The sum of one of the numbers in the metadata. -/
def sumOf (f : Option UiTransactionStatusMeta → UInt64)
    (metas : List (Option UiTransactionStatusMeta)) : ℕ :=
  (metas.map fun m => (f m).toNat).sum

/-- A sum of numbers that wraps around, as long as it does not. -/
theorem toNat_add_sum {a b : UInt64} {n : ℕ} (h : a.toNat + (b.toNat + n) < 2 ^ 64) :
    (a + b).toNat + n = a.toNat + (b.toNat + n) := by
  rw [UInt64.toNat_add, Nat.mod_eq_of_lt (Nat.lt_of_le_of_lt (by omega) h), Nat.add_assoc]

theorem toNat_foldl {txs : List (EncodedTransactionWithStatusMeta UiTransactionStatusMeta)}
    (sums : UInt64 × UInt64)
    (hfee : sums.1.toNat + sumOf feeOf (txs.map fun tx => tx.statusMeta) < 2 ^ 64)
    (hunits : sums.2.toNat + sumOf unitsOf (txs.map fun tx => tx.statusMeta) < 2 ^ 64) :
    (txs.foldl addTotals sums).1.toNat =
        sums.1.toNat + sumOf feeOf (txs.map fun tx => tx.statusMeta) ∧
      (txs.foldl addTotals sums).2.toNat =
        sums.2.toNat + sumOf unitsOf (txs.map fun tx => tx.statusMeta) := by
  induction txs generalizing sums with
  | nil => exact ⟨rfl, rfl⟩
  | cons tx txs ih =>
    simp only [List.map_cons, sumOf, List.sum_cons] at hfee hunits ⊢
    have h₁ := toNat_add_sum hfee
    have h₂ := toNat_add_sum hunits
    rw [← h₁] at hfee ⊢
    rw [← h₂] at hunits ⊢
    exact ih _ hfee hunits

theorem toNat_totals {block : UiConfirmedBlock} (hfee : sumOf feeOf (statusMetas block) < 2 ^ 63)
    (hunits : sumOf unitsOf (statusMetas block) < 2 ^ 63) :
    (totals block).1.toNat = sumOf feeOf (statusMetas block) ∧
      (totals block).2.toNat = sumOf unitsOf (statusMetas block) := by
  have hlt : ∀ {n : ℕ}, n < 2 ^ 63 → (0 : UInt64).toNat + n < 2 ^ 64 := by
    intro n hn
    rw [UInt64.toNat_zero]
    omega
  rw [statusMetas] at hfee hunits ⊢
  rw [totals]
  generalize block.transactions = transactions at *
  rcases transactions with _ | txs
  · exact ⟨rfl, rfl⟩
  · obtain ⟨h₁, h₂⟩ := toNat_foldl (0, 0) (hlt hfee) (hlt hunits)
    exact ⟨h₁.trans (Nat.zero_add _), h₂.trans (Nat.zero_add _)⟩

/-! ## The transactions shown -/

section Shown

variable {d : Decoders UiTransactionStatusMeta} {p : Packages} {slot : UInt64}
  {response : UiConfirmedBlock} {time : Except ClientError Int64} {block : RpcBlock}
  {data : Proto.Solana.BlockData}

theorem statusMeta_of_convertTransaction
    {tx : EncodedTransactionWithStatusMeta UiTransactionStatusMeta}
    {e : EnrichedTransaction UiTransactionStatusMeta} (h : convertTransaction d slot tx = .ok e) :
    tx.statusMeta = e.statusMeta := by
  obtain ⟨x, -, rfl⟩ := map_eq_ok.1 h
  rfl

/-- The transactions of a block come with the metadata that the node has sent. -/
theorem map_statusMeta (h : getBlock d slot (.ok response) time = .ok block) :
    block.transactions.map (fun tx => tx.statusMeta) = statusMetas response ∧
      block.totalFee = (totals response).1 ∧ block.totalComputeUnits = (totals response).2 := by
  obtain ⟨_, hr, h⟩ := bind_eq_ok.1 h
  obtain ⟨timestamp, -, h⟩ := bind_eq_ok.1 h
  obtain ⟨transactions, ht, h⟩ := bind_eq_ok.1 h
  cases hr
  cases h
  refine ⟨?_, rfl, rfl⟩
  rw [statusMetas]
  rcases htxs : response.transactions with _ | txs <;> rw [htxs] at ht
  · cases ht
    rfl
  · exact (map_eq_of_mapM ht fun tx _ e he => statusMeta_of_convertTransaction he).symm

/-- What the service shows of the fee and the compute units of a transaction. -/
theorem fee_of_convertRecords {tx : EnrichedTransaction UiTransactionStatusMeta}
    {r : TransactionRecords} (h : convertRecords p tx = .ok r) :
    readNumber r.transaction.fee = (feeOf tx.statusMeta).toNat ∧
      r.transaction.computeUnitsConsumed = (unitsOf tx.statusMeta).toInt64 := by
  obtain ⟨_, _, _, -, -, -, rfl⟩ := convertRecords_eq_ok.1 h
  refine ⟨?_, rfl⟩
  rw [transactionRecord]
  cases tx.statusMeta with
  | none => exact readNumber_zero
  | some m => exact readNumber_toString m.fee

/-- As long as a sum does not overflow, it is the one of the numbers as integers. -/
theorem sum_toInt {f : Option UiTransactionStatusMeta → UInt64}
    {metas : List (Option UiTransactionStatusMeta)} (h : sumOf f metas < 2 ^ 63) :
    (metas.map fun m => (f m).toInt64.toInt).sum = sumOf f metas := by
  induction metas with
  | nil => rfl
  | cons m metas ih =>
    rw [sumOf, List.map_cons, List.sum_cons, ← sumOf] at h
    have htail := ih (Nat.lt_of_le_of_lt (Nat.le_add_left _ _) h)
    have hhead := toInt_toInt64_iff.2 (Nat.lt_of_le_of_lt (Nat.le_add_right _ _) h)
    rw [sumOf, List.map_cons, List.map_cons, List.sum_cons, List.sum_cons, ← sumOf, htail, hhead,
      Nat.cast_add]

/-- The totals of a block are the sums over its transactions. -/
theorem totals_eq (hget : getBlock d slot (.ok response) time = .ok block)
    (hconv : convertBlockData p block = .ok data)
    (hfee : sumOf feeOf (statusMetas response) < 2 ^ 63)
    (hunits : sumOf unitsOf (statusMetas response) < 2 ^ 63) :
    ∃ record, data.block = some record ∧
      readNumber record.totalFee = (data.transactions.map fun r => readNumber r.fee).sum ∧
      record.totalComputeUnits.toInt =
        (data.transactions.map fun r => r.computeUnitsConsumed.toInt).sum := by
  obtain ⟨hmeta, htotalFee, htotalUnits⟩ := map_statusMeta hget
  obtain ⟨h₁, h₂⟩ := toNat_totals hfee hunits
  obtain ⟨records, hr, rfl⟩ := convertBlockData_eq_ok.1 hconv
  refine ⟨blockRecord block, rfl, ?_, ?_⟩
  · have hshown := map_eq_of_mapM hr fun tx _ r hc => (fee_of_convertRecords hc).1.symm
    -- Both are sums over the same metadata.
    rw [blockRecord, readNumber_toString, htotalFee, h₁, ← hmeta, sumOf, List.map_map,
      List.map_map]
    exact congrArg List.sum hshown
  · have hshown := map_eq_of_mapM hr fun tx _ r hc =>
      (congrArg Int64.toInt (fee_of_convertRecords hc).2).symm
    have htotal := toInt_toInt64_iff.2 (h₂.symm ▸ hunits)
    rw [blockRecord, htotalUnits, htotal, h₂, ← sum_toInt hunits, ← hmeta, List.map_map,
      List.map_map]
    exact congrArg List.sum hshown

end Shown

/-! ## Blocks with transfers -/

/-- Packages that do what is documented of those in use. -/
def Decoders.documented : Decoders UiTransactionStatusMeta where
  base64 := Decoders.reference.base64
  base64_encode := Decoders.reference.base64_encode
  deserialize := Decoders.reference.deserialize
  deserialize_encode := Decoders.reference.deserialize_encode
  encode_of_deserialize := Decoders.reference.encode_of_deserialize
  showSignature := Decoders.reference.showSignature
  showError m := m.err

/-- A transaction that is signed, and says of itself what is to be read off it. -/
structure Genuine (tx : EnrichedTransaction UiTransactionStatusMeta) : Prop where
  signed : tx.transaction.signatures.1 ≠ []
  signature : tx.signature = base58 (tx.transaction.signatures.1.head signed).1
  error : tx.error = tx.statusMeta.bind fun m => m.err

/-- The transactions of a block to be sent. -/
abbrev GenuineTransaction := {tx : EnrichedTransaction UiTransactionStatusMeta // Genuine tx}

/-- The transaction as a node sends it. -/
def GenuineTransaction.toBinary (tx : GenuineTransaction) :
    EncodedTransactionWithStatusMeta UiTransactionStatusMeta :=
  VersionedTransaction.toBinary
    ⟨tx.1.transaction.signatures, .legacy tx.1.transaction.message, tx.2.signed⟩ tx.1.statusMeta

/-- A block of transactions as a node sends it. -/
def responseOf (txs : List GenuineTransaction) : UiConfirmedBlock where
  previousBlockhash := base58 (List.replicate 32 7)
  blockhash := base58 (List.replicate 32 6)
  parentSlot := 0
  transactions := some (txs.map GenuineTransaction.toBinary)
  rewards := some [⟨base58 (List.replicate 32 8), 2500, some .fee⟩]

theorem convertTransaction_toBinary (slot : UInt64) (tx : GenuineTransaction) :
    convertTransaction .documented slot tx.toBinary = .ok { tx.1 with slot := slot } := by
  obtain ⟨tx, h⟩ := tx
  have hser : (⟨tx.transaction.signatures, .legacy tx.transaction.message, h.signed⟩ :
      VersionedTransaction).serialize = transactionCodec.encode tx.transaction ++ [] :=
    (List.append_nil _).symm
  refine (convertTransaction_eq hser h.signed).trans (congrArg Except.ok ?_)
  rw [EnrichedTransaction.mk.injEq]
  exact ⟨h.signature.symm, rfl, h.error.symm, rfl, rfl⟩

/-- The client gets the transactions of the block. -/
theorem exists_getBlock (slot : UInt64) (txs : List GenuineTransaction) : ∃ block,
    getBlock .documented slot (.ok (responseOf txs)) (.ok 0) = .ok block ∧
      block.transactions = txs.map fun tx => { tx.1 with slot := slot } := by
  obtain ⟨es, hc, hes⟩ := mapM_iff (R := fun tx e => { tx.1 with slot := slot } = e).2
    fun tx (_ : tx ∈ txs) => ⟨_, convertTransaction_toBinary slot tx, rfl⟩
  rw [← List.forall₂_map_left_iff (R := Eq), List.forall₂_eq_eq_eq] at hes
  have hall : convertTransactions .documented slot (responseOf txs).transactions = .ok es := by
    rw [responseOf, convertTransactions, List.mapM_map]
    exact hc
  exact ⟨_, bind_eq_ok.2 ⟨_, rfl, bind_eq_ok.2 ⟨_, rfl, bind_eq_ok.2 ⟨_, hall, rfl⟩⟩⟩, hes.symm⟩

/-- The transactions of a block that can be converted. -/
def transfers : List GenuineTransaction :=
  [⟨checkedTransfer none, List.cons_ne_nil _ _, rfl, rfl⟩,
    ⟨paidTransfer, List.cons_ne_nil _ _, rfl, rfl⟩]

theorem totals_eq_transfers : ∃ block data record,
    getBlock .documented 1 (.ok (responseOf transfers)) (.ok 0) = .ok block ∧
      convertBlockData .reference block = .ok data ∧ data.block = some record ∧
      readNumber record.totalFee = (data.transactions.map fun r => readNumber r.fee).sum ∧
      record.totalComputeUnits.toInt =
        (data.transactions.map fun r => r.computeUnitsConsumed.toInt).sum := by
  obtain ⟨block, hget, htx⟩ := exists_getBlock 1 transfers
  obtain ⟨data, hconv⟩ : ∃ data, convertBlockData .reference block = .ok data := by
    rw [exists_convertBlockData_iff, htx]
    exact exists_convertBlockData_iff.1 exists_convertBlockData_pairBlock
  obtain ⟨record, hrecord⟩ := totals_eq hget hconv (by decide) (by decide)
  exact ⟨block, data, record, hget, hconv, hrecord⟩

end Sylph.Solana

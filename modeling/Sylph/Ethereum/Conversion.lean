import Sylph.Ethereum.TokenTransfers

/-!
# The conversion of blocks

What the service makes of a block of the node, of its transactions with their receipts, and
of their logs. Numbers become texts, or integers of 64 bits.

* `numbers_iff`: the numbers of a block are kept as long as the integers fit, and the block has a
  base fee: the text of a missing one is `<nil>`.
* `sender_iff`: the sender of a transaction is the address its signature is recovered to, if
  the signer can recover it. Otherwise it is an address all the same, while
  `getFromAddress` has none.
-/

namespace Sylph.Ethereum

open Lib Go Proto.Ethereum

variable (c : Common)

/-- `x.String()` of a `*big.Int` -/
def bigString : Option ℕ → String
  | some x => toString x
  | none => "<nil>"

/-- `x.Int64()` of a `*big.Int`, its last 64 bits. -/
def bigInt64 (x : ℕ) : Int64 := .ofNat x

/-- The sender, or an empty text if there is none. -/
def getFromAddress (signer : LondonSigner) (tx : Types.Transaction) : String :=
  match signer.sender tx with
  | (_, some _) => ""
  | (sender, none) => c.addressHex sender

/-- The record of a block; its number is cut to 64 bits. -/
def convertBlockToPB (block : Types.Block) : Block where
  blockNumber := (bigInt64 block.number).toInt
  hash := c.hashHex block.hash
  parentHash := c.hashHex block.parentHash
  timestamp := block.time.toInt64.toInt
  stateRoot := c.hashHex block.root
  transactionsRoot := c.hashHex block.txHash
  receiptsRoot := c.hashHex block.receiptHash
  miner := c.addressHex block.coinbase
  gasUsed := block.gasUsed.toInt64.toInt
  gasLimit := block.gasLimit.toInt64.toInt
  baseFeePerGas := bigString block.baseFee
  difficulty := bigString block.difficulty
  totalDifficulty := ""

/-- The fields the service leaves out are not set. -/
def convertTransactionToPB (tx : Types.Transaction) (receipt : Option Types.Receipt)
    (signer : LondonSigner) : Result Transaction := do
  -- The error is dropped.
  let (sender, _) := signer.sender tx
  let receipt ← deref receipt
  return {
    hash := c.hashHex tx.hash
    fromAddress := c.addressHex sender
    toAddress := match tx.toAddress with
      | some recipient => c.addressHex recipient
      | none => ""
    value := bigString tx.value
    gas := tx.gas.toInt64.toInt
    gasPrice := bigString tx.gasPrice
    nonce := tx.nonce.toInt64.toInt
    input := tx.data
    transactionType := 0
    maxFeePerGas := ""
    maxPriorityFeePerGas := ""
    status := receipt.status = Types.receiptStatusSuccessful
    transactionCategory := ""
    gasUsed := receipt.gasUsed.toInt64.toInt
    effectiveGasPrice := ""
    totalFee := ""
    contractAddress := ""
    methodId := ""
    methodName := "" }

/-- The record of a log; its index is cut to 32 bits. -/
def convertLogToPB (log : Types.Log) : Log where
  address := c.addressHex log.address
  topics := log.topics.map c.hashHex
  data := log.data
  index := log.index.toUInt32.toInt32.toInt
  transactionHash := c.hashHex log.txHash

/-- The logs, and the transfers that are found in them. -/
def processLogs (logs : List (Option Types.Log)) : Result (List Log × List TokenTransfer) :=
  logs.foldlM (fun (pbLogs, transfers) log => do
    let log ← deref log
    let transfer ← processTokenTransfer c log
    return (pbLogs ++ [convertLogToPB c log], transfers ++ transfer.toList)) ([], [])

/-! ## The numbers -/

/-- The text stands for a number that may be missing. -/
def DenotesBig (text : String) : Option ℕ → Prop
  | some x => Decimal.Denotes text x
  | none => text = ""

/-- The numbers of a block are kept. -/
structure KeepsBlock (block : Types.Block) (pb : Block) : Prop where
  blockNumber : pb.blockNumber = block.number
  timestamp : pb.timestamp = block.time.toNat
  gasUsed : pb.gasUsed = block.gasUsed.toNat
  gasLimit : pb.gasLimit = block.gasLimit.toNat
  baseFeePerGas : DenotesBig pb.baseFeePerGas block.baseFee
  difficulty : Decimal.Denotes pb.difficulty block.difficulty

/-- The numbers of a transaction, and of its receipt, are kept. -/
structure KeepsTransaction (tx : Types.Transaction) (receipt : Types.Receipt) (pb : Transaction) :
    Prop where
  value : Decimal.Denotes pb.value tx.value
  gas : pb.gas = tx.gas.toNat
  gasPrice : Decimal.Denotes pb.gasPrice tx.gasPrice
  nonce : pb.nonce = tx.nonce.toNat
  gasUsed : pb.gasUsed = receipt.gasUsed.toNat

/-- The integers of a block fit into 64 bits, and there is a base fee. -/
structure FitsBlock (block : Types.Block) : Prop where
  number : block.number < 2 ^ 63
  time : block.time.toNat < 2 ^ 63
  gasUsed : block.gasUsed.toNat < 2 ^ 63
  gasLimit : block.gasLimit.toNat < 2 ^ 63
  baseFee : block.baseFee ≠ none

/-- The integers of a transaction fit into 64 bits. -/
structure FitsTransaction (tx : Types.Transaction) (receipt : Types.Receipt) : Prop where
  gas : tx.gas.toNat < 2 ^ 63
  nonce : tx.nonce.toNat < 2 ^ 63
  gasUsed : receipt.gasUsed.toNat < 2 ^ 63

variable {c} {signer : LondonSigner}

/-- An integer is kept if and only if it fits. -/
theorem toInt_bigInt64_iff {x : ℕ} : (bigInt64 x).toInt = x ↔ x < 2 ^ 63 := toInt_ofNat_iff

theorem denotes_bigString (x : ℕ) : Decimal.Denotes (bigString x) x := Decimal.denotes_toString x

/-- The text of a missing number stands for something else. -/
theorem denotesBig_bigString_iff {x : Option ℕ} : DenotesBig (bigString x) x ↔ x ≠ none := by
  cases x with
  | none =>
    have hne : bigString none ≠ "" := by decide
    exact iff_of_false hne (not_not_intro rfl)
  | some x => exact iff_of_true (denotes_bigString x) (Option.some_ne_none x)

theorem keepsBlock_iff (block : Types.Block) :
    KeepsBlock block (convertBlockToPB c block) ↔ FitsBlock block := by
  constructor
  · rintro ⟨hn, ht, hu, hl, hf, -⟩
    exact ⟨toInt_bigInt64_iff.1 hn, toInt_toInt64_iff.1 ht, toInt_toInt64_iff.1 hu,
      toInt_toInt64_iff.1 hl, denotesBig_bigString_iff.1 hf⟩
  · rintro ⟨hn, ht, hu, hl, hf⟩
    exact ⟨toInt_bigInt64_iff.2 hn, toInt_toInt64_iff.2 ht, toInt_toInt64_iff.2 hu,
      toInt_toInt64_iff.2 hl, denotesBig_bigString_iff.2 hf, denotes_bigString _⟩

theorem exists_convertTransactionToPB (c : Common) (tx : Types.Transaction)
    (receipt : Types.Receipt) (signer : LondonSigner) :
    ∃ pb, convertTransactionToPB c tx (some receipt) signer = .ok pb ∧
      pb.fromAddress = c.addressHex (signer.sender tx).1 ∧
      (KeepsTransaction tx receipt pb ↔ FitsTransaction tx receipt) := by
  refine ⟨_, rfl, rfl, ?_⟩
  constructor
  · rintro ⟨-, hg, -, hn, hu⟩
    exact ⟨toInt_toInt64_iff.1 hg, toInt_toInt64_iff.1 hn, toInt_toInt64_iff.1 hu⟩
  · rintro ⟨hg, hn, hu⟩
    exact ⟨denotes_bigString _, toInt_toInt64_iff.2 hg, denotes_bigString _,
      toInt_toInt64_iff.2 hn, toInt_toInt64_iff.2 hu⟩

/-- The numbers of a block, and those of a transaction with its receipt, are kept if and only if
    the integers fit, and the block has a base fee. -/
theorem numbers_iff (c : Common) (signer : LondonSigner) :
    (∀ block, KeepsBlock block (convertBlockToPB c block) ↔ FitsBlock block) ∧
    ∀ tx receipt, (∃ pb, convertTransactionToPB c tx (some receipt) signer = .ok pb ∧
      KeepsTransaction tx receipt pb) ↔ FitsTransaction tx receipt := by
  refine ⟨keepsBlock_iff, fun tx receipt => ?_⟩
  obtain ⟨pb, he, -, hpb⟩ := exists_convertTransactionToPB c tx receipt signer
  rw [← hpb]
  constructor
  · rintro ⟨pb', he', hk⟩
    rw [he] at he'
    cases he'
    exact hk
  · exact fun hk => ⟨pb, he, hk⟩

/-- A block from before the London fork, without transactions. -/
def oldBlock (number : ℕ) : Types.Block where
  number := number
  hash := .ofNat 32 number
  parentHash := .ofNat 32 (number - 1)
  time := 0
  root := .fit 32 []
  txHash := .fit 32 []
  receiptHash := .fit 32 []
  coinbase := .fit 20 []
  gasUsed := 0
  gasLimit := 5000
  baseFee := none
  difficulty := 17179869184
  transactions := []

/-- The base fee of an old block is `<nil>`. -/
theorem not_forall_keepsBlock : ¬∀ (c : Common) (block : Types.Block),
    KeepsBlock block (convertBlockToPB c block) := by
  intro h
  exact ((keepsBlock_iff _).1 (h .lowerCase (oldBlock 0))).baseFee rfl

/-! ## The sender -/

/-- The sender is the address the signature is recovered to, and there is none if it is not
    recovered. -/
def KeepsSender (c : Common) (signer : LondonSigner) (tx : Types.Transaction) (pb : Transaction) :
    Prop :=
  match signer.sender tx with
  | (sender, none) => signer.recover tx = some sender ∧ pb.fromAddress = c.addressHex sender
  | (_, some _) => pb.fromAddress = ""

/-- A signature is recovered if and only if it is valid, and of a type the signer knows. -/
theorem sender_ok_iff (signer : LondonSigner) (tx : Types.Transaction) :
    (signer.sender tx).2 = none ↔ tx.type.London ∧ signer.recover tx ≠ none := by
  by_cases ht : tx.type.London
  · rcases hr : signer.recover tx with _ | a
    · obtain ⟨err, he⟩ := signer.sender_of_none tx ht hr
      simp [he]
    · simp [signer.sender_of_some tx a ht hr, ht]
  · obtain ⟨err, he⟩ := signer.sender_of_newer tx ht
    simp [he, ht]

/-- The sender is kept if and only if the signature is recovered, since the text of an address is
    never empty. -/
theorem keepsSender_iff {tx : Types.Transaction} {pb : Transaction}
    (hpb : pb.fromAddress = c.addressHex (signer.sender tx).1) :
    KeepsSender c signer tx pb ↔ tx.type.London ∧ signer.recover tx ≠ none := by
  rw [← sender_ok_iff]
  constructor
  · intro hk
    rw [KeepsSender] at hk
    split at hk
    · next hs => rw [hs]
    · exact absurd (hpb.symm.trans hk) (c.addressHex_ne_empty _)
  · intro hn
    obtain ⟨ht, hr⟩ := (sender_ok_iff signer tx).1 hn
    obtain ⟨a, ha⟩ := Option.ne_none_iff_exists'.1 hr
    have hs := signer.sender_of_some tx a ht ha
    rw [hs] at hpb
    rw [KeepsSender, hs]
    exact ⟨ha, hpb⟩

/-- The sender of a transaction is the address its signature is recovered to if and only if the
    signature is valid, and of a type the signer knows: otherwise there is a sender all
    the same. -/
theorem sender_iff (c : Common) (signer : LondonSigner) (tx : Types.Transaction)
    (receipt : Types.Receipt) :
    (∃ pb, convertTransactionToPB c tx (some receipt) signer = .ok pb ∧
      KeepsSender c signer tx pb) ↔ tx.type.London ∧ signer.recover tx ≠ none := by
  obtain ⟨pb, he, hpb, -⟩ := exists_convertTransactionToPB c tx receipt signer
  rw [← keepsSender_iff hpb]
  constructor
  · rintro ⟨pb', he', hk⟩
    rw [he] at he'
    cases he'
    exact hk
  · exact fun hk => ⟨pb, he, hk⟩

/-- The sender would be kept by `getFromAddress`, for all transactions. -/
theorem keepsSender_of_getFromAddress {tx : Types.Transaction} {pb : Transaction}
    (hpb : pb.fromAddress = getFromAddress c signer tx) : KeepsSender c signer tx pb := by
  rw [getFromAddress] at hpb
  rw [KeepsSender]
  split
  · next sender hs =>
    rw [hs] at hpb
    obtain ⟨ht, hr⟩ := (sender_ok_iff signer tx).1 (by rw [hs])
    obtain ⟨a, ha⟩ := Option.ne_none_iff_exists'.1 hr
    obtain rfl : a = sender := congrArg Prod.fst ((signer.sender_of_some tx a ht ha).symm.trans hs)
    exact ⟨ha, hpb⟩
  · next hs => rwa [hs] at hpb

/-- A transaction that carries blobs. -/
def blobTransaction : Types.Transaction where
  type := .blob
  hash := transferTopic
  toAddress := some ones
  value := 0
  gas := 21000
  gasPrice := 1000000000
  nonce := 0
  data := []
  signature := ⟨0, 1, 1⟩

/-- The sender of a transaction that carries blobs is the address zero. -/
theorem not_forall_keepsSender : ¬∀ (c : Common) (signer : LondonSigner) (tx : Types.Transaction)
    (receipt : Types.Receipt), ∃ pb,
      convertTransactionToPB c tx (some receipt) signer = .ok pb ∧ KeepsSender c signer tx pb := by
  intro h
  obtain ⟨pb, he, hk⟩ := h .lowerCase (.ofAddress ones) blobTransaction ⟨1, 21000, []⟩
  obtain ⟨pb', he', hpb, -⟩ := exists_convertTransactionToPB .lowerCase blobTransaction
    ⟨1, 21000, []⟩ (.ofAddress ones)
  obtain rfl := Except.ok.inj (he.symm.trans he')
  exact ((keepsSender_iff hpb).1 hk).1

end Sylph.Ethereum

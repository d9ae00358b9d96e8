import Sylph.Lib.Base64
import Sylph.Solana.Transaction

/-!
# The client of a Solana node

What the client asks of a node (`defaultBlockConfig`), and what it makes of the
transactions of a block that come back (`convertTransactions`).

The base64 engine, `bincode` and the text of a signature belong to other packages. They
are the fields of `Decoders`, with what is documented of the first two: `base64` reads
what was written as base64, and `deserialize` reads the transaction in front of the
bytes, whatever follows it.
-/

namespace Sylph.Solana

open Lib

/-- How final a block is to be. -/
inductive CommitmentLevel
  | processed
  | confirmed
  | finalized

/-- The configuration of the client. -/
structure RpcConfig where
  url : String
  commitment : CommitmentLevel
  timeout : UInt64

/-- The connection is to `https://api.mainnet-beta.solana.com`, for half a minute. -/
def RpcConfig.default : RpcConfig where
  url := "https://api.mainnet-beta.solana.com"
  commitment := .confirmed
  timeout := 30

/-- An error of the client of an endpoint: the answer to a user, or another one. -/
inductive ClientError
  | forUser (msg : String)
  | other (text : String)

/-- What a request fails with. -/
inductive RpcError
  | clientError (e : ClientError)
  | transportError (text : String)
  | invalidResponse (text : String)
  | rateLimitExceeded
  | blockNotFound (slot : UInt64)

/-- The encodings in which transactions can be asked for. -/
inductive UiTransactionEncoding
  | binary
  | base64
  | base58
  | json
  | jsonParsed

/-- How much of the transactions can be asked for. -/
inductive TransactionDetails
  | full
  | signatures
  | none
  | accounts

/-- The options of a request for a block. -/
structure RpcBlockConfig where
  encoding : Option UiTransactionEncoding
  transactionDetails : Option TransactionDetails
  rewards : Option Bool
  commitment : Option CommitmentLevel
  maxSupportedTransactionVersion : Option UInt8

/-- The options the client uses when it is given none. -/
def defaultBlockConfig (config : RpcConfig) : RpcBlockConfig where
  encoding := some .base64
  transactionDetails := some .full
  rewards := some true
  commitment := some config.commitment
  maxSupportedTransactionVersion := some 0

/-- A node answers with the legacy transactions and with those of the versions up to the
    one that is asked for. -/
def RpcBlockConfig.Requests (config : RpcBlockConfig) : VersionedMessage → Prop
  | .legacy _ => True
  | .v0 _ => ∃ version, config.maxSupportedTransactionVersion = some version ∧ 0 ≤ version

theorem requests_defaultBlockConfig (config : RpcConfig) (m : VersionedMessage) :
    (defaultBlockConfig config).Requests m := by
  rcases m with m | m
  · exact trivial
  · exact ⟨0, rfl, UInt8.le_refl 0⟩

/-- The encodings of the bytes of a transaction. -/
inductive TransactionBinaryEncoding
  | base58
  | base64

/-- What a node sends for a transaction; nothing is read of the last two. -/
inductive EncodedTransaction
  | legacyBinary (data : String)
  | binary (data : String) (encoding : TransactionBinaryEncoding)
  | json
  | accounts

/-- A transaction in the answer of the node. -/
structure EncodedTransactionWithStatusMeta (Meta : Type) where
  transaction : EncodedTransaction
  statusMeta : Option Meta

/-- A transaction, decoded, with the parts of its metadata that are used. -/
structure EnrichedTransaction (Meta : Type) where
  signature : String
  slot : UInt64
  error : Option String
  statusMeta : Option Meta
  transaction : Transaction

/-- A field that may be left out of the answer of a node. -/
inductive OptionSerializer (α : Type)
  | some (a : α)
  | none
  | skip

/-- A value that is skipped is none. -/
def OptionSerializer.toOption {α : Type} : OptionSerializer α → Option α
  | some a => .some a
  | none => .none
  | skip => .none

/-- An amount of tokens, as a text without the decimal point. -/
structure UiTokenAmount where
  decimals : UInt8
  amount : String

/-- The balance of an account, before or after a transaction. -/
structure UiTransactionTokenBalance where
  accountIndex : UInt8
  mint : String
  uiTokenAmount : UiTokenAmount

/-- What a node knows of the execution of a transaction. -/
structure UiTransactionStatusMeta where
  /-- The text of the error, if the execution failed. -/
  err : Option String
  fee : UInt64
  preBalances : List UInt64
  postBalances : List UInt64
  preTokenBalances : OptionSerializer (List UiTransactionTokenBalance)
  postTokenBalances : OptionSerializer (List UiTransactionTokenBalance)
  computeUnitsConsumed : OptionSerializer UInt64

/-- A block of the node. -/
structure RpcBlock where
  slot : UInt64
  blockhash : String
  parentSlot : UInt64
  timestamp : Int64
  previousBlockhash : String
  leader : String
  leaderReward : Option UInt64
  totalComputeUnits : UInt64
  totalFee : UInt64
  transactions : List (EnrichedTransaction UiTransactionStatusMeta)

/-- The packages that the client relies on. -/
structure Decoders (Meta : Type) where
  base64 : String → Except String (List UInt8)
  base64_encode : ∀ bytes, base64 (Base64.encode bytes) = .ok bytes
  deserialize : List UInt8 → Except String Transaction
  deserialize_encode : ∀ tx rest, deserialize (transactionCodec.encode tx ++ rest) = .ok tx
  encode_of_deserialize : ∀ {bytes tx}, deserialize bytes = .ok tx →
    ∃ rest, bytes = transactionCodec.encode tx ++ rest
  showSignature : Signature → String
  /-- The text of the error of a transaction that failed. -/
  showError : Meta → Option String

section Conversion

variable {Meta : Type} (d : Decoders Meta)

/-- The signature and the transaction; whatever encoding comes with the data, it is read
    as base64. -/
def decodeTransaction : EncodedTransaction → Except RpcError (String × Transaction)
  | .binary data _ => do
    let decoded ← (d.base64 data).mapError
      fun e => RpcError.invalidResponse ("Failed to decode base64: " ++ e)
    let transaction ← (d.deserialize decoded).mapError
      fun e => RpcError.invalidResponse ("Failed to deserialize transaction: " ++ e)
    match transaction.signatures.1.head? with
    | some signature => .ok (d.showSignature signature, transaction)
    | none => .error (.invalidResponse "No signature found in transaction")
  | .json => .error (.invalidResponse "JSON transaction format not supported")
  | _ => .error (.invalidResponse "Unsupported transaction encoding")

/-- The body of the loop over the transactions. -/
def convertTransaction (slot : UInt64) (tx : EncodedTransactionWithStatusMeta Meta) :
    Except RpcError (EnrichedTransaction Meta) :=
  (decodeTransaction d tx.transaction).map fun x => {
    signature := x.1
    slot := slot
    error := tx.statusMeta.bind d.showError
    statusMeta := tx.statusMeta
    transaction := x.2 }

/-- The first transaction that cannot be converted fails the block. -/
def convertTransactions (slot : UInt64) :
    Option (List (EncodedTransactionWithStatusMeta Meta)) →
      Except RpcError (List (EnrichedTransaction Meta))
  | none => .ok []
  | some txs => txs.mapM (convertTransaction d slot)

end Conversion

end Sylph.Solana

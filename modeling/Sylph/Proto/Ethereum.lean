import Sylph.Lib.Elixir

/-!
# The messages of the Ethereum service

The messages of `types.pb.ex` that carry a block, as structures (with the fields of
the schema, an integer for every integer type), and as the terms a client of the
service receives them as (`toTerm`). A message field that is not set is `nil`.
-/

namespace Sylph.Proto.Ethereum

open Lib.Elixir

/-- `Ethereum.Block`: a block, without its transactions. -/
structure Block where
  blockNumber : ℤ
  hash : String
  parentHash : String
  timestamp : ℤ
  stateRoot : String
  transactionsRoot : String
  receiptsRoot : String
  miner : String
  gasUsed : ℤ
  gasLimit : ℤ
  baseFeePerGas : String
  difficulty : String
  totalDifficulty : String

/-- A block as a struct of Elixir. -/
def Block.toTerm (m : Block) : Term :=
  .struct "Elixir.Ethereum.Block" [
    ("block_number", .int m.blockNumber),
    ("hash", .string m.hash),
    ("parent_hash", .string m.parentHash),
    ("timestamp", .int m.timestamp),
    ("state_root", .string m.stateRoot),
    ("transactions_root", .string m.transactionsRoot),
    ("receipts_root", .string m.receiptsRoot),
    ("miner", .string m.miner),
    ("gas_used", .int m.gasUsed),
    ("gas_limit", .int m.gasLimit),
    ("base_fee_per_gas", .string m.baseFeePerGas),
    ("difficulty", .string m.difficulty),
    ("total_difficulty", .string m.totalDifficulty)]

/-- `Ethereum.Transaction`: a transaction with its receipt. -/
structure Transaction where
  hash : String
  fromAddress : String
  toAddress : String
  value : String
  gas : ℤ
  gasPrice : String
  nonce : ℤ
  input : List UInt8
  transactionType : ℤ
  maxFeePerGas : String
  maxPriorityFeePerGas : String
  status : Bool
  transactionCategory : String
  gasUsed : ℤ
  effectiveGasPrice : String
  totalFee : String
  contractAddress : String
  methodId : String
  methodName : String

/-- A transaction as a struct of Elixir. -/
def Transaction.toTerm (m : Transaction) : Term :=
  .struct "Elixir.Ethereum.Transaction" [
    ("hash", .string m.hash),
    ("from_address", .string m.fromAddress),
    ("to_address", .string m.toAddress),
    ("value", .string m.value),
    ("gas", .int m.gas),
    ("gas_price", .string m.gasPrice),
    ("nonce", .int m.nonce),
    ("input", .binary m.input),
    ("transaction_type", .int m.transactionType),
    ("max_fee_per_gas", .string m.maxFeePerGas),
    ("max_priority_fee_per_gas", .string m.maxPriorityFeePerGas),
    ("status", .ofBool m.status),
    ("transaction_category", .string m.transactionCategory),
    ("gas_used", .int m.gasUsed),
    ("effective_gas_price", .string m.effectiveGasPrice),
    ("total_fee", .string m.totalFee),
    ("contract_address", .string m.contractAddress),
    ("method_id", .string m.methodId),
    ("method_name", .string m.methodName)]

/-- `Ethereum.Log`: a log. -/
structure Log where
  address : String
  topics : List String
  data : List UInt8
  index : ℤ
  transactionHash : String

/-- A log as a struct of Elixir. -/
def Log.toTerm (m : Log) : Term :=
  .struct "Elixir.Ethereum.Log" [
    ("address", .string m.address),
    ("topics", .list (m.topics.map .string)),
    ("data", .binary m.data),
    ("index", .int m.index),
    ("transaction_hash", .string m.transactionHash)]

/-- `Ethereum.TokenTransfer`: a transfer of a token. -/
structure TokenTransfer where
  fromAddress : String
  toAddress : String
  value : String
  tokenType : String
  tokenId : String
  transactionHash : String

/-- A transfer as a struct of Elixir. -/
def TokenTransfer.toTerm (m : TokenTransfer) : Term :=
  .struct "Elixir.Ethereum.TokenTransfer" [
    ("from_address", .string m.fromAddress),
    ("to_address", .string m.toAddress),
    ("value", .string m.value),
    ("token_type", .string m.tokenType),
    ("token_id", .string m.tokenId),
    ("transaction_hash", .string m.transactionHash)]

/-- `Ethereum.BlockData`: a block with all that happened in it. -/
structure BlockData where
  block : Option Block
  transactions : List Transaction
  logs : List Log
  tokenTransfers : List TokenTransfer

/-- A message as a struct of Elixir; a block that is absent is `nil`. -/
def BlockData.toTerm (m : BlockData) : Term :=
  .struct "Elixir.Ethereum.BlockData" [
    ("block", (m.block.map Block.toTerm).getD .nil),
    ("transactions", .list (m.transactions.map Transaction.toTerm)),
    ("logs", .list (m.logs.map Log.toTerm)),
    ("token_transfers", .list (m.tokenTransfers.map TokenTransfer.toTerm))]

end Sylph.Proto.Ethereum

import Sylph.Lib.Dict

/-!
# The messages of the Solana service

The messages of `solana.rs` that carry a block, with the fields of the schema.
-/

namespace Sylph.Proto.Solana

open Lib

/-- `solana.Block`: a block, without its transactions. -/
structure Block where
  slot : Int64
  blockhash : String
  parentSlot : Int64
  timestamp : Int64
  previousBlockhash : String
  leader : String
  leaderReward : Int64
  totalComputeUnits : Int64
  totalFee : String

/-- `solana.Transaction`: a transaction, without its instructions. -/
structure Transaction where
  signature : String
  success : Bool
  fee : String
  computeUnitsConsumed : Int64
  transactionCategory : String
  programCount : Int32
  writeAccountCount : Int32
  readAccountCount : Int32

/-- `solana.InstructionAccount`: an account of an instruction. -/
structure InstructionAccount where
  address : String
  isSigner : Bool
  isWritable : Bool
  orderIndex : Int32

/-- `solana.Instruction`: an instruction of a transaction. -/
structure Instruction where
  programId : String
  data : List UInt8
  orderIndex : Int32
  instructionType : String
  parsedData : Dict String String
  accounts : List InstructionAccount

/-- `solana.TokenTransfer`: a transfer of a token. -/
structure TokenTransfer where
  fromAddress : String
  toAddress : String
  amount : String
  tokenType : String
  tokenMint : String
  transactionSignature : String

/-- `solana.BlockData`: a block with all that happened in it. -/
structure BlockData where
  block : Option Block
  transactions : List Transaction
  instructions : List Instruction
  tokenTransfers : List TokenTransfer

end Sylph.Proto.Solana

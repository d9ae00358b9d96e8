import Sylph.Lib.Ecto

/-!
# Stored blocks

`Core.Schema.Ethereum.Block` and `Core.Schema.Solana.Block`, as far as they are looked up:
the rows under their primary keys, and the names of the fields of the schemas that hold
integers.
-/

namespace Sylph.Schema

open Lib Elixir Ecto

/-- A row of `eth_blocks`. -/
structure EthereumBlock where
  blockNumber : ℤ
  hash : String
  timestamp : ℤ
  gasUsed : Option ℤ

/-- The fields of the schema that hold an integer. -/
def EthereumBlock.fields : List (Atom × (EthereumBlock → Option ℤ)) :=
  [("block_number", fun b => b.blockNumber), ("timestamp", fun b => b.timestamp),
    ("gas_used", gasUsed)]

/-- A row of `sol_blocks`. -/
structure SolanaBlock where
  slot : ℤ
  blockhash : String
  parentSlot : Option ℤ
  timestamp : ℤ
  leaderReward : Option ℤ

/-- The integer fields that a block can be looked up by. -/
def SolanaBlock.fields : List (Atom × (SolanaBlock → Option ℤ)) :=
  [("slot", fun b => b.slot), ("parent_slot", parentSlot), ("timestamp", fun b => b.timestamp),
    ("leader_reward", leaderReward)]

/-- The stored blocks of Ethereum, unique under their numbers. -/
abbrev EthereumBlocks := Table EthereumBlock.blockNumber

/-- The stored blocks of Solana, unique under their slots. -/
abbrev SolanaBlocks := Table SolanaBlock.slot

end Sylph.Schema

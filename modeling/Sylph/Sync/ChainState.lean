import Mathlib.Logic.Function.Basic
import Sylph.DataProcessor.Basic
import Sylph.Lib.Machine
import Sylph.Schema.Block
import Sylph.Schema.ChainSyncStatus
import Sylph.Sync.BlockRange

/-!
# The state of the chains

`Core.Chain.State`: the process that keeps, for each chain, its latest block, the block up
to which it is safe, and its sync status.

* It starts with what the table of the sync statuses holds (`loadChainState`).
* An update is stored first, as a new struct, and only kept if that succeeds
  (`updateChainStatus`).
* A block is looked up among the stored ones, in the table of its chain; a stored block
  with another hash is a reorganisation, and the block is not safe any more
  (`detectChainReorg`).
* A block that is processed may be the latest one (`doMarkProcessed`).
* `machine`: the process under its supervisor, with the table it loads and stores to.
-/

namespace Sylph.Sync

open Lib Elixir Ecto Schema DataProcessor

/-- The state of a chain. -/
structure ChainState where
  latestBlock : ℤ
  safeBlock : ℤ
  status : Atom
  lastUpdate : ℤ

namespace ChainState

/-- The state of the process. -/
abbrev State := Chain → ChainState

/-- What the process finds while it handles a message: the time, and the stored blocks. -/
structure Env where
  /-- `DateTime.utc_now()` -/
  now : ℤ
  /-- `System.system_time()` -/
  systemTime : ℤ
  ethereumBlocks : EthereumBlocks
  solanaBlocks : SolanaBlocks

/-- The parameters of an update. -/
structure Params where
  latestBlock : ℤ
  blockHash : String
  safeBlock : ℤ
  status : Atom

/-- The messages: all are calls but the last one. -/
inductive Msg
  | getStatus (chain : Chain)
  | updateStatus (chain : Chain) (params : Params)
  | detectReorg (chain : Chain) (number : ℤ) (hash : String)
  | markProcessed (chain : Chain) (number : ℤ) (hash : String)

/-- The replies to the calls. -/
inductive Reply
  | status (s : ChainState)
  | updated (result : Elixir.Result Atom)
  | reorg (detected : Bool)

/-- What a callback comes to. -/
abbrev Result := Outcome State Reply Event

/-! ## Callbacks -/

/-- The state of a chain as it has been stored, or the first one. -/
def loadChainState (now : ℤ) (t : ChainSyncStatus.Rows) (chain : Chain) : ChainState :=
  match t.find chain.atom.name with
  | none => { latestBlock := 0, safeBlock := 0, status := "syncing", lastUpdate := now }
  | some status =>
    { latestBlock := status.latestBlockNumber
      safeBlock := status.safeBlockNumber
      status := status.syncStatus
      lastUpdate := status.updatedAt }

/-- The state when the process starts. -/
def init (now : ℤ) (t : ChainSyncStatus.Rows) : State := loadChainState now t

/-- The attributes of an update; the earliest block is not among them. -/
def updateAttrs (chain : Chain) (params : Params) : ChainSyncStatus.Attrs where
  chainName := some chain.atom.name
  latestBlockNumber := some params.latestBlock
  latestBlockHash := some params.blockHash
  safeBlockNumber := some params.safeBlock
  syncStatus := some params.status.name

/-- The event of an update. -/
def syncStatusUpdated (env : Env) (chain : Chain) (params : Params) : Event where
  name := Event.named "chain" "sync_status_updated"
  measurements := [("timestamp", .int env.systemTime)]
  metadata := [("chain", .atom chain.atom), ("latest_block", .int params.latestBlock),
    ("safe_block", .int params.safeBlock), ("status", .atom params.status)]

/-- What becomes of an update, by what storing it ends in. -/
def afterUpdate (env : Env) (chain : Chain) (params : Params) (s : State) :
    Written ChainSyncStatus × ChainSyncStatus.Rows → Result × ChainSyncStatus.Rows
  | (.ok _, t) =>
    let chainState : ChainState :=
      { latestBlock := params.latestBlock
        safeBlock := params.safeBlock
        status := params.status
        lastUpdate := env.now }
    (.reply (.updated (.ok ())) (Function.update s chain chainState)
      [syncStatusUpdated env chain params], t)
  | (.error _, t) => (.reply (.updated (.error "invalid_status_update")) s [], t)
  | (.raise e, t) => (.raise e [], t)

/-- An update is stored as a new struct. -/
def updateChainStatus (env : Env) (chain : Chain) (params : Params) (s : State)
    (t : ChainSyncStatus.Rows) : Result × ChainSyncStatus.Rows :=
  afterUpdate env chain params s (Repo.insertOrUpdate (ChainSyncStatus.schema env.now)
    (ChainSyncStatus.changeset {} (updateAttrs chain params)) t)

/-- The hash stored for a block, looked up by the field `number` or `slot`. -/
def getStoredBlockHash (env : Env) (chain : Chain) (number : ℤ) : Except Exn (Option String) :=
  match chain with
  | .ethereum => do
    let block ← Repo.getBy EthereumBlock.fields "number" number env.ethereumBlocks.rows
    return block.map EthereumBlock.hash
  | .solana => do
    let block ← Repo.getBy SolanaBlock.fields "slot" number env.solanaBlocks.rows
    return block.map SolanaBlock.blockhash

/-- The event of a reorganisation. -/
def reorgDetected (env : Env) (chain : Chain) (number : ℤ) (newHash : String) : Event where
  name := Event.named "chain" "reorg_detected"
  measurements := [("timestamp", .int env.systemTime)]
  metadata := [("chain", .atom chain.atom), ("block_number", .int number),
    ("new_hash", Term.string newHash)]

/-- The block is not safe any more, and neither is any after it. -/
def handleReorgDetected (env : Env) (chain : Chain) (number : ℤ) (newHash : String) (s : State) :
    Result :=
  let chainState := { s chain with safeBlock := min (s chain).safeBlock (number - 1) }
  .reply (.reorg true) (Function.update s chain chainState) [reorgDetected env chain number newHash]

/-- A block with another hash than the stored one is a reorganisation. -/
def detectChainReorg (env : Env) (chain : Chain) (number : ℤ) (hash : String) (s : State) :
    Result :=
  match getStoredBlockHash env chain number with
  | .error e => .raise e []
  | .ok none => .reply (.reorg false) s []
  | .ok (some stored) =>
    if stored = hash then
      .reply (.reorg false) s []
    else
      handleReorgDetected env chain number hash s

/-- The block is the latest one, if it is after the one so far. -/
def doMarkProcessed (env : Env) (chain : Chain) (number : ℤ) (_hash : String) (s : State) : State :=
  if number > (s chain).latestBlock then
    Function.update s chain { s chain with latestBlock := number, lastUpdate := env.now }
  else
    s

/-- The messages, dispatched to their callbacks, with the table of the statuses. -/
def handle (env : Env) (msg : Msg) (s : State) (t : ChainSyncStatus.Rows) :
    Result × ChainSyncStatus.Rows :=
  match msg with
  | .getStatus chain => (.reply (.status (s chain)) s [], t)
  | .updateStatus chain params => updateChainStatus env chain params s t
  | .detectReorg chain number hash => (detectChainReorg env chain number hash s, t)
  | .markProcessed chain number hash => (.noreply (doMarkProcessed env chain number hash s) [], t)

/-! ## Runs -/

/-- The process, and the table of the sync statuses. -/
structure System where
  state : State
  statuses : ChainSyncStatus.Rows

/-- The process after the messages of a list, if none of them raises an error. -/
def handleAll (s : System) (ls : List (Env × Msg)) : Option System :=
  ls.foldlM (fun s l =>
    let r := handle l.1 l.2 s.state s.statuses
    r.1.next.map fun state => ⟨state, r.2⟩) s

/-- The process under its supervisor: an error ends it, and it is started anew. -/
def machine (now : ℤ) (t : ChainSyncStatus.Rows) : Machine System (Env × Msg) where
  init := ⟨init now t, t⟩
  step s l :=
    let r := handle l.1 l.2 s.state s.statuses
    some ⟨r.1.next.getD (init l.1.now r.2), r.2⟩

end ChainState

end Sylph.Sync

import Sylph.Sync.HistoricalSync

/-!
# The server of the syncer

`Core.Chain.Syncer` as a process, with its historical task.

* Once it has read the status of its chain (`:initialize`), the server starts the
  historical loop in a task linked to it, below the earliest block of the status
  (`{:start_sync, :historical}`), and answers questions about its state (`status`).
* `{:sync_progress, mode, block_number}` moves its earliest or latest block
  (`updateSyncProgress`).
* `System`: the server with its mailbox and its timers, and the loop. A pass of the loop
  sends the server nothing, and its end is the end of the server.

What the runtime answers while a message is handled is in `Env`. A block is `nil`
(`none`) before the initialization. Logging is left out, and the realtime loop, which
no message starts.
-/

namespace Sylph.Sync.Syncer

open Lib Elixir

/-! ## Server -/

/-- `Core.Schema.ChainSyncStatus`, as far as the syncer has to do with it. -/
structure ChainSyncStatus where
  chainName : Atom
  latestBlockNumber : ℤ
  latestBlockHash : Term
  earliestBlockNumber : ℤ
  safeBlockNumber : ℤ
  syncStatus : String

/-- The modes of synchronisation. -/
inductive SyncMode
  | historical
  | realtime
  deriving DecidableEq

/-- The state of the server. -/
structure State where
  chain : Chain
  syncStatus : Option ChainSyncStatus
  latestBlock : Option ℤ
  safeBlock : Option ℤ
  earliestBlock : Option ℤ
  historicalTask : Option ℕ
  realtimeTask : Option ℕ
  startTime : ℤ
  lastProgressReport : ℤ
  historicalRunning : Bool
  realtimeRunning : Bool
  initialized : Bool

/-- The messages of the server; the last one is a call. -/
inductive Msg
  /-- `:initialize` -/
  | initialization
  | startSync (mode : SyncMode)
  | syncProgress (mode : SyncMode) (blockNumber : ℤ)
  | getStatus
  deriving DecidableEq

/-- What the server does while it handles a message. -/
inductive Effect
  /-- A message to itself. -/
  | send (msg : Msg)
  /-- A message to itself, after a delay in seconds. -/
  | sendAfter (seconds : ℕ) (msg : Msg)
  /-- The task of the historical loop, started and linked, with the fields of the state
      that it computes its blocks from. -/
  | startHistorical (task : ℕ) (earliestBlock safeBlock : Option ℤ)
  | startRealtime (task : ℕ) (latestBlock : Option ℤ)
  /-- `:telemetry.execute`, of the progress of the synchronisation. -/
  | reportProgress (latestBlock earliestBlock safeBlock : Option ℤ)

/-- The reply to `:get_status`. -/
structure Status where
  chain : Chain
  latestBlock : Option ℤ
  safeBlock : Option ℤ
  earliestBlock : Option ℤ
  historicalRunning : Bool
  realtimeRunning : Bool
  uptime : ℤ

/-- The answers of the runtime while a message is handled. -/
structure Env where
  /-- `System.system_time(:second)` -/
  now : ℤ
  /-- `Repo.get`, of the status of the chain. -/
  get : Option ChainSyncStatus
  /-- The number and the hash of the latest block, by `EthereumClient.get_latest_block`. -/
  latestBlock : Except Term (ℤ × Term)
  /-- `Repo.insert`, of a valid or invalid changeset. -/
  insert : ChainSyncStatus → Result Term
  /-- `Task.start_link` -/
  startLink : Except Term ℕ

/-- The server before it has found its status. -/
def init (now : ℤ) (chain : Chain) : State where
  chain := chain
  syncStatus := none
  latestBlock := none
  safeBlock := none
  earliestBlock := none
  historicalTask := none
  realtimeTask := none
  startTime := now
  lastProgressReport := now
  historicalRunning := false
  realtimeRunning := false
  initialized := false

/-- The latest block of the chain, as its client answers; for Solana there is none. -/
def getChainLatestBlock (env : Env) : Chain → Except Term (ℤ × Term)
  | .ethereum => env.latestBlock
  | .solana => .error (.atom "not_implemented")

/-- The first status of a chain: its earliest and its safe block are the latest one. -/
def createInitialSyncStatus (env : Env) (chain : Chain) : Except Term ChainSyncStatus := do
  let (number, hash) ← getChainLatestBlock env chain
  let status : ChainSyncStatus := {
    chainName := chain.atom
    latestBlockNumber := number
    latestBlockHash := hash
    earliestBlockNumber := number
    safeBlockNumber := number
    syncStatus := "syncing" }
  env.insert status
  return status

/-- The status that is stored, or else a first one. -/
def initializeSyncStatus (env : Env) (chain : Chain) : Except Term ChainSyncStatus :=
  match env.get with
  | none => createInitialSyncStatus env chain
  | some status => .ok status

/-- The server is initialized with the status it has found. -/
def initializeSyncState (state : State) (syncStatus : ChainSyncStatus) : State :=
  { state with
    syncStatus := some syncStatus
    latestBlock := some syncStatus.latestBlockNumber
    safeBlock := some syncStatus.safeBlockNumber
    earliestBlock := some syncStatus.earliestBlockNumber
    initialized := true }

/-- The task of a mode is started, unless the server is not ready or the task is running. -/
def startSyncMode (env : Env) (mode : SyncMode) (state : State) :
    Except Term (State × List Effect) :=
  if !state.initialized then
    .ok (state, [])
  else
    match mode with
    | .historical =>
      if state.historicalRunning then
        .ok (state, [])
      else do
        let task ← env.startLink
        return ({ state with historicalTask := some task, historicalRunning := true },
          [.startHistorical task state.earliestBlock state.safeBlock])
    | .realtime =>
      if state.realtimeRunning then
        .ok (state, [])
      else do
        let task ← env.startLink
        return ({ state with realtimeTask := some task, realtimeRunning := true },
          [.startRealtime task state.latestBlock])

/-- The comparison `n < block`; an integer is less than `nil`. -/
def isBelow (n : ℤ) : Option ℤ → Bool
  | some block => n < block
  | none => true

/-- The comparison `n > block`. -/
def isAbove (n : ℤ) : Option ℤ → Bool
  | some block => n > block
  | none => false

/-- What a task reports moves one end of the range that is synchronised. -/
def updateSyncProgress (state : State) (mode : SyncMode) (blockNumber : ℤ) : State :=
  match mode with
  | .historical =>
    if isBelow blockNumber state.earliestBlock then
      { state with earliestBlock := some blockNumber }
    else
      state
  | .realtime =>
    if isAbove blockNumber state.latestBlock then
      { state with latestBlock := some blockNumber }
    else
      state

/-- Report the progress, if it is time to. That it has been reported is forgotten. -/
def reportSyncProgress (env : Env) (state : State) : List Effect :=
  if env.now - state.lastProgressReport ≥ 60 then
    [.reportProgress state.latestBlock state.earliestBlock state.safeBlock]
  else
    []

/-- The reply to `get_sync_status`. -/
def status (now : ℤ) (state : State) : Status where
  chain := state.chain
  latestBlock := state.latestBlock
  safeBlock := state.safeBlock
  earliestBlock := state.earliestBlock
  historicalRunning := state.historicalRunning
  realtimeRunning := state.realtimeRunning
  uptime := now - state.startTime

/-- The message at the head of the mailbox, dispatched to its callback. -/
def handle (env : Env) (msg : Msg) (state : State) : Outcome State Status Effect :=
  match msg with
  | .initialization =>
    match initializeSyncStatus env state.chain with
    | .ok syncStatus =>
      .noreply (initializeSyncState state syncStatus) [.send (.startSync .historical)]
    | .error _ => .noreply state [.sendAfter 10 .initialization]
  | .startSync mode =>
    match startSyncMode env mode state with
    | .ok (state, started) => .noreply state started
    | .error _ => .noreply state [.sendAfter 5 (.startSync mode)]
  | .syncProgress mode blockNumber =>
    let state := updateSyncProgress state mode blockNumber
    .noreply state (reportSyncProgress env state)
  | .getStatus => .reply (status env.now state) state []

/-! ## The server and its loop -/

/-- The historical task: what it has been started with, and where the loop is. -/
structure HistoricalTask where
  earliestBlock : ℤ
  safeBlock : ℤ
  loop : Loop

/-- The server with its mailbox, its timers and its historical task. -/
structure System where
  /-- The server, as long as it runs. -/
  server : Option State
  mailbox : List Msg
  /-- The messages to be sent after a delay. -/
  timers : List Msg
  /-- The historical task, once it has been started. -/
  task : Option HistoricalTask

namespace System

/-- The server has died, of itself or with the task it is linked to. -/
def crash (s : System) : System := { s with server := none }

/-- What the server does. The blocks of the loop are computed in the task, which does not
    survive `nil`. -/
def perform (s : System) : Effect → System
  | .send msg => { s with mailbox := s.mailbox ++ [msg] }
  | .sendAfter _ msg => { s with timers := s.timers ++ [msg] }
  | .startHistorical _ (some earliest) (some safe) =>
    { s with task := some ⟨earliest, safe, ⟨.at (earliest - 1), []⟩⟩ }
  | .startHistorical .. => s.crash
  | .startRealtime .. | .reportProgress .. => s

/-- The effects of a callback, in their order. -/
def performAll (s : System) (out : List Effect) : System := out.foldl perform s

/-- What happens next. -/
inductive Label
  /-- The server handles its `i`-th message. -/
  | server (env : Env) (i : ℕ)
  /-- A client calls `get_sync_status`. -/
  | getStatus
  /-- The `i`-th delay is over. -/
  | timer (i : ℕ)
  /-- A pass of the loop. -/
  | loop (answer : Answer)
  /-- The server dies. -/
  | crash

/-- The server handles a message. -/
def serverHandles (env : Env) (msg : Msg) (state : State) (s : System) : System :=
  let o := handle env msg state
  { s with server := o.next }.performAll o.out

/-- The task goes on with the loop, and takes the server with it when it ends. -/
def loopPasses (task : HistoricalTask) (loop : Loop) (s : System) : System :=
  let s := { s with task := some { task with loop := loop } }
  match loop.position with
  | .at _ => s
  | .ended _ => s.crash

/-- The step with a label, from a state in which it is enabled. -/
def step (chain : Chain) (s : System) : Label → Option System
  | .server env i =>
    match s.server, s.mailbox[i]? with
    | some state, some msg =>
      some ({ s with mailbox := s.mailbox.eraseIdx i }.serverHandles env msg state)
    | _, _ => none
  | .getStatus => some { s with mailbox := s.mailbox ++ [.getStatus] }
  | .timer i =>
    match s.timers[i]? with
    | some msg => some { s with mailbox := s.mailbox ++ [msg], timers := s.timers.eraseIdx i }
    | none => none
  | .loop answer =>
    match s.server, s.task with
    | some _, some task =>
      match (machine chain task.earliestBlock task.safeBlock).step task.loop answer with
      | some loop => some (s.loopPasses task loop)
      | none => none
    | _, _ => none
  | .crash => some s.crash

/-- The server of a chain, started at the time `now`. -/
def machine (now : ℤ) (chain : Chain) : Machine System Label where
  init := ⟨some (init now chain), [.initialization], [], none⟩
  step := step chain

end System

end Sylph.Sync.Syncer

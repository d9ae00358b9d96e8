import Sylph.DataProcessor.WorkerPool

/-!
# The workers

`Core.DataProcessor.Worker`: a process that handles one task after the other. The
task is dispatched on its type (`doProcessTask`) and its data on the chain they
name (`processBlock`, `processTransaction`), into the steps of the chain, none of
which does anything yet. An error raised on the way is caught (`processTask`) and
becomes an ordinary failure. In the end the worker reports the block to
`Core.DataProcessor.State` and the result to the pool (`handleInfo`); an error
raised there is not caught, and ends the worker.
-/

namespace Sylph.DataProcessor

open Lib Elixir

/-- The clients of the chains. -/
structure ChainClients where
  ethereum : Option Pid
  solana : Option Pid

/-- The state of a worker. -/
structure Worker (γ : Type) where
  currentTask : Option (Task γ)
  processedCount : ℕ
  chainClients : ChainClients

namespace Worker

variable {γ : Type}

/-- The answers of the runtime while a message is handled. -/
structure Env where
  /-- `System.system_time()` -/
  now : ℤ
  /-- The difference of two readings of `System.monotonic_time()`. -/
  duration : ℤ
  /-- `Exception.format` -/
  format : Exn → String

/-- The events of a worker. -/
def event (name : Atom) (measurements metadata : List (Atom × Term)) : Effect γ :=
  .execute ⟨Event.named "worker" name, measurements, metadata⟩

/-- The event executed by a worker that starts. -/
def startEvent (now : ℤ) (self : Pid) : Event :=
  ⟨Event.named "worker" "start", [("timestamp", .int now)], [("worker", .pid self)]⟩

/-- A worker that has just started. -/
def initial : Worker γ where
  currentTask := none
  processedCount := 0
  chainClients := ⟨none, none⟩

/-- The start of the worker: it executes the event `start`. -/
def init (now : ℤ) (self : Pid) : Outcome (Worker γ) Reply (Effect γ) :=
  .noreply initial [.execute (startEvent now self)]

/-! ## Clients -/

/-- The client the worker keeps for a chain. -/
def getChainClient (state : Worker γ) (chain : Atom) : Option Pid :=
  if chain = "ethereum" then state.chainClients.ethereum
  else if chain = "solana" then state.chainClients.solana
  else none

/-- `state` with the client of a chain, one of the two that have one. -/
def putChainClient (state : Worker γ) (chain : Atom) (client : Option Pid) : Worker γ :=
  if chain = "ethereum" then
    { state with chainClients := { state.chainClients with ethereum := client } }
  else if chain = "solana" then
    { state with chainClients := { state.chainClients with solana := client } }
  else state

/-- The functions that would create a client return `nil`. -/
def createChainClient (chain : Atom) : Except Exn (Option Pid) :=
  if chain = "ethereum" then .ok none
  else if chain = "solana" then .ok none
  else .error .functionClause

/-- A client is created for the chain of a task, unless there is one. -/
def ensureChainClient (state : Worker γ) (chain : Atom) : Except Exn (Worker γ) :=
  match getChainClient state chain with
  | some _ => .ok state
  | none => do
    let client ← createChainClient chain
    .ok (putChainClient state chain client)

/-- The chain a client is kept for. -/
def findClientChain (pid : Pid) (state : Worker γ) : Option Atom :=
  if state.chainClients.ethereum = some pid then some "ethereum"
  else if state.chainClients.solana = some pid then some "solana"
  else none

/-- A client that exits is not kept any longer. -/
def handleClientExit (pid : Pid) (state : Worker γ) : Worker γ :=
  match findClientChain pid state with
  | none => state
  | some chain => putChainClient state chain none

/-! ## Tasks -/

/-- A stub in the code. -/
def validateEthereumBlock (_block : Term) : Result Term := .ok ()
/-- A stub in the code. -/
def validateSolanaBlock (_block : Term) : Result Term := .ok ()
/-- A stub in the code. -/
def storeEthereumBlock (_block : Term) : Result Term := .ok ()
/-- A stub in the code. -/
def storeSolanaBlock (_block : Term) : Result Term := .ok ()
/-- A stub in the code. -/
def processEthereumTransactions (_client : Option Pid) (_block : Term) : Result Term := .ok ()
/-- A stub in the code. -/
def processSolanaTransactions (_client : Option Pid) (_block : Term) : Result Term := .ok ()

/-- The steps for a block of Ethereum, up to the first that fails. -/
def processEthereumBlock (client : Option Pid) (block : Term) : Except Term Unit := do
  validateEthereumBlock block
  storeEthereumBlock block
  processEthereumTransactions client block

/-- The steps for a block of Solana, up to the first that fails. -/
def processSolanaBlock (client : Option Pid) (block : Term) : Except Term Unit := do
  validateSolanaBlock block
  storeSolanaBlock block
  processSolanaTransactions client block

/-- A block is processed by the functions of the chain it names itself. -/
def processBlock (client : Option Pid) (block : Term) : Except Exn (Result Term) :=
  if block.hasAtom "chain" "ethereum" then .ok (processEthereumBlock client block)
  else if block.hasAtom "chain" "solana" then .ok (processSolanaBlock client block)
  else .error .functionClause

/-- A transaction is accepted, if it names its chain. -/
def processTransaction (_client : Option Pid) (tx : Term) : Except Exn (Result Term) :=
  if tx.hasAtom "chain" "ethereum" then .ok (.ok ())
  else if tx.hasAtom "chain" "solana" then .ok (.ok ())
  else .error .functionClause

/-- A task on the `key` of its data: a failure is logged under the value of `key`. -/
def logged (key : Atom) (task : Task γ) (result : Except Exn (Result Term)) :
    Except Exn (Result Term) := do
  match ← result with
  | .ok () => .ok (.ok ())
  | .error reason =>
    let _ ← task.data.fetch key
    .ok (.error reason)

/-- The task by its type; there is no clause for the type `token`. -/
def doProcessTask (task : Task γ) (state : Worker γ) : Except Exn (Result Term) :=
  let client := getChainClient state task.chain
  if task.type = "block" then logged "number" task (processBlock client task.data)
  else if task.type = "transaction" then logged "hash" task (processTransaction client task.data)
  else .error .functionClause

/-- The metadata of an event on a task. -/
def about (self : Pid) (task : Task γ) (more : List (Atom × Term)) : List (Atom × Term) :=
  ("worker", .pid self) :: ("chain", .atom task.chain) :: ("type", .atom task.type) ::
    ("attempt", .int task.attempt) :: more

/-- The result of a task, with the event that tells of it. -/
def processTask (env : Env) (self : Pid) (state : Worker γ) (task : Task γ) :
    Result Term × Worker γ × List (Effect γ) :=
  match doProcessTask task state with
  | .ok result =>
    (result,
      { state with currentTask := none, processedCount := state.processedCount + 1 },
      [event "task_complete"
        [("duration", .int env.duration), ("success", .ofBool result.isOk)] (about self task [])])
  | .error reason =>
    (.error reason.toTerm,
      { state with currentTask := none },
      [event "task_error" [("duration", .int env.duration)]
        (about self task [("error", .string (env.format reason))])])

/-- The report on a block, by the result of its task. -/
def report (chain : Atom) (number : Term) : Result Term → StateCast
  | .ok () => .markComplete chain number
  | .error _ => .markFailed chain number

/-- A task handled from a worker that has its client. -/
def finishTask (env : Env) (self : Pid) (task : Task γ) (state : Worker γ)
    (out : List (Effect γ)) : Outcome (Worker γ) Reply (Effect γ) :=
  let (result, state, done) := processTask env self state task
  match task.data.fetch "number" with
  | .error e => .raise e (out ++ done)
  | .ok number =>
    .noreply state (out ++ done ++
      [.cast (report task.chain number result), .send .pool (.taskComplete self result)])

/-- The messages of the worker: tasks, and exits of linked processes. -/
def handleInfo (env : Env) (self : Pid) (msg : Msg γ) (state : Worker γ) :
    Outcome (Worker γ) Reply (Effect γ) :=
  match msg with
  | .processTask task =>
    let started := [event "task_start" [("timestamp", .int env.now)] (about self task [])]
    match ensureChainClient state task.chain with
    | .error e => .raise e started
    | .ok state => finishTask env self task state started
  | .exit pid _ => .noreply (handleClientExit pid state) []
  | _ => .raise .functionClause []

end Worker

end Sylph.DataProcessor

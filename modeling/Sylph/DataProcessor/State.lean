import Mathlib.Data.Finset.Card
import Sylph.DataProcessor.Basic
import Sylph.Lib.Machine
import Sylph.Sync.BlockRange

/-!
# The state of the data processor

`Core.DataProcessor.State`: the process that keeps, for each chain, the last block
processed and the sets of the blocks in progress and of those that failed.

* The state of a chain is a map under atom keys, as built by `init`: those of Ethereum
  are `last_block`, `processing_blocks` and `failed_blocks`, those of Solana
  `last_slot`, `processing_slots` and `failed_slots`.
* The callbacks (`handle`) read and write the former on either chain; a key the map does
  not have is an error.
* `machine`: the process under its supervisor, which starts it anew after an error.
-/

namespace Sylph.DataProcessor.State

open Lib Elixir Sync

/-- A value in the state of a chain: a number, or a set of numbers. -/
inductive Value
  | int (n : ℤ)
  | set (s : Finset ℤ)
  deriving DecidableEq

/-- The state of a chain. -/
abbrev ChainState := Dict Atom Value

namespace ChainState

/-- The map `%{k => v, ..}`. -/
def ofEntries (entries : List (Atom × Value)) : ChainState :=
  entries.foldr (fun e m => m.insert e.1 e.2) ∅

/-- The value under a key. -/
def get? (m : ChainState) (k : Atom) : Option Value := m.lookup k

/-- The field access `m.k` of a number. -/
def fetchInt (m : ChainState) (k : Atom) : Except Exn ℤ :=
  match m.get? k with
  | some (.int n) => .ok n
  | some (.set _) => .error .argument
  | none => .error (.key k)

/-- The field access `m.k` of a set. -/
def fetchSet (m : ChainState) (k : Atom) : Except Exn (Finset ℤ) :=
  match m.get? k with
  | some (.set s) => .ok s
  | some (.int _) => .error .functionClause
  | none => .error (.key k)

/-- The update `%{m | k => v}`, of a key the map has. -/
def replace (m : ChainState) (k : Atom) (v : Value) : Except Exn ChainState :=
  if k ∈ m then .ok (m.insert k v) else .error (.key k)

end ChainState

end State

/-- The state of the process. -/
structure State where
  chains : Sync.Chain → State.ChainState
  startTime : ℤ

namespace State

open Lib Elixir Sync

/-- `Map.put(state, chain, m)` -/
def put (s : State) (chain : Chain) (m : ChainState) : State :=
  { s with chains := fun c => if c = chain then m else s.chains c }

@[simp] theorem put_chains_self (s : State) (chain : Chain) (m : ChainState) :
    (s.put chain m).chains chain = m := if_pos rfl

theorem put_chains_of_ne (s : State) {chain c : Chain} (h : c ≠ chain) (m : ChainState) :
    (s.put chain m).chains c = s.chains c := if_neg h

/-- What the process finds while it handles a message: the system time, in seconds and in
    native units. -/
structure Env where
  seconds : ℤ
  systemTime : ℤ

/-- The messages: three casts, a call, and the timer. -/
inductive Msg
  | markProcessing (chain : Chain) (number : ℤ)
  | markComplete (chain : Chain) (number : ℤ)
  | markFailed (chain : Chain) (number : ℤ)
  | getStats (chain : Chain)
  | reportMetrics

/-- The reply to `get_stats`. -/
structure Stats where
  lastProcessed : ℤ
  processingCount : ℕ
  failedCount : ℕ
  uptime : ℤ
  deriving DecidableEq

/-- What is counted of the blocks of the chain. -/
def Stats.counts (s : Stats) : ℤ × ℕ × ℕ := (s.lastProcessed, s.processingCount, s.failedCount)

/-- What the process does while it handles a message. -/
inductive Effect
  | execute (event : Event)
  /-- `Process.send_after(self(), msg, ms)` -/
  | sendAfter (msg : Msg) (ms : ℕ)

/-- What a callback comes to. -/
abbrev Result := Outcome State Stats Effect

/-! ## Callbacks -/

/-- The next report is due in a minute. -/
def scheduleMetricsReport : Effect := .sendAfter .reportMetrics (60 * 1000)

/-- The first state of Ethereum, with the keys the callbacks use. -/
def initEthereum : ChainState :=
  .ofEntries [("last_block", .int 0), ("processing_blocks", .set ∅), ("failed_blocks", .set ∅)]

/-- The first state of Solana, with keys of its own. -/
def initSolana : ChainState :=
  .ofEntries [("last_slot", .int 0), ("processing_slots", .set ∅), ("failed_slots", .set ∅)]

/-- The state when the process starts. -/
def init (env : Env) : State where
  chains
    | .ethereum => initEthereum
    | .solana => initSolana
  startTime := env.seconds

/-- The event of a block that has changed its status. -/
def reportStateChange (env : Env) (chain : Chain) (status : Atom) (number : ℤ) : Effect :=
  .execute
    { name := Event.named "data_processor" "block_status"
      measurements := [("timestamp", .int env.systemTime)]
      metadata := [("chain", .atom chain.atom), ("status", .atom status), ("number", .int number)] }

/-- A callback that computes the next state of a chain and reports the change. -/
def update (env : Env) (chain : Chain) (status : Atom) (number : ℤ) (s : State) :
    Except Exn ChainState → Result
  | .ok m => .noreply (s.put chain m) [reportStateChange env chain status number]
  | .error e => .raise e []

/-- The block is being processed. -/
def markProcessing (number : ℤ) (m : ChainState) : Except Exn ChainState := do
  let updatedProcessing := insert number (← m.fetchSet "processing_blocks")
  m.replace "processing_blocks" (.set updatedProcessing)

/-- The block is done, and may be the last one. -/
def markComplete (number : ℤ) (m : ChainState) : Except Exn ChainState := do
  let updatedProcessing := (← m.fetchSet "processing_blocks").erase number
  let updatedFailed := (← m.fetchSet "failed_blocks").erase number
  let lastNumber := max (← m.fetchInt "last_block") number
  let m ← m.replace "processing_blocks" (.set updatedProcessing)
  let m ← m.replace "failed_blocks" (.set updatedFailed)
  m.replace "last_block" (.int lastNumber)

/-- The block has failed. -/
def markFailed (number : ℤ) (m : ChainState) : Except Exn ChainState := do
  let updatedProcessing := (← m.fetchSet "processing_blocks").erase number
  let updatedFailed := insert number (← m.fetchSet "failed_blocks")
  let m ← m.replace "processing_blocks" (.set updatedProcessing)
  m.replace "failed_blocks" (.set updatedFailed)

/-- What is counted of a chain, for the statistics and for the metrics. -/
def counts (m : ChainState) : Except Exn (ℤ × ℕ × ℕ) := do
  let last ← m.fetchInt "last_block"
  let processing ← m.fetchSet "processing_blocks"
  let failed ← m.fetchSet "failed_blocks"
  return (last, processing.card, failed.card)

/-- The stats of a chain, from the keys of Ethereum. -/
def getStats (env : Env) (chain : Chain) (s : State) : Result :=
  match counts (s.chains chain) with
  | .ok (last, processing, failed) =>
    .reply
      { lastProcessed := last
        processingCount := processing
        failedCount := failed
        uptime := env.seconds - s.startTime } s []
  | .error e => .raise e []

/-- The event of a report on a chain. -/
def metrics (chain : Chain) : ℤ × ℕ × ℕ → Effect
  | (last, processing, failed) =>
    .execute
      { name := Event.named "data_processor" "state"
        measurements := [("last_processed", .int last), ("processing_count", .int processing),
          ("failed_count", .int failed)]
        metadata := [("chain", .atom chain.atom)] }

/-- The metrics of the chains, up to the first one that raises. -/
def reportMetrics (s : State) : List Chain → Except (Exn × List Effect) (List Effect)
  | [] => .ok []
  | chain :: chains =>
    match counts (s.chains chain) with
    | .error e => .error (e, [])
    | .ok c =>
      match reportMetrics s chains with
      | .error (e, out) => .error (e, metrics chain c :: out)
      | .ok out => .ok (metrics chain c :: out)

/-- The messages, dispatched to their callbacks. -/
def handle (env : Env) (msg : Msg) (s : State) : Result :=
  match msg with
  | .markProcessing chain number =>
    update env chain "processing" number s (markProcessing number (s.chains chain))
  | .markComplete chain number =>
    update env chain "complete" number s (markComplete number (s.chains chain))
  | .markFailed chain number =>
    update env chain "failed" number s (markFailed number (s.chains chain))
  | .getStats chain => getStats env chain s
  | .reportMetrics =>
    match reportMetrics s [.ethereum, .solana] with
    | .ok out => .noreply s (out ++ [scheduleMetricsReport])
    | .error (e, out) => .raise e out

/-! ## Runs -/

/-- The state after the messages of a list, if none of them raises an error. -/
def handleAll (s : State) (ls : List (Env × Msg)) : Option State :=
  ls.foldlM (fun s l => (handle l.1 l.2 s).next) s

theorem handleAll_concat (s : State) (ls : List (Env × Msg)) (l : Env × Msg) :
    handleAll s (ls ++ [l]) = (handleAll s ls).bind fun s => (handle l.1 l.2 s).next := by
  rw [handleAll, List.foldlM_append]
  simp only [List.foldlM_cons, List.foldlM_nil, bind_pure]
  rfl

/-- The statistics of a chain, asked for after the messages of a list. -/
def statsAfter (env₀ : Env) (ls : List (Env × Msg)) (env : Env) (chain : Chain) : Option Stats :=
  (handleAll (init env₀) ls).bind fun s => (handle env (.getStats chain) s).answer

/-- The process under its supervisor: an error ends it, and it is started anew. -/
def machine (env₀ : Env) : Machine State (Env × Msg) where
  init := init env₀
  step s l := some ((handle l.1 l.2 s).next.getD (init l.1))

end Sylph.DataProcessor.State

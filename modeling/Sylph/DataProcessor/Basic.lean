import Sylph.Lib.Dict
import Sylph.Lib.Elixir

/-!
# Tasks, messages and effects of the data processor

What the worker pool, its workers, the monitor and their clients exchange:

* the tasks (`Task`), as built by `submitTask`;
* the messages (`Msg`) received by the three kinds of processes (`Proc`);
* what a process does while it handles a message (`Effect`);
* the telemetry events (`Event`), all named under the
  prefix of `Core.Telemetry.Events`.

A task carries a *ghost* value of a type `γ` the code knows nothing of: it is
written by the submission and only ever copied along with the task. For `γ` a
point, these are the tasks of the code; for `γ = ℕ`, tasks annotated by the
submission they come from, which an account of the tasks needs, since the code
itself keeps nothing that tells two equal submissions apart.
-/

namespace Sylph.DataProcessor

open Lib Elixir

/-- A worker process. -/
abbrev Pid := ℕ

/-- A monitor reference. -/
abbrev Ref := ℕ

/-- A task of the pool. -/
structure Task (γ : Type) where
  chain : Atom
  type : Atom
  data : Term
  attempt : ℕ
  startedAt : ℤ
  /-- Not in the code: an annotation carried along. -/
  ghost : γ

/-- A telemetry event, with what is executed along with it. -/
structure Event where
  name : List Atom
  measurements : List (Atom × Term)
  metadata : List (Atom × Term)

/-- The name of an event of a kind of process: `Events.prefix() ++ [process, name]`. -/
def Event.named (process name : Atom) : List Atom := ["core", process, name]

/-- The processes that exchange messages. -/
inductive Proc
  | pool
  | worker (pid : Pid)
  | monitor
  deriving DecidableEq

/-- The messages they receive; the first two are calls. -/
inductive Msg (γ : Type)
  | submitTask (task : Task γ)
  | getStats
  | startWorkers
  | exit (pid : Pid) (reason : ExitReason)
  | down (ref : Ref) (pid : Pid) (reason : ExitReason)
  | taskComplete (worker : Pid) (result : Result Term)
  | processTask (task : Task γ)
  | telemetryEvent (event : Event)
  | checkHealth

/-- The casts to `Core.DataProcessor.State`. -/
inductive StateCast
  | markProcessing (chain : Atom) (number : Term)
  | markComplete (chain : Atom) (number : Term)
  | markFailed (chain : Atom) (number : Term)

/-- What a process does while it handles a message. -/
inductive Effect (γ : Type)
  /-- `:telemetry.execute` -/
  | execute (event : Event)
  | send (dest : Proc) (msg : Msg γ)
  /-- A worker started, linked and monitored. -/
  | startLink (pid : Pid) (ref : Ref)
  /-- `Process.demonitor(ref, [:flush])` -/
  | demonitor (ref : Ref)
  | cast (msg : StateCast)

/-- The replies to calls. -/
inductive Reply
  | submitted (result : Result Atom)
  | stats (workerCount queueSize processingCount : ℕ)

section Map

/-! ### Changing annotations -/

variable {γ δ : Type} (f : γ → δ)

/-- The same task, with another ghost. -/
def Task.map (t : Task γ) : Task δ :=
  { t with ghost := f t.ghost }

@[simp] theorem Task.map_chain (t : Task γ) : (t.map f).chain = t.chain := rfl
@[simp] theorem Task.map_type (t : Task γ) : (t.map f).type = t.type := rfl
@[simp] theorem Task.map_attempt (t : Task γ) : (t.map f).attempt = t.attempt := rfl

/-- The same message, with other ghosts. -/
def Msg.map : Msg γ → Msg δ
  | submitTask t => submitTask (t.map f)
  | getStats => getStats
  | startWorkers => startWorkers
  | exit p r => exit p r
  | down m p r => down m p r
  | taskComplete w r => taskComplete w r
  | processTask t => processTask (t.map f)
  | telemetryEvent e => telemetryEvent e
  | checkHealth => checkHealth

/-- The same effect, with other ghosts. -/
def Effect.map : Effect γ → Effect δ
  | execute e => execute e
  | send p m => send p (m.map f)
  | startLink p m => startLink p m
  | demonitor m => demonitor m
  | cast c => cast c

@[simp] theorem Effect.map_execute (e : Event) : (execute e : Effect γ).map f = execute e := rfl

@[simp] theorem Effect.map_send (p : Proc) (m : Msg γ) :
    (send p m).map f = send p (m.map f) := rfl

@[simp] theorem Effect.map_startLink (p : Pid) (m : Ref) :
    (startLink p m : Effect γ).map f = startLink p m := rfl

@[simp] theorem Effect.map_demonitor (m : Ref) : (demonitor m : Effect γ).map f = demonitor m := rfl

@[simp] theorem Effect.map_cast (c : StateCast) : (cast c : Effect γ).map f = cast c := rfl

end Map

end Sylph.DataProcessor

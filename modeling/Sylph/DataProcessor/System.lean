import Mathlib.Logic.Function.Basic
import Sylph.DataProcessor.Monitor
import Sylph.DataProcessor.Worker
import Sylph.Lib.Machine

/-!
# The data processor as a system of processes

The pool, its workers and the monitor, each with its mailbox, the table of
telemetry handlers they share, and the clients that call the pool. A step is a
message arriving from outside, a process handling one of its messages, or the start
or the end of a process (`System.step`).

* The messages of different senders arrive in any order, so a process may handle any
  message of its mailbox.
* A worker that ends, of itself or not, sends the pool an `EXIT` message, as they are
  linked, and a `DOWN` message for its monitor, in either order; demonitoring with
  `:flush` takes out the latter.
* A telemetry event executed by a process runs its handlers there
  (`Monitor.execute`); the system keeps a record of the events executed with the
  messages their handlers sent (`emitted`), and of the messages the pool has handled
  (`received`).
-/

namespace Sylph.DataProcessor

open Lib Elixir

/-- A telemetry event executed by a process, and the messages its handlers sent. -/
structure Emission where
  self : Proc
  event : Event
  delivered : List (Proc × Msg Unit)

/-- The pool, its workers and the monitor, with their mailboxes. -/
structure System where
  /-- The pool, when it runs. -/
  pool : Option (WorkerPool Unit)
  /-- The workers that run. -/
  workers : Pid → Option (Worker Unit)
  /-- Whether the monitor runs. -/
  monitor : Bool
  handlers : Monitor.Handlers
  mailbox : Proc → List (Msg Unit)
  /-- The monitors the pool has set up. -/
  monitored : List (Ref × Pid)
  /-- The casts sent to `Core.DataProcessor.State`. -/
  casts : List StateCast
  emitted : List Emission
  received : List (Msg Unit)

namespace System

/-- Nothing runs yet. -/
def initial : System where
  pool := none
  workers _ := none
  monitor := false
  handlers := []
  mailbox _ := []
  monitored := []
  casts := []
  emitted := []
  received := []

/-! ## Effects -/

/-- The messages of one process replaced. -/
def setMailbox (p : Proc) (msgs : List (Msg Unit)) (s : System) : System :=
  { s with mailbox := Function.update s.mailbox p msgs }

/-- A message is put at the end of a mailbox. -/
def deliver (s : System) (d : Proc × Msg Unit) : System :=
  s.setMailbox d.1 (s.mailbox d.1 ++ [d.2])

/-- Messages are delivered, in their order. -/
def deliverAll (s : System) (ds : List (Proc × Msg Unit)) : System := ds.foldl deliver s

/-- The process `self` executes a telemetry event. -/
def emit (self : Proc) (event : Event) (s : System) : System :=
  let delivered := Monitor.execute s.handlers self event
  { s.deliverAll delivered with emitted := s.emitted ++ [⟨self, event, delivered⟩] }

/-- A worker starts, linked to the pool and monitored by it. -/
def spawn (pid : Pid) (ref : Ref) (s : System) : System :=
  { s.setMailbox (.worker pid) [] with
    workers := Function.update s.workers pid (some Worker.initial)
    monitored := s.monitored ++ [(ref, pid)] }

/-- Whether a message is that of the monitor `ref`. -/
def isDown (ref : Ref) : Msg Unit → Bool
  | .down r _ _ => r = ref
  | _ => false

/-- A monitor is removed, and what it may have sent already. -/
def demonitor (ref : Ref) (s : System) : System :=
  { s.setMailbox .pool ((s.mailbox .pool).filter fun m => !isDown ref m) with
    monitored := s.monitored.filter fun m => m.1 ≠ ref }

/-- What the process `self` does at the time `now`. -/
def perform (now : ℤ) (self : Proc) (s : System) : Effect Unit → System
  | .execute event => s.emit self event
  | .send dest msg => s.deliver (dest, msg)
  | .startLink pid ref => (s.spawn pid ref).emit (.worker pid) (Worker.startEvent now pid)
  | .demonitor ref => s.demonitor ref
  | .cast msg => { s with casts := s.casts ++ [msg] }

/-- The effects of a callback, in their order. -/
def performAll (now : ℤ) (self : Proc) (s : System) (out : List (Effect Unit)) : System :=
  out.foldl (perform now self) s

/-- The messages the link and the monitors of a worker send to the pool when it ends. -/
def exitSignals (s : System) (pid : Pid) (reason : ExitReason) (downFirst : Bool) :
    List (Proc × Msg Unit) :=
  let downs := (s.monitored.filter fun m => m.2 = pid).map fun m =>
    (.pool, .down m.1 pid reason)
  if downFirst then downs ++ [(.pool, .exit pid reason)] else (.pool, .exit pid reason) :: downs

/-- A worker exits, and those who watch it are told. -/
def exitWorker (pid : Pid) (reason : ExitReason) (downFirst : Bool) (s : System) : System :=
  { s.deliverAll (s.exitSignals pid reason downFirst) with
    workers := Function.update s.workers pid none
    monitored := s.monitored.filter fun m => m.2 ≠ pid }

/-- The mailbox of a process without its `i`-th message. -/
def take (p : Proc) (i : ℕ) (s : System) : System :=
  s.setMailbox p ((s.mailbox p).eraseIdx i)

/-! ## Steps -/

/-- What happens next. -/
inductive Label
  /-- A client calls `submit_task`. -/
  | submit (now : ℤ) (chain type : Atom) (data : Term)
  | getStats
  | startPool (env : WorkerPool.Env) (name : Atom) (size : ℕ)
  | startMonitor
  | stopMonitor
  /-- The timer of the health check. -/
  | tick
  /-- The pool handles its `i`-th message. -/
  | pool (env : WorkerPool.Env) (i : ℕ)
  /-- A worker handles its `i`-th message. -/
  | worker (env : Worker.Env) (pid : Pid) (i : ℕ) (downFirst : Bool)
  /-- The monitor handles its `i`-th message, executing some events of its own. -/
  | monitor (i : ℕ) (reports : List Monitor.Report)
  /-- A worker ends, for a reason of its own or of others. -/
  | kill (pid : Pid) (reason : ExitReason) (downFirst : Bool)

/-- The worker started by an effect. -/
def started : Effect Unit → Option Pid
  | .startLink pid _ => some pid
  | _ => none

/-- The workers started are new processes. -/
def Fresh (s : System) (out : List (Effect Unit)) : Prop :=
  (out.filterMap started).Nodup ∧ ∀ pid ∈ out.filterMap started, (s.workers pid).isNone

instance (s : System) (out : List (Effect Unit)) : Decidable (s.Fresh out) :=
  inferInstanceAs (Decidable (_ ∧ _))

/-- The pool handles the message `msg`. -/
def poolHandles (env : WorkerPool.Env) (msg : Msg Unit) (p : WorkerPool Unit) (s : System) :
    System :=
  let o := WorkerPool.handle env msg p
  { s.performAll env.now .pool o.out with
    pool := o.next
    received := s.received ++ [msg] }

/-- The worker `pid` handles the message `msg`. -/
def workerHandles (env : Worker.Env) (pid : Pid) (downFirst : Bool) (msg : Msg Unit)
    (w : Worker Unit) (s : System) : System :=
  let o := Worker.handleInfo env pid msg w
  let s := s.performAll env.now (.worker pid) o.out
  match o.next with
  | some w => { s with workers := Function.update s.workers pid (some w) }
  | none => s.exitWorker pid o.exitReason downFirst

/-- The monitor handles a message, with reports of its own. -/
def monitorHandles (reports : List Monitor.Report) (s : System) : System :=
  reports.foldl (fun s r => s.emit .monitor r.event) s

/-- The step with a label, from a state in which it is enabled. -/
def step (s : System) : Label → Option System
  | .submit now chain type data =>
    some (s.deliver (.pool, WorkerPool.submitTask now () chain type data))
  | .getStats => some (s.deliver (.pool, .getStats))
  | .startPool env name size =>
    match s.pool, (WorkerPool.init env name size : Outcome (WorkerPool Unit) _ _) with
    | none, .noreply p out =>
      some { (s.setMailbox .pool []).performAll env.now .pool out with pool := some p }
    | _, _ => none
  | .startMonitor =>
    if s.monitor then none
    else some { s.setMailbox .monitor [] with
      monitor := true
      handlers := Monitor.subscribeToEvents s.handlers }
  | .stopMonitor => if s.monitor then some { s with monitor := false } else none
  | .tick => if s.monitor then some (s.deliver (.monitor, .checkHealth)) else none
  | .pool env i =>
    match s.pool, (s.mailbox .pool)[i]? with
    | some p, some msg =>
      if s.Fresh (WorkerPool.handle env msg p).out then
        some ((s.take .pool i).poolHandles env msg p)
      else none
    | _, _ => none
  | .worker env pid i downFirst =>
    match s.workers pid, (s.mailbox (.worker pid))[i]? with
    | some w, some msg => some ((s.take (.worker pid) i).workerHandles env pid downFirst msg w)
    | _, _ => none
  | .monitor i reports =>
    match s.monitor, (s.mailbox .monitor)[i]? with
    | true, some _ => some ((s.take .monitor i).monitorHandles reports)
    | _, _ => none
  | .kill pid reason downFirst =>
    match s.workers pid with
    | some _ => some (s.exitWorker pid reason downFirst)
    | none => none

/-- The system, from the state in which nothing runs. -/
def machine : Machine System Label := ⟨initial, step⟩

/-- The steps as a relation, case by case. -/
inductive StepsTo (s : System) : Label → System → Prop
  | submit {now : ℤ} {chain type : Atom} {data : Term} :
    StepsTo s (.submit now chain type data)
      (s.deliver (.pool, WorkerPool.submitTask now () chain type data))
  | getStats : StepsTo s .getStats (s.deliver (.pool, .getStats))
  | startPool {env : WorkerPool.Env} {name : Atom} {size : ℕ} (hp : s.pool = none) :
    StepsTo s (.startPool env name size)
      { (s.setMailbox .pool []).performAll env.now .pool (WorkerPool.startEffects env name size)
        with pool := some (.initial name size) }
  | startMonitor :
    StepsTo s .startMonitor { s.setMailbox .monitor [] with
      monitor := true
      handlers := Monitor.subscribeToEvents s.handlers }
  | stopMonitor : StepsTo s .stopMonitor { s with monitor := false }
  | tick : StepsTo s .tick (s.deliver (.monitor, .checkHealth))
  | pool {env : WorkerPool.Env} {i : ℕ} {p : WorkerPool Unit} {msg : Msg Unit}
    (hp : s.pool = some p) (hm : msg ∈ s.mailbox .pool) :
    StepsTo s (.pool env i) ((s.take .pool i).poolHandles env msg p)
  | worker {env : Worker.Env} {pid : Pid} {i : ℕ} {downFirst : Bool} {w : Worker Unit}
    {msg : Msg Unit} (hw : s.workers pid = some w) (hm : msg ∈ s.mailbox (.worker pid)) :
    StepsTo s (.worker env pid i downFirst)
      ((s.take (.worker pid) i).workerHandles env pid downFirst msg w)
  | monitor {i : ℕ} {reports : List Monitor.Report} :
    StepsTo s (.monitor i reports) ((s.take .monitor i).monitorHandles reports)
  | kill {pid : Pid} {reason : ExitReason} {downFirst : Bool} :
    StepsTo s (.kill pid reason downFirst) (s.exitWorker pid reason downFirst)

theorem stepsTo_of_step {s s' : System} {l : Label} (h : s.step l = some s') : s.StepsTo l s' := by
  rcases l with ⟨now, chain, type, data⟩ | _ | ⟨env, name, size⟩ | _ | _ | _ | ⟨env, i⟩ |
    ⟨env, pid, i, downFirst⟩ | ⟨i, reports⟩ | ⟨pid, reason, downFirst⟩ <;> rw [step] at h
  · exact Option.some_inj.1 h ▸ .submit
  · exact Option.some_inj.1 h ▸ .getStats
  · rcases hp : s.pool with _ | p <;> rw [hp] at h
    · exact Option.some_inj.1 h ▸ .startPool hp
    · exact absurd h nofun
  · split at h
    · exact absurd h nofun
    · exact Option.some_inj.1 h ▸ .startMonitor
  · split at h
    · exact Option.some_inj.1 h ▸ .stopMonitor
    · exact absurd h nofun
  · split at h
    · exact Option.some_inj.1 h ▸ .tick
    · exact absurd h nofun
  · split at h
    · next p msg hp hm =>
      split at h
      · exact Option.some_inj.1 h ▸ .pool hp (List.mem_of_getElem? hm)
      · exact absurd h nofun
    · exact absurd h nofun
  · split at h
    · next w msg hw hm => exact Option.some_inj.1 h ▸ .worker hw (List.mem_of_getElem? hm)
    · exact absurd h nofun
  · split at h
    · exact Option.some_inj.1 h ▸ .monitor
    · exact absurd h nofun
  · split at h
    · exact Option.some_inj.1 h ▸ .kill
    · exact absurd h nofun

end System

end Sylph.DataProcessor

import Sylph.DataProcessor.Basic

/-!
# The connection registry

`Core.GRPC.ConnectionRegistry`: the process that keeps, for each key, the endpoint of its
connection, its status, and how often it has been tried to connect again.

* A key is registered once, as disconnected (`register`).
* A status that is reported is kept; one more attempt is counted for `:connecting`, and
  the count starts anew for the others (`ConnectionInfo.update`). A report about an
  unknown key is ignored (`updateStatus`).
* What a key is bound to only changes by its registration and the reports about it
  (`lookup_handle`).

Logging is left out.
-/

namespace Sylph.GRPC

open Lib Elixir DataProcessor

/-- The status of a connection. -/
inductive Status
  | connected
  | disconnected
  | connecting
  deriving DecidableEq

/-- A status, as the code names it. -/
def Status.atom : Status → Atom
  | connected => "connected"
  | disconnected => "disconnected"
  | connecting => "connecting"

/-- What the registry knows of a connection. -/
structure ConnectionInfo where
  endpoint : String
  status : Status
  lastConnected : Option ℤ
  reconnectAttempts : ℕ

/-- A connection of which a status is reported. -/
def ConnectionInfo.update (now : ℤ) (newStatus : Status) (connection : ConnectionInfo) :
    ConnectionInfo :=
  { connection with
    status := newStatus
    lastConnected := if newStatus = .connected then some now else connection.lastConnected
    reconnectAttempts :=
      if newStatus = .connecting then connection.reconnectAttempts + 1 else 0 }

/-- The state of the registry. -/
structure ConnectionRegistry where
  connections : Dict Atom ConnectionInfo

/-- The name of an event: `Events.prefix() ++ [:grpc, kind, name]`. -/
def eventName (kind name : Atom) : List Atom := ["core", "grpc", kind, name]

namespace ConnectionRegistry

/-- What the registry finds while it handles a message. -/
structure Env where
  /-- `DateTime.utc_now()` -/
  now : ℤ
  /-- `System.system_time()` -/
  systemTime : ℤ
  /-- The order in which the keys of the connections are listed. -/
  order : KeyOrder Atom

/-- The messages: all are calls but the last one. -/
inductive Msg
  | register (key : Atom) (endpoint : String)
  | getConnection (key : Atom)
  | listConnections
  | updateStatus (key : Atom) (newStatus : Status)

/-- The key a status is reported of. -/
def Msg.reported : Msg → Option Atom
  | updateStatus key _ => some key
  | register .. | getConnection _ | listConnections => none

/-- The replies to the calls. -/
inductive Reply
  | registered (result : Elixir.Result Atom)
  | connection (result : Except Atom ConnectionInfo)
  | connections (list : List (Atom × ConnectionInfo))

/-- What a callback comes to. -/
abbrev Result := Outcome ConnectionRegistry Reply Event

/-- The start of the registry, with no connection. -/
def init (env : Env) : Result :=
  .noreply ⟨∅⟩ [⟨eventName "registry" "start", [("timestamp", .int env.systemTime)], []⟩]

/-- A connection that is registered. -/
def newConnection (endpoint : String) : ConnectionInfo where
  endpoint := endpoint
  status := .disconnected
  lastConnected := none
  reconnectAttempts := 0

/-- The event of a registration. -/
def registered (env : Env) (key : Atom) (endpoint : String) : Event where
  name := eventName "connection" "registered"
  measurements := [("timestamp", .int env.systemTime)]
  metadata := [("key", .atom key), ("endpoint", Term.string endpoint)]

/-- The registration of a key: the answer, and the registry after it. -/
def register (env : Env) (key : Atom) (endpoint : String) (state : ConnectionRegistry) :
    Elixir.Result Atom × ConnectionRegistry × List Event :=
  if key ∈ state.connections then
    (.error "already_registered", state, [])
  else
    (.ok (), ⟨state.connections.insert key (newConnection endpoint)⟩,
      [registered env key endpoint])

/-- The connection of a key. -/
def getConnection (key : Atom) (state : ConnectionRegistry) : Except Atom ConnectionInfo :=
  match state.connections.lookup key with
  | some connection => .ok connection
  | none => .error "not_found"

/-- All connections, in the order of the map. -/
def listConnections (env : Env) (state : ConnectionRegistry) : List (Atom × ConnectionInfo) :=
  (env.order.list state.connections.keys).filterMap fun key =>
    (state.connections.lookup key).map (key, ·)

/-- The calls: a key is registered, or connections are asked for. -/
def handleCall (env : Env) (msg : Msg) (state : ConnectionRegistry) : Result :=
  match msg with
  | .register key endpoint =>
    let (result, state, out) := register env key endpoint state
    .reply (.registered result) state out
  | .getConnection key => .reply (.connection (getConnection key state)) state []
  | .listConnections => .reply (.connections (listConnections env state)) state []
  | .updateStatus .. => .raise .functionClause []

/-- The event of a report. -/
def statusChanged (env : Env) (key : Atom) (newStatus : Status) (attempts : ℕ) : Event where
  name := eventName "connection" "status_changed"
  measurements := [("timestamp", .int env.systemTime)]
  metadata := [("key", .atom key), ("status", .atom newStatus.atom), ("attempts", .int attempts)]

/-- A report about a key; one about an unknown key is ignored. -/
def updateStatus (env : Env) (key : Atom) (newStatus : Status) (state : ConnectionRegistry) :
    ConnectionRegistry × List Event :=
  match state.connections.lookup key with
  | some connection =>
    let updatedConnection := connection.update env.now newStatus
    (⟨state.connections.insert key updatedConnection⟩,
      [statusChanged env key newStatus updatedConnection.reconnectAttempts])
  | none => (state, [])

/-- The message at the head of the mailbox, dispatched to its callback. -/
def handle (env : Env) (msg : Msg) (state : ConnectionRegistry) : Result :=
  match msg with
  | .updateStatus key newStatus =>
    let (state, out) := updateStatus env key newStatus state
    .noreply state out
  | _ => handleCall env msg state

/-! ## What the functions do -/

variable {env : Env} {s s' : ConnectionRegistry} {key : Atom}

/-- A key is registered if it is not registered yet. -/
theorem register_ok_iff {endpoint : String} {out : List Event} :
    register env key endpoint s = (.ok (), s', out) ↔
      key ∉ s.connections ∧ s' = ⟨s.connections.insert key (newConnection endpoint)⟩ ∧
        out = [registered env key endpoint] := by
  rw [register]
  split
  · next h => simp [h]
  · next h => simp [h, eq_comm]

/-- A registration changes nothing under the keys that are bound. -/
theorem lookup_register_of_mem {k : Atom} {endpoint : String} (h : key ∈ s.connections) :
    (register env k endpoint s).2.1.connections.lookup key = s.connections.lookup key := by
  rw [register]
  split
  · rfl
  · next hk => exact AList.lookup_insert_ne fun he => hk (he ▸ h)

/-- A reported status is kept, and counted, if the key is known. -/
theorem lookup_updateStatus_self {newStatus : Status} :
    (updateStatus env key newStatus s).1.connections.lookup key =
      (s.connections.lookup key).map (·.update env.now newStatus) := by
  rw [updateStatus]
  split
  · next h => rw [h]; exact AList.lookup_insert _
  · next h => rw [h]; rfl

theorem lookup_updateStatus_of_ne {k : Atom} {newStatus : Status} (h : key ≠ k) :
    (updateStatus env k newStatus s).1.connections.lookup key = s.connections.lookup key := by
  rw [updateStatus]
  split
  · exact AList.lookup_insert_ne h
  · rfl

/-- The registry answers every message, and goes on. -/
theorem next_handle_isSome (env : Env) (msg : Msg) (s : ConnectionRegistry) :
    (handle env msg s).next.isSome := by
  cases msg <;> rfl

/-- What a bound key is bound to only changes by the reports about it. -/
theorem lookup_handle {msg : Msg} (h : key ∈ s.connections) (hm : msg.reported ≠ some key)
    (hn : (handle env msg s).next = some s') :
    s'.connections.lookup key = s.connections.lookup key := by
  cases msg with
  | register k endpoint =>
    obtain rfl := Option.some_inj.1 hn
    exact lookup_register_of_mem h
  | getConnection k =>
    obtain rfl := Option.some_inj.1 hn
    rfl
  | listConnections =>
    obtain rfl := Option.some_inj.1 hn
    rfl
  | updateStatus k newStatus =>
    obtain rfl := Option.some_inj.1 hn
    exact lookup_updateStatus_of_ne fun he => hm (congrArg some he.symm)

end ConnectionRegistry

end Sylph.GRPC

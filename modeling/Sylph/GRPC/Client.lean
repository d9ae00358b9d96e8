import Sylph.GRPC.ConnectionRegistry
import Sylph.Lib.Retry

/-!
# The client

`Core.GRPC.Client`: the process that keeps a connection to an endpoint, and its channel.

* It registers its key, which has to be new, and sends itself `:connect` (`init`).
* `:connect` makes an attempt. A channel is kept (`handleConnected`); a failure is followed by
  another `:connect` after a delay, as long as a retry is left (`handleConnectionError`). Each
  time the new status is cast to the registry.
* The channel is given out as long as the client is connected (`getChannel`).

The channels are of a type `χ` the code knows nothing of; the answer of `GRPC.Stub.connect`
is in `Env`. Logging is left out, and the termination of the process: what follows an exit of the
client is in `Sylph.GRPC.Supervision`.

`At` says what the state of the client is in each phase of its attempts; an attempt leads
to the phase the policy says, and sets the delay the policy says (`handleConnect_at`).
-/

namespace Sylph.GRPC

open Lib Elixir DataProcessor Retry

/-- `@default_retry_count` -/
def defaultRetryCount : ℕ := 3

/-- `@default_backoff_ms` -/
def defaultBackoffMs : ℕ := 1000

/-- `@max_backoff_ms` -/
def maxBackoffMs : ℕ := 30000

/-- The state of the client. -/
structure Client (χ : Type) where
  key : Atom
  endpoint : String
  channel : Option χ
  status : Status
  retryCount : ℕ
  maxRetries : ℕ
  backoffMs : ℕ
  timerRef : Option ℕ

namespace Client

variable {χ : Type}

/-- The options of the client. -/
structure Opts where
  key : Atom
  endpoint : String
  maxRetries : Option ℕ

/-- `Keyword.get(opts, :max_retries, @default_retry_count)` -/
def Opts.retries (opts : Opts) : ℕ := opts.maxRetries.getD defaultRetryCount

/-- The messages that have a clause: all are calls but the last one. Any other message ends the
    client, since `handle_info` has a clause for `:connect` only. -/
inductive Msg
  | getChannel
  | getStatus
  | connect
  deriving DecidableEq

/-- The replies to the calls. -/
inductive Reply (χ : Type)
  | channel (result : Except Atom χ)
  | status (s : Status)

/-- What the client does while it handles a message. -/
inductive Effect
  /-- `:telemetry.execute` -/
  | execute (event : Event)
  /-- A message to itself. -/
  | send (msg : Msg)
  /-- A message to itself, after a delay in milliseconds. -/
  | sendAfter (ref ms : ℕ) (msg : Msg)
  /-- A message to the registry. -/
  | cast (msg : ConnectionRegistry.Msg)

/-- What the client finds while it handles a message. -/
structure Env (χ : Type) where
  /-- `System.system_time()` -/
  systemTime : ℤ
  /-- How long it takes to connect. -/
  duration : ℤ
  /-- `GRPC.Stub.connect(endpoint)` -/
  connect : Except Term χ
  /-- The reference of the next timer. -/
  timer : ℕ

/-- What a callback comes to. -/
abbrev Result (χ : Type) := Outcome (Client χ) (Reply χ) Effect

/-! ## Callbacks -/

/-- The client before its first attempt. -/
def initial (opts : Opts) : Client χ where
  key := opts.key
  endpoint := opts.endpoint
  channel := none
  status := .disconnected
  retryCount := 0
  maxRetries := opts.retries
  backoffMs := defaultBackoffMs
  timerRef := none

/-- The start of the client, by the answer of the registry to its registration. -/
def init (opts : Opts) (registered : Elixir.Result Atom) : Result χ :=
  match registered with
  | .ok () => .noreply (initial opts) [.send .connect]
  -- `:ok = ConnectionRegistry.register(key, endpoint)`
  | .error _ => .raise .badMatch []

/-- The channel, as long as the status says that there is one. -/
def getChannel (state : Client χ) : Except Atom χ :=
  match state.status, state.channel with
  | .connected, some channel => .ok channel
  | _, _ => .error "not_connected"

/-- The calls; none changes the state. -/
def handleCall (msg : Msg) (state : Client χ) : Result χ :=
  match msg with
  | .getChannel => .reply (.channel (getChannel state)) state []
  | .getStatus => .reply (.status state.status) state []
  | .connect => .raise .functionClause []

/-- The event of an attempt. -/
def connectAttempt (env : Env χ) (endpoint : String) : Effect :=
  .execute {
    name := eventName "client" "connect_attempt"
    measurements := [("duration", .int env.duration)]
    metadata := [("endpoint", Term.string endpoint), ("success", Term.ofBool env.connect.isOk)] }

/-- The event of a success. -/
def connected (env : Env χ) (state : Client χ) : Effect :=
  .execute {
    name := eventName "client" "connected"
    measurements := [("timestamp", .int env.systemTime)]
    metadata := [("key", .atom state.key), ("endpoint", Term.string state.endpoint)] }

/-- The event of a failure. -/
def connectionError (env : Env χ) (reason : Term) (state : Client χ) : Effect :=
  .execute {
    name := eventName "client" "connection_error"
    measurements := [("timestamp", .int env.systemTime)]
    metadata := [("key", .atom state.key), ("endpoint", Term.string state.endpoint),
      ("error", reason)] }

/-- The report of a status to the registry. -/
def updateStatus (state : Client χ) (status : Status) : Effect :=
  .cast (.updateStatus state.key status)

/-- The channel is kept, and the retries start anew. -/
def handleConnected (env : Env χ) (channel : χ) (state : Client χ) : Client χ × List Effect :=
  ({ state with
      channel := some channel
      status := .connected
      retryCount := 0
      backoffMs := defaultBackoffMs
      timerRef := none },
    [connected env state, updateStatus state .connected])

/-- Another attempt is due after the delay, if a retry is left. -/
def handleConnectionError (env : Env χ) (reason : Term) (state : Client χ) :
    Client χ × List Effect :=
  if state.retryCount < state.maxRetries then
    ({ state with
        status := .connecting
        retryCount := state.retryCount + 1
        backoffMs := min (state.backoffMs * 2) maxBackoffMs
        timerRef := some env.timer },
      [connectionError env reason state, .sendAfter env.timer state.backoffMs .connect,
        updateStatus state .connecting])
  else
    ({ state with status := .disconnected, timerRef := none },
      [connectionError env reason state, updateStatus state .disconnected])

/-- An attempt to connect. -/
def handleConnect (env : Env χ) (state : Client χ) : Client χ × List Effect :=
  let (state', out) :=
    match env.connect with
    | .ok channel => handleConnected env channel state
    | .error reason => handleConnectionError env reason state
  (state', connectAttempt env state.endpoint :: out)

/-- The message at the head of the mailbox, dispatched to its callback. -/
def handle (env : Env χ) (msg : Msg) (state : Client χ) : Result χ :=
  match msg with
  | .connect =>
    let (state, out) := handleConnect env state
    .noreply state out
  | _ => handleCall msg state

/-! ## What the client does -/

/-- The message an effect leaves in the own mailbox. -/
def Effect.sent : Effect → Option Msg
  | send msg => some msg
  | _ => none

/-- The timer an effect sets: its delay, and the message. -/
def Effect.timer : Effect → Option (ℕ × Msg)
  | sendAfter _ ms msg => some (ms, msg)
  | _ => none

/-- The message to the registry. -/
def Effect.report : Effect → Option ConnectionRegistry.Msg
  | cast msg => some msg
  | _ => none

/-- The policy a client follows. -/
def policy (retries : ℕ) : Policy where
  retries := retries
  delay := doubling defaultBackoffMs maxBackoffMs

/-- The status of the client in a phase of its attempts. -/
def statusIn : Phase χ → Status
  | .trying 0 | .gaveUp => .disconnected
  | .trying (_ + 1) => .connecting
  | .succeeded _ => .connected

/-- How many retries are counted in a phase. -/
def countIn (m : ℕ) : Phase χ → ℕ
  | .trying n => n
  | .succeeded _ => 0
  | .gaveUp => m

/-- The channel in a phase. -/
def channelIn : Phase χ → Option χ
  | .succeeded channel => some channel
  | .trying _ | .gaveUp => none

/-- The state of a client in a phase of its attempts, with `m` retries. -/
structure At (m : ℕ) (phase : Phase χ) (s : Client χ) : Prop where
  maxRetries : s.maxRetries = m
  status : s.status = statusIn phase
  retryCount : s.retryCount = countIn m phase
  backoffMs : s.backoffMs = (policy m).delay s.retryCount
  channel : s.channel = channelIn phase

variable {env : Env χ} {s : Client χ} {m n : ℕ}

theorem delay_zero : (policy m).delay 0 = defaultBackoffMs :=
  doubling_zero (by decide)

/-- A client that has just started is before its first attempt. -/
theorem at_initial (opts : Opts) : At opts.retries (.trying 0) (initial opts : Client χ) :=
  ⟨rfl, rfl, rfl, delay_zero.symm, rfl⟩

/-- What an attempt leaves behind, whatever it does to the state: the messages sent, the
    timers set and the statuses reported, for what follows it in the policy. -/
structure Leaves (key : Atom) (next : Phase χ × Option ℕ) (out : List Effect) : Prop where
  sent : out.filterMap Effect.sent = []
  timers : out.filterMap Effect.timer = next.2.toList.map (·, .connect)
  reports : out.filterMap Effect.report = [.updateStatus key (statusIn next.1)]

/-- An attempt leads to the phase the policy says, and leaves behind what it says. -/
theorem handleConnect_at (env : Env χ) (h : At m (.trying n) s) (hle : n ≤ m) :
    At m ((policy m).next n env.connect).1 (handleConnect env s).1 ∧
      Leaves s.key ((policy m).next n env.connect) (handleConnect env s).2 := by
  have hn : s.retryCount = n := h.retryCount
  have hb : s.backoffMs = (policy m).delay n := hn ▸ h.backoffMs
  have hiff : s.retryCount < s.maxRetries ↔ n < (policy m).retries := by
    rw [hn, h.maxRetries]
    rfl
  rw [handleConnect]
  cases env.connect with
  | ok channel => exact ⟨⟨h.maxRetries, rfl, rfl, delay_zero.symm, rfl⟩, rfl, rfl, rfl⟩
  | error reason =>
    dsimp only
    rw [handleConnectionError, Policy.next]
    by_cases hlt : n < (policy m).retries
    · rw [if_pos (hiff.2 hlt), if_pos hlt, hb]
      exact ⟨⟨h.maxRetries, rfl, congrArg Nat.succ hn,
        (min_doubling_mul _ _ _).trans (congrArg (policy m).delay (congrArg Nat.succ hn).symm),
        h.channel⟩, rfl, rfl, rfl⟩
    · rw [if_neg (mt hiff.1 hlt), if_neg hlt]
      obtain rfl := Nat.le_antisymm hle (Nat.le_of_not_lt hlt)
      exact ⟨⟨h.maxRetries, rfl, hn, h.backoffMs, h.channel⟩, rfl, rfl, rfl⟩

theorem key_handleConnect (env : Env χ) (s : Client χ) : (handleConnect env s).1.key = s.key := by
  rw [handleConnect]
  cases env.connect with
  | ok channel => rfl
  | error reason =>
    dsimp only
    rw [handleConnectionError]
    split
    · rfl
    · rfl

theorem handle_connect (env : Env χ) (s : Client χ) :
    handle env .connect s = .noreply (handleConnect env s).1 (handleConnect env s).2 := rfl

/-- A call changes nothing. -/
theorem handleCall_eq {msg : Msg} (h : msg ≠ .connect) (env : Env χ) (s : Client χ) :
    ∃ reply, handle env msg s = .reply reply s [] := by
  cases msg with
  | getChannel => exact ⟨_, rfl⟩
  | getStatus => exact ⟨_, rfl⟩
  | connect => exact absurd rfl h

/-- The channel that is given out in a phase. -/
theorem getChannel_at {phase : Phase χ} (h : At m phase s) {channel : χ} :
    getChannel s = .ok channel ↔ phase = .succeeded channel := by
  rw [getChannel, h.status, h.channel]
  rcases phase with (_ | n) | channel' | _ <;> simp [statusIn, channelIn]

end Client

end Sylph.GRPC

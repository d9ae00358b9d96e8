import Sylph.GRPC.Connection

/-!
# The client of Ethereum

`Core.GRPC.EthereumClient`: the requests for a block, over the channel of the client of the key
`:ethereum`. A request that fails is made again, over the same channel (`executeWithRetry`).

* `getBlock_spec`: the block is the answer of the first request that does not fail, of four; the
  delays between them.
* `forever`: when the client has made its last attempt to connect, this is how it stays, as long
  as it lives. If it has given up, all requests are answered without being made.
-/

namespace Sylph.GRPC.EthereumClient

open Lib Elixir Retry

variable {χ α β : Type}

/-! ## Requests -/

/-- What a function of the stub comes to. -/
inductive Answer (α : Type)
  | returns (result : Except Term α)
  | raises (e : Exn)

/-- What is left of the requests when all of them have failed. -/
inductive Failure
  | error (reason : Term)
  | exception (e : Exn)

/-- A failure as it is returned: the error itself, or the exception. -/
def Failure.toTerm : Failure → Term
  | error reason => .tuple [.atom "error", reason]
  | exception e => e.toTerm

/-- The exceptions `retry` rescues. -/
def runtimeError : Exn := .exception "Elixir.RuntimeError"

/-- Whether a request is made again: an error, if it has failed. -/
def Answer.outcome : Answer α → Except Failure (Except Exn α)
  | returns (.ok response) => .ok (.ok response)
  | returns (.error reason) => .error (.error reason)
  | raises e => if e = runtimeError then .error (.exception e) else .ok (.error e)

/-- `@retry_config` -/
def retryConfig : Policy where
  retries := 3
  delay := doubling 1000 5000

/-- The requests that are made, numbered from 0. -/
def requests (fn : ℕ → Answer α) : List (Attempt Failure (Except Exn α)) :=
  retryConfig.attempts fun i => (fn i).outcome

/-- What the requests come to: a response, another exception, or the last failure. -/
def executeWithRetry (fn : ℕ → Answer α) : Except Failure (Except Exn α) :=
  retryConfig.result fun i => (fn i).outcome

/-- An error of `Core.GRPC.Client.get_channel`. -/
def channelError (reason : Atom) : Atom :=
  if reason = "not_connected" then reason else "connection_error"

/-- The channel of a client, if there is one under the key. -/
def getChannel : Option (Client χ) → Except Atom χ
  | none => .error (channelError "not_found")
  | some client => (client.getChannel).mapError channelError

/-- `get_latest_block` -/
def getLatestBlock (client : Option (Client χ)) (stub : χ → ℕ → Answer α) :
    Except Exn (Except Term α) :=
  match getChannel client with
  | .error reason => .ok (.error (Failure.error (.atom reason)).toTerm)
  | .ok channel =>
    match executeWithRetry (stub channel) with
    | .ok (.ok latestBlock) => .ok (.ok latestBlock)
    | .ok (.error e) => .error e
    | .error failure => .ok (.error failure.toTerm)

/-- The message of a `GRPC.RPCError`. -/
def rpcMessage (reason : Term) : Option Term :=
  if reason.hasAtom "__struct__" "Elixir.GRPC.RPCError" then reason.get? "message" else none

/-- The type of an error, and its message. -/
def blockError : Failure → Atom × Term
  | .exception _ => ("unexpected_error", .string "Internal error occurred")
  | .error reason =>
    if reason = .atom "not_connected" then
      ("connection_error", .string "No active gRPC connection")
    else
      match rpcMessage reason with
      | some message => ("rpc_error", message)
      | none => ("unexpected_error", .string "Internal error occurred")

/-- `get_block`, whose only clause is for numbers that are not negative. -/
def getBlock (client : Option (Client χ)) (stub : χ → ℤ → ℕ → Answer β) (blockNumber : ℤ) :
    Except Exn (Except (Atom × Term) β) :=
  if blockNumber < 0 then
    .error .functionClause
  else
    match getChannel client with
    | .error reason => .ok (.error (blockError (.error (.atom reason))))
    | .ok channel =>
      match executeWithRetry (stub channel blockNumber) with
      | .ok (.ok blockData) => .ok (.ok blockData)
      | .ok (.error e) => .error e
      | .error failure => .ok (.error (blockError failure))

/-! ## What they come to -/

/-- A request that is made again, if there are any left. -/
def Answer.Fails (answer : Answer α) : Prop :=
  (∃ reason, answer = .returns (.error reason)) ∨ answer = .raises runtimeError

variable {answer : Answer α} {fn : ℕ → Answer α} {response : α} {e : Exn}

theorem Answer.fails_iff : answer.Fails ↔ ∃ failure, answer.outcome = .error failure := by
  rcases answer with (reason | response) | e
  · exact iff_of_true (Or.inl ⟨reason, rfl⟩) ⟨_, rfl⟩
  · simp [Fails, outcome]
  · by_cases he : e = runtimeError
    · subst he
      exact iff_of_true (Or.inr rfl) ⟨.exception runtimeError, by simp [outcome]⟩
    · simp [Fails, outcome, he]

theorem Answer.outcome_eq_ok_ok : answer.outcome = .ok (.ok response) ↔
    answer = .returns (.ok response) := by
  rcases answer with (reason | r) | e'
  · simp [outcome]
  · simp [outcome]
  · by_cases he : e' = runtimeError <;> simp [outcome, he]

theorem Answer.outcome_eq_error_error {reason : Term} : answer.outcome = .error (.error reason) ↔
    answer = .returns (.error reason) := by
  rcases answer with (r | r) | e'
  · simp [outcome]
  · simp [outcome]
  · by_cases he : e' = runtimeError <;> simp [outcome, he]

theorem executeWithRetry_eq_ok_iff {done : Except Exn α} : executeWithRetry fn = .ok done ↔
    ∃ k ≤ 3, (∀ j < k, (fn j).Fails) ∧ (fn k).outcome = .ok done := by
  rw [executeWithRetry, Policy.result_eq_ok_iff]
  simp only [Answer.fails_iff]
  rfl

theorem executeWithRetry_eq_error_iff {failure : Failure} :
    executeWithRetry fn = .error failure ↔
      (∀ j < 3, (fn j).Fails) ∧ (fn 3).outcome = .error failure := by
  rw [executeWithRetry, Policy.result_eq_error_iff]
  simp only [Answer.fails_iff]
  rfl

/-- There are at most four requests, with delays that double. -/
theorem requests_spec (fn : ℕ → Answer α) : (requests fn).length ≤ 4 ∧
    ∀ (i : ℕ) a, (requests fn)[i]? = some a → a.Failed →
      a.wait = if i < 3 then some (min (1000 * 2 ^ i) 5000) else none := by
  obtain ⟨phase, hlog⟩ := retryConfig.log_attempts fun i => (fn i).outcome
  exact ⟨hlog.length_le, fun i a hi ha => hlog.wait_of_failed hi ha⟩

/-- What they come to is the outcome of the last one. -/
theorem exists_requests_eq (fn : ℕ → Answer α) :
    ∃ l a, requests fn = l ++ [a] ∧ a.result = executeWithRetry fn :=
  exists_attempts_eq (fun i => (fn i).outcome) 0 retryConfig.delays

/-- Only an error of the service has this type. -/
theorem blockError_eq_rpcError_iff {failure : Failure} {message : Term} :
    blockError failure = (Atom.mk "rpc_error", message) ↔
      ∃ reason, failure = .error reason ∧ rpcMessage reason = some message := by
  have hne : ∀ {type : Atom} {m : Term}, type ≠ Atom.mk "rpc_error" →
      (type, m) ≠ (Atom.mk "rpc_error", message) := fun h he => h (congrArg Prod.fst he)
  cases failure with
  | error reason =>
    simp only [blockError, Failure.error.injEq, exists_eq_left']
    by_cases hn : reason = .atom "not_connected"
    · subst hn
      exact iff_of_false (hne (by decide)) fun hm => by cases hm
    · rw [if_neg hn]
      rcases rpcMessage reason with _ | m
      · exact iff_of_false (hne (by decide)) fun hm => by cases hm
      · simp
  | exception e =>
    refine iff_of_false (hne (by decide)) ?_
    rintro ⟨reason, he, -⟩
    cases he

section

variable {client : Option (Client χ)} {stub : χ → ℤ → ℕ → Answer β} {blockNumber : ℤ}
  {blockData : β}

theorem getBlock_of_channel {channel : χ} (hn : 0 ≤ blockNumber)
    (hc : getChannel client = .ok channel) : getBlock client stub blockNumber =
      match executeWithRetry (stub channel blockNumber) with
      | .ok (.ok blockData) => .ok (.ok blockData)
      | .ok (.error e) => .error e
      | .error failure => .ok (.error (blockError failure)) := by
  rw [getBlock, if_neg (Int.not_lt.2 hn), hc]

theorem getBlock_of_error {reason : Atom} (hn : 0 ≤ blockNumber)
    (hc : getChannel client = .error reason) : getBlock client stub blockNumber =
      .ok (.error (blockError (.error (.atom reason)))) := by
  rw [getBlock, if_neg (Int.not_lt.2 hn), hc]

/-- The block is the answer to the first request that does not fail, ... -/
theorem getBlock_eq_ok_iff (hn : 0 ≤ blockNumber) :
    getBlock client stub blockNumber = .ok (.ok blockData) ↔
      ∃ channel, getChannel client = .ok channel ∧ ∃ k ≤ 3,
        (∀ j < k, (stub channel blockNumber j).Fails) ∧
          stub channel blockNumber k = .returns (.ok blockData) := by
  rcases hc : getChannel client with reason | channel
  · rw [getBlock_of_error hn hc]
    simp
  · rw [getBlock_of_channel hn hc]
    have hok : executeWithRetry (stub channel blockNumber) = .ok (.ok blockData) ↔ _ :=
      executeWithRetry_eq_ok_iff
    simp only [Answer.outcome_eq_ok_ok] at hok
    simp only [Except.ok.injEq, exists_eq_left', ← hok]
    rcases executeWithRetry (stub channel blockNumber) with failure | e | b <;> simp

/-- ... and an error that of the last one, if there is a channel. -/
theorem getBlock_eq_error_iff (hn : 0 ≤ blockNumber) {error : Atom × Term} :
    getBlock client stub blockNumber = .ok (.error error) ↔
      (∃ reason, getChannel client = .error reason ∧ blockError (.error (.atom reason)) = error) ∨
      ∃ channel, getChannel client = .ok channel ∧
        (∀ j < 3, (stub channel blockNumber j).Fails) ∧
          ∃ failure, (stub channel blockNumber 3).outcome = .error failure ∧
            blockError failure = error := by
  rcases hc : getChannel client with reason | channel
  · rw [getBlock_of_error hn hc]
    simp
  · rw [getBlock_of_channel hn hc]
    simp only [reduceCtorEq, false_and, exists_false, false_or, Except.ok.injEq, exists_eq_left']
    constructor
    · intro h
      rcases he : executeWithRetry (stub channel blockNumber) with failure | e | b <;> rw [he] at h
      · obtain ⟨hf, hl⟩ := executeWithRetry_eq_error_iff.1 he
        exact ⟨hf, failure, hl, Except.error.inj (Except.ok.inj h)⟩
      · cases h
      · cases h
    · rintro ⟨hf, failure, hl, rfl⟩
      rw [executeWithRetry_eq_error_iff.2 ⟨hf, hl⟩]

/-- The service is blamed if and only if the last request has failed with an error of gRPC. -/
theorem getBlock_eq_rpcError_iff (hn : 0 ≤ blockNumber) {message : Term} :
    getBlock client stub blockNumber = .ok (.error (Atom.mk "rpc_error", message)) ↔
      ∃ channel, getChannel client = .ok channel ∧
        (∀ j < 3, (stub channel blockNumber j).Fails) ∧
          ∃ reason, stub channel blockNumber 3 = .returns (.error reason) ∧
            rpcMessage reason = some message := by
  rw [getBlock_eq_error_iff hn]
  constructor
  · rintro (⟨reason, -, he⟩ | ⟨channel, hc, hf, failure, hl, he⟩)
    · obtain ⟨reason', hr, hm⟩ := blockError_eq_rpcError_iff.1 he
      cases hr
      cases hm
    · obtain ⟨reason, rfl, hm⟩ := blockError_eq_rpcError_iff.1 he
      exact ⟨channel, hc, hf, reason, Answer.outcome_eq_error_error.1 hl, hm⟩
  · rintro ⟨channel, hc, hf, reason, hl, hm⟩
    exact .inr ⟨channel, hc, hf, _, Answer.outcome_eq_error_error.2 hl,
      blockError_eq_rpcError_iff.2 ⟨reason, rfl, hm⟩⟩

end

/-- A block is the answer to the first of four requests that does not fail. If there is none, the
    error is that of the last one, which is an error of the service if it is one of gRPC. -/
theorem getBlock_spec (client : Option (Client χ)) (stub : χ → ℤ → ℕ → Answer β) (blockNumber : ℤ)
    (hn : 0 ≤ blockNumber) :
    (∀ blockData, getBlock client stub blockNumber = .ok (.ok blockData) ↔
      ∃ channel, getChannel client = .ok channel ∧ ∃ k ≤ 3,
        (∀ j < k, (stub channel blockNumber j).Fails) ∧
          stub channel blockNumber k = .returns (.ok blockData)) ∧
    (∀ error, getBlock client stub blockNumber = .ok (.error error) ↔
      (∃ reason, getChannel client = .error reason ∧ blockError (.error (.atom reason)) = error) ∨
      ∃ channel, getChannel client = .ok channel ∧
        (∀ j < 3, (stub channel blockNumber j).Fails) ∧
          ∃ failure, (stub channel blockNumber 3).outcome = .error failure ∧
            blockError failure = error) ∧
    (∀ message, getBlock client stub blockNumber = .ok (.error (Atom.mk "rpc_error", message)) ↔
      ∃ channel, getChannel client = .ok channel ∧
        (∀ j < 3, (stub channel blockNumber j).Fails) ∧
          ∃ reason, stub channel blockNumber 3 = .returns (.error reason) ∧
            rpcMessage reason = some message) ∧
    ∀ channel, (requests (stub channel blockNumber)).length ≤ 4 ∧
      ∀ (i : ℕ) a, (requests (stub channel blockNumber))[i]? = some a → a.Failed →
        a.wait = if i < 3 then some (min (1000 * 2 ^ i) 5000) else none :=
  ⟨fun _ => getBlock_eq_ok_iff hn, fun _ => getBlock_eq_error_iff hn,
    fun _ => getBlock_eq_rpcError_iff hn, fun channel => requests_spec (stub channel blockNumber)⟩

/-- A client that is connected. -/
def connectedClient : Client String where
  key := "ethereum"
  endpoint := "localhost:50051"
  channel := some "channel"
  status := .connected
  retryCount := 0
  maxRetries := 5
  backoffMs := defaultBackoffMs
  timerRef := none

/-- The service fails twice. -/
def failsTwice (_ : String) (blockNumber : ℤ) (i : ℕ) : Answer ℤ :=
  .returns (if i < 2 then .error (.atom "timeout") else .ok blockNumber)

/-- The service is unavailable, as a `GRPC.RPCError` says. -/
def unavailable : Term :=
  .map [("__struct__", .atom "Elixir.GRPC.RPCError"), ("message", .string "unavailable")]

/-- The service fails each time, in the end because it is unavailable. -/
def failsAlways (_ : String) (_ : ℤ) (i : ℕ) : Answer ℤ :=
  if i < 3 then .raises runtimeError else .returns (.error unavailable)

theorem getBlock_spec_failsTwice : (0 : ℤ) ≤ 7 ∧
    (getBlock (some connectedClient) failsTwice 7 = .ok (.ok 7) ∧
      ∃ channel, getChannel (some connectedClient) = .ok channel ∧ ∃ k ≤ 3,
        (∀ j < k, (failsTwice channel 7 j).Fails) ∧ failsTwice channel 7 k = .returns (.ok 7)) ∧
    getBlock (some connectedClient) failsAlways 7 =
      .ok (.error (Atom.mk "rpc_error", .string "unavailable")) := by
  have hb : getBlock (some connectedClient) failsTwice 7 = .ok (.ok 7) := rfl
  have hf : ∀ j < 3, (failsAlways "channel" 7 j).Fails := fun j hj =>
    .inr (if_pos hj)
  exact ⟨by decide, ⟨hb, ((getBlock_spec _ _ 7 (by decide)).1 7).1 hb⟩,
    ((getBlock_spec _ _ 7 (by decide)).2.2.1 _).2 ⟨"channel", rfl, hf, unavailable, rfl, rfl⟩⟩

/-! ## What they come to in the end -/

section

variable {env : ConnectionRegistry.Env} {opts : Client.Opts} {registry : ConnectionRegistry}
  {s₀ s s' : Connection χ} {ls : List (Connection.Label χ)}

theorem getChannel_of_disconnected {client : Client χ} (h : client.status = .disconnected) :
    getChannel (some client) = .error "not_connected" := by
  rw [getChannel, Client.getChannel, h]
  rfl

/-- When a client has made its last attempt to connect, it stays as it is, whatever calls and
    messages of its own it handles. If it has given up, so have the requests. -/
theorem forever (stub : χ → ℤ → ℕ → Answer β) (latest : χ → ℕ → Answer α)
    (h : Connection.start env opts registry = some s₀) (hs : (Connection.machine s₀).Reachable s)
    (ha : s.attempts ≠ []) (hc : s.client.status ≠ .connecting)
    (hr : (Connection.machine s).Run ls s') :
    s'.client = s.client ∧ s'.attempts = s.attempts ∧ (s.client.status = .disconnected →
      getLatestBlock (some s'.client) latest =
        .ok (.error (.tuple [.atom "error", .atom "not_connected"])) ∧
      ∀ blockNumber ≥ 0, getBlock (some s'.client) stub blockNumber =
        .ok (.error (Atom.mk "connection_error", .string "No active gRPC connection"))) := by
  obtain ⟨phase, hf⟩ := Connection.exists_follows h hs
  have hp : s.pending = 0 := hf.schedule.noPending (not_or.2 ⟨ha, hc⟩)
  obtain ⟨hclient, hattempts, -⟩ := Connection.run_of_pending hp hr
  refine ⟨hclient, hattempts, fun hd => ?_⟩
  have hch := getChannel_of_disconnected (hclient ▸ hd)
  refine ⟨?_, fun blockNumber hn => ?_⟩
  · rw [getLatestBlock, hch]
    rfl
  · rw [getBlock_of_error hn hch]
    rfl

/-- Nobody listens at the endpoint, twice. -/
theorem forever_unreachable : ∃ s₀ s s' : Connection String,
    Connection.start Connection.quiet Connection.unreachable ⟨∅⟩ = some s₀ ∧
    (Connection.machine s₀).exec [.handle Connection.refused, .timeout 0,
      .handle Connection.refused] = some s ∧
    (Connection.machine s).exec [.call .getChannel, .handle Connection.refused] = some s' ∧
    getBlock (some s'.client) failsTwice 7 =
      .ok (.error (Atom.mk "connection_error", .string "No active gRPC connection")) := by
  obtain ⟨s₀, s, s', h, he, ha, hd, he'⟩ : ∃ s₀ s s' : Connection String,
      Connection.start Connection.quiet Connection.unreachable ⟨∅⟩ = some s₀ ∧
      (Connection.machine s₀).exec [.handle Connection.refused, .timeout 0,
        .handle Connection.refused] = some s ∧ s.attempts.length = 2 ∧
      s.client.status = .disconnected ∧
      (Connection.machine s).exec [.call .getChannel, .handle Connection.refused] = some s' :=
    ⟨_, _, _, rfl, rfl, rfl, rfl, rfl⟩
  have hne : s.attempts ≠ [] := fun h => by
    rw [h] at ha
    cases ha
  have hc : s.client.status ≠ .connecting := fun hc => by
    rw [hd] at hc
    cases hc
  obtain ⟨-, -, hall⟩ := forever failsTwice (fun _ _ => (Answer.raises runtimeError : Answer ℤ)) h
    (Machine.reachable_of_exec he) hne hc (Machine.run_of_exec he')
  exact ⟨s₀, s, s', h, he, he', (hall hd).2 7 (by decide)⟩

end

end Sylph.GRPC.EthereumClient

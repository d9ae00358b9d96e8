import Sylph.Lib.Retry
import Sylph.Solana.Failover
import Sylph.Solana.Subscription

/-!
# The rotation of the endpoints

The client (`SolanaRpcClient`) is made of two lists of endpoints, and the task of a
subscription goes around in one of them: after a failure it goes on to the next WebSocket
endpoint, waiting longer each time.

* `Turn`: what a step makes of the endpoint and of the delay. It keeps both, or ends the task, it
  sets the delay back, or it goes on to the next endpoint.
* `Rotates`: hence the endpoint is in range, and the delay is the doubled one, by the
  reconnects in a row.
* `rotates_iff`: so it is in all runs if there is a WebSocket endpoint, which the client is
  made without asking for. Otherwise the task panics when it connects.
-/

namespace Sylph.Solana

open Lib

/-- A client of the cluster. The set of its active subscriptions is shared by all clones: it is
    in the state of the tasks. -/
structure SolanaRpcClient where
  client : MultiClient
  wsEndpoints : List String

/-- A client, if there is an endpoint for requests. -/
def SolanaRpcClient.new (rpcEndpoints wsEndpoints : List String) (config : RpcConfig) :
    Except RpcError SolanaRpcClient := do
  return { client := ← MultiClient.new rpcEndpoints config, wsEndpoints := wsEndpoints }

/-- The clients are made with the WebSocket endpoints as they are given. -/
theorem SolanaRpcClient.wsEndpoints_of_new {rpcEndpoints wsEndpoints : List String}
    {config : RpcConfig} {client : SolanaRpcClient}
    (h : SolanaRpcClient.new rpcEndpoints wsEndpoints config = .ok client) :
    client.wsEndpoints = wsEndpoints := by
  rw [SolanaRpcClient.new] at h
  rcases hm : MultiClient.new rpcEndpoints config with e | m
  · rw [hm] at h
    cases h
  · rw [hm] at h
    cases h
    rfl

namespace Subscription

variable {β : Type}

/-- What the task of a subscription of a client is started with. -/
def subscribeSlots (client : SolanaRpcClient) (subscriptionId : String) (blockOn : BlockOn) :
    Config :=
  ⟨subscriptionId, client.wsEndpoints, blockOn⟩

/-- The reconnects in a row after a step, by those before it. -/
def Label.reconnects (n : ℕ) : Label β → ℕ
  | connect (.error _) | subscribe (.error _) | streamEnd => n + 1
  | subscribe (.ok _) => 0
  | connect (.ok _) | notify _ | shutdown | close => n

/-- The reconnects in a row, since the start or the last subscription. -/
def reconnects (ls : List (Label β)) : ℕ := ls.foldl Label.reconnects 0

/-- The endpoint is in range, so that the modulus is not zero, nothing has panicked, and the
    delay is a second, doubled by each reconnect in a row up to a minute. -/
structure Rotates (cfg : Config) (ls : List (Label β)) (s : Task β) : Prop where
  pos : 0 < cfg.wsEndpoints.length
  inRange : s.currentEndpoint < cfg.wsEndpoints.length
  pc : s.pc ≠ .panicked
  delay : s.pc.running = true → s.reconnectDelay = Retry.doubling 1 60 (reconnects ls)
  le_delay : 1 ≤ s.reconnectDelay
  delay_le : s.reconnectDelay ≤ 60

/-- What a step makes of the endpoint and of the delay, if there is an endpoint. -/
inductive Turn (cfg : Config) (s : Task β) (l : Label β) (s' : Task β) : Prop
  | keep (endpoint : s'.currentEndpoint = s.currentEndpoint)
    (delay : s'.reconnectDelay = s.reconnectDelay)
    (pc : s'.pc = s.pc ∨ s.pc.running = true ∧ s'.pc = .subscribing)
    (reconnects : ∀ n, l.reconnects n = n)
  | ends (endpoint : s'.currentEndpoint = s.currentEndpoint)
    (delay : s'.reconnectDelay = s.reconnectDelay) (pc : s'.pc = .returned)
  | reset (endpoint : s'.currentEndpoint = s.currentEndpoint) (delay : s'.reconnectDelay = 1)
    (pc : s'.pc = .streaming) (reconnects : ∀ n, l.reconnects n = 0)
  | next (endpoint : s'.currentEndpoint = (s.currentEndpoint + 1) % cfg.wsEndpoints.length)
    (delay : s'.reconnectDelay = min (s.reconnectDelay * 2) 60) (pc : s'.pc = .connecting)
    (running : s.pc.running = true) (reconnects : ∀ n, l.reconnects n = n + 1)

variable {cfg : Config} {s s' : Task β} {l : Label β} {ls : List (Label β)}

@[simp] theorem reconnects_concat (ls : List (Label β)) (l : Label β) :
    reconnects (ls ++ [l]) = l.reconnects (reconnects ls) := by
  rw [reconnects, List.foldl_append]
  rfl

/-- The delay of a reconnect. -/
theorem reconnectDelay_handleReconnect (cfg : Config) (s : Task β) :
    (handleReconnect cfg s).reconnectDelay = min (s.reconnectDelay * 2) 60 := by
  change (if s.reconnectDelay * 2 > 60 then 60 else s.reconnectDelay * 2) = _
  split
  · next h => exact (Nat.min_eq_right (Nat.le_of_lt h)).symm
  · next h => exact (Nat.min_eq_left (Nat.le_of_not_lt h)).symm

/-- A reconnect goes on to the next endpoint, whatever has been sent before. -/
theorem turn_handleReconnect (hr : s.pc.running = true) (hl : ∀ n, l.reconnects n = n + 1)
    (sent : List (SlotUpdate β)) :
    Turn cfg s l (handleReconnect cfg { s with sent := sent }) :=
  .next rfl (reconnectDelay_handleReconnect cfg _) rfl hr hl

theorem turn_connect (hne : cfg.wsEndpoints ≠ []) (hi : InRange cfg s) (hpc : s.pc = .connecting)
    (result : Except String Unit) :
    Turn cfg s (.connect result) (connect cfg result s) := by
  have hr : s.pc.running = true := by rw [hpc]; rfl
  rcases connect_cases hi result with ⟨he, -⟩ | ⟨-, ⟨rfl, he⟩ | ⟨err, rfl, -, he⟩ | ⟨-, u, he⟩⟩
  · exact absurd he hne
  · rw [he]
    exact .keep rfl rfl (Or.inr ⟨hr, rfl⟩) (fun _ => rfl)
  · rw [he]
    exact .ends rfl rfl rfl
  · rcases result with err | ⟨⟩
    · rw [he]
      exact turn_handleReconnect hr (fun _ => rfl) _
    · -- A connection that is made is no reconnect.
      obtain ⟨endpoint, hx⟩ := Rust.exists_index_iff.2 (hi hne)
      rw [connect, hx]
      exact .keep rfl rfl (Or.inr ⟨hr, rfl⟩) (fun _ => rfl)

theorem turn_subscribe (hpc : s.pc = .subscribing) (result : Except String Unit) :
    Turn cfg s (.subscribe result) (subscribe cfg result s) := by
  have hr : s.pc.running = true := by rw [hpc]; rfl
  rcases result with err | ⟨⟩
  · rcases subscribe_cases cfg (.error err) s with ⟨he, -⟩ | ⟨_, -, -, he⟩ | ⟨-, u, he⟩
    · cases he
    · rw [he]
      exact .ends rfl rfl rfl
    · rw [he]
      exact turn_handleReconnect hr (fun _ => rfl) _
  · exact .reset rfl rfl rfl (fun _ => rfl)

/-- What a step does, if there is an endpoint. -/
theorem turn_of_step (hne : cfg.wsEndpoints ≠ []) (hi : InRange cfg s)
    (hs : step cfg s l = some s') : Turn cfg s l s' := by
  cases stepAt_of_step hs with
  | connect result hpc => exact turn_connect hne hi hpc result
  | subscribe result hpc => exact turn_subscribe hpc result
  | notify n =>
    rw [notify_frame]
    exact .keep rfl rfl (Or.inl rfl) (fun _ => rfl)
  | streamEnd hpc => exact turn_handleReconnect (by rw [hpc]; rfl) (fun _ => rfl) s.sent
  | shutdown => exact .ends rfl rfl rfl
  | close => exact .keep rfl rfl (Or.inl rfl) (fun _ => rfl)

namespace Turn

theorem inRange (h : Turn cfg s l s') (hi : s.currentEndpoint < cfg.wsEndpoints.length) :
    s'.currentEndpoint < cfg.wsEndpoints.length := by
  rcases h with ⟨he, -, -, -⟩ | ⟨he, -, -⟩ | ⟨he, -, -, -⟩ | ⟨he, -, -, -, -⟩
  · exact he ▸ hi
  · exact he ▸ hi
  · exact he ▸ hi
  · exact he ▸ Nat.mod_lt _ (Nat.zero_lt_of_lt hi)

theorem not_panicked (h : Turn cfg s l s') (hp : s.pc ≠ .panicked) : s'.pc ≠ .panicked := by
  rcases h with ⟨-, -, hpc | ⟨-, hpc⟩, -⟩ | ⟨-, -, hpc⟩ | ⟨-, -, hpc, -⟩ | ⟨-, -, hpc, -, -⟩
  · exact hpc ▸ hp
  all_goals
    rw [hpc]
    decide

theorem bounds (h : Turn cfg s l s') (hle : 1 ≤ s.reconnectDelay) (hge : s.reconnectDelay ≤ 60) :
    1 ≤ s'.reconnectDelay ∧ s'.reconnectDelay ≤ 60 := by
  rcases h with ⟨-, hd, -, -⟩ | ⟨-, hd, -⟩ | ⟨-, hd, -, -⟩ | ⟨-, hd, -, -, -⟩ <;> omega

/-- As long as the task runs, its delay is the one of the reconnects in a row. -/
theorem delay_eq (h : Turn cfg s l s') {n : ℕ}
    (hd : s.pc.running = true → s.reconnectDelay = Retry.doubling 1 60 n)
    (hr : s'.pc.running = true) : s'.reconnectDelay = Retry.doubling 1 60 (l.reconnects n) := by
  rcases h with ⟨-, hd', hpc, hl⟩ | ⟨-, -, hpc⟩ | ⟨-, hd', -, hl⟩ | ⟨-, hd', -, hrun, hl⟩
  · have hrun : s.pc.running = true := by
      rcases hpc with hpc | ⟨hrun, -⟩
      · exact hpc ▸ hr
      · exact hrun
    rw [hl, hd', hd hrun]
  · -- The task has ended.
    rw [hpc] at hr
    exact absurd hr Bool.false_ne_true
  · rw [hl, hd', Retry.doubling_zero (by decide)]
  · rw [hl, hd', hd hrun, Retry.min_doubling_mul]

end Turn

theorem Rotates.start (hne : cfg.wsEndpoints ≠ []) (active : Finset String) :
    Rotates cfg [] (start cfg active : Task β) where
  pos := List.length_pos_of_ne_nil hne
  inRange := List.length_pos_of_ne_nil hne
  pc := by simp [Subscription.start]
  delay _ := (Retry.doubling_zero (show 1 ≤ 60 by decide)).symm
  le_delay := le_rfl
  delay_le := show 1 ≤ 60 by decide

theorem Rotates.step (h : Rotates cfg ls s) (hs : step cfg s l = some s') :
    Rotates cfg (ls ++ [l]) s' := by
  have ht := turn_of_step (List.ne_nil_of_length_pos h.pos) (fun _ => h.inRange) hs
  obtain ⟨hle, hge⟩ := ht.bounds h.le_delay h.delay_le
  refine ⟨h.pos, ht.inRange h.inRange, ht.not_panicked h.pc, fun hr => ?_, hle, hge⟩
  rw [reconnects_concat]
  exact ht.delay_eq h.delay hr

/-- The tasks of a client that has been made rotate, in all runs, if and only if there is a
    WebSocket endpoint. -/
theorem rotates_iff {rpcEndpoints wsEndpoints : List String} {config : RpcConfig}
    {client : SolanaRpcClient}
    (h : SolanaRpcClient.new rpcEndpoints wsEndpoints config = .ok client) :
    (∀ (id : String) (blockOn : BlockOn) (active : Finset String) (ls : List (Label β))
      (s : Task β), (machine (subscribeSlots client id blockOn)
        (start (subscribeSlots client id blockOn) active)).Run ls s →
      Rotates (subscribeSlots client id blockOn) ls s) ↔ wsEndpoints ≠ [] := by
  have hws := SolanaRpcClient.wsEndpoints_of_new h
  constructor
  · intro hall
    have hrot := hall "" .completes ∅ [] _ .nil
    rw [← hws]
    exact List.ne_nil_of_length_pos hrot.pos
  · intro hne id blockOn active ls s hr
    have hne' : (subscribeSlots client id blockOn).wsEndpoints ≠ [] := hws.trans_ne hne
    exact hr.invariant (P := fun ls s => Rotates (subscribeSlots client id blockOn) ls s)
      (Rotates.start hne' active) fun ls s l s' _ hp hst => hp.step hst

/-- A client with two WebSocket endpoints. -/
def twoSockets : List String := ["ws://localhost:8900", "ws://localhost:8901"]

theorem rotates_iff_two : ∃ client : SolanaRpcClient,
    SolanaRpcClient.new ["http://localhost:8899"] twoSockets .default = .ok client ∧
    ((∀ (id : String) (blockOn : BlockOn) (active : Finset String) (ls : List (Label Unit))
      (s : Task Unit), (machine (subscribeSlots client id blockOn)
        (start (subscribeSlots client id blockOn) active)).Run ls s →
      Rotates (subscribeSlots client id blockOn) ls s) ↔ twoSockets ≠ []) := by
  obtain ⟨client, h⟩ : ∃ client,
      SolanaRpcClient.new ["http://localhost:8899"] twoSockets .default = .ok client := ⟨_, rfl⟩
  exact ⟨client, h, rotates_iff h⟩

/-- A client without WebSocket endpoints is made, and the task of its subscription panics. -/
theorem not_forall_rotates : ¬∀ (rpcEndpoints wsEndpoints : List String) (config : RpcConfig)
    (client : SolanaRpcClient) (id : String) (blockOn : BlockOn) (active : Finset String)
    (ls : List (Label Unit)) (s : Task Unit),
    SolanaRpcClient.new rpcEndpoints wsEndpoints config = .ok client →
      (machine (subscribeSlots client id blockOn)
        (start (subscribeSlots client id blockOn) active)).Run ls s →
      Rotates (subscribeSlots client id blockOn) ls s := by
  intro h
  obtain ⟨client, hc⟩ : ∃ client,
      SolanaRpcClient.new ["http://localhost:8899"] [] .default = .ok client := ⟨_, rfl⟩
  have hws := SolanaRpcClient.wsEndpoints_of_new hc
  -- There is no endpoint to connect to.
  have hidx : Rust.index (subscribeSlots client "slot-0" .panics).wsEndpoints 0 =
      .error (.indexOutOfBounds 0 0) := by
    rw [show (subscribeSlots client "slot-0" .panics).wsEndpoints = [] from hws]
    rfl
  obtain ⟨s, he, hpc⟩ : ∃ s, (machine (subscribeSlots client "slot-0" .panics)
      (start (subscribeSlots client "slot-0" .panics) ∅ : Task Unit)).exec
        [.connect (.ok ())] = some s ∧ s.pc = .panicked := by
    refine ⟨exit (subscribeSlots client "slot-0" .panics) .panicked
      (start (subscribeSlots client "slot-0" .panics) ∅), ?_, rfl⟩
    simp [Machine.exec, machine, step, connect, start, hidx]
  exact (h _ _ _ client "slot-0" .panics ∅ _ s hc (Machine.run_of_exec he)).pc hpc

end Subscription

end Sylph.Solana

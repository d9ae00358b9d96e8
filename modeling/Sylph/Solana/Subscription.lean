import Mathlib.Data.Finset.Basic
import Sylph.Lib.Machine
import Sylph.Lib.Rust
import Sylph.Solana.Client

/-!
# Subscriptions

The task of a subscription to the slots (`run_slot_subscription`): it connects to a
WebSocket endpoint, subscribes, and sends an update for each notification; when something
fails it goes on to the next endpoint, after a delay (`handleReconnect`).

* `Config`: the task has an id, which is in the set of the active subscriptions from before
  it starts, and a client, which is dropped when the task ends. What then becomes of the
  `block_on` in `Drop` is up to the runtime (`BlockOn`).
* `step`: the steps of the task, with the answers of the endpoint and of the node, the
  shutdown signal and the end of the receiver as labels.
* `delivers_iff`: as long as the root of a notification is before its slot, no block is ever
  fetched, so that the new roots (`newRoots`) are delivered only if there is none.
* `unregisters_iff`: a task that has returned is not active any more, if it has not returned
  because the receiver was closed when an endpoint failed to connect.
-/

namespace Sylph.Solana

open Lib Rust

/-- A notification of the node. -/
structure SlotInfo where
  slot : UInt64
  parent : UInt64
  root : UInt64

/-- The updates the receiver gets, with blocks in `β`. -/
inductive SlotUpdate (β : Type)
  | newSlot (info : SlotInfo)
  | newBlock (block : β)
  | error (e : RpcError)

/-- An update that follows a request for a block. -/
def SlotUpdate.isFetched {β : Type} : SlotUpdate β → Bool
  | newSlot _ => false
  | newBlock _ | error _ => true

namespace Subscription

variable {β : Type}

/-- What the runtime makes of `block_on`, called in the task it runs. -/
inductive BlockOn
  /-- The future runs to completion. -/
  | completes
  /-- It panics, as documented for an asynchronous context. -/
  | panics

/-- What a task is started with. -/
structure Config where
  subscriptionId : String
  wsEndpoints : List String
  blockOn : BlockOn

/-- Where the task is. -/
inductive Pc
  | connecting
  | subscribing
  | streaming
  | returned
  | panicked
  deriving DecidableEq

/-- The task has not ended. -/
def Pc.running : Pc → Bool
  | connecting | subscribing | streaming => true
  | returned | panicked => false

/-- The task, and the set of the active subscriptions, which it shares with others. -/
structure Task (β : Type) where
  pc : Pc
  currentEndpoint : ℕ
  /-- In seconds. -/
  reconnectDelay : ℕ
  /-- The receiver has been closed. -/
  closed : Bool
  /-- The updates the receiver gets. -/
  sent : List (SlotUpdate β)
  activeSubscriptions : Finset String

/-- A notification, with the answer of the node to a request for a block. -/
structure Notification (β : Type) where
  info : SlotInfo
  getBlock : UInt64 → Except RpcError β

/-- What happens next. -/
inductive Label (β : Type)
  /-- `PubsubClient::new(endpoint)` is answered. -/
  | connect (result : Except String Unit)
  /-- `slot_subscribe()` is answered. -/
  | subscribe (result : Except String Unit)
  | notify (n : Notification β)
  /-- The stream of the notifications ends. -/
  | streamEnd
  | shutdown
  /-- The receiver is closed. -/
  | close

/-- A task that has just been started, its id being inserted. -/
def start (cfg : Config) (active : Finset String) : Task β where
  pc := .connecting
  currentEndpoint := 0
  reconnectDelay := 1
  closed := false
  sent := []
  activeSubscriptions := insert cfg.subscriptionId active

/-- An update is sent: whether it has been, and the task after it. -/
def send (update : SlotUpdate β) (s : Task β) : Bool × Task β :=
  if s.closed then (false, s) else (true, { s with sent := s.sent ++ [update] })

/-- The subscription is not active any more. -/
def cleanup (cfg : Config) (s : Task β) : Task β :=
  { s with activeSubscriptions := s.activeSubscriptions.erase cfg.subscriptionId }

/-- `SolanaRpcClient::unsubscribe_all` -/
def unsubscribeAll : Finset String := ∅

/-- The task ends, and its client is dropped. -/
def exit (cfg : Config) (pc : Pc) (s : Task β) : Task β :=
  { s with
    pc := pc
    activeSubscriptions := match cfg.blockOn with
      | .completes => unsubscribeAll
      | .panics => s.activeSubscriptions }

/-- On to the next endpoint. There is one, since there has been one to connect to. -/
def handleReconnect (cfg : Config) (s : Task β) : Task β :=
  let nextDelay := s.reconnectDelay * 2
  { s with
    pc := .connecting
    currentEndpoint := (s.currentEndpoint + 1) % cfg.wsEndpoints.length
    reconnectDelay := if nextDelay > 60 then 60 else nextDelay }

/-- An attempt to connect to the current endpoint, whose index is checked. -/
def connect (cfg : Config) (result : Except String Unit) (s : Task β) : Task β :=
  match index cfg.wsEndpoints s.currentEndpoint with
  | .error _ => exit cfg .panicked s
  | .ok _ =>
    match result with
    | .ok () => { s with pc := .subscribing }
    | .error err =>
      match send (.error (.invalidResponse ("Failed to connect to WebSocket: " ++ err))) s with
      | (false, s) => exit cfg .returned s
      | (true, s) => handleReconnect cfg s

/-- An attempt to subscribe over the connection; a success resets the delay. -/
def subscribe (cfg : Config) (result : Except String Unit) (s : Task β) : Task β :=
  match result with
  | .ok () => { s with pc := .streaming, reconnectDelay := 1 }
  | .error err =>
    match send (.error (.invalidResponse ("Failed to subscribe: " ++ err))) s with
    | (false, s) => exit cfg .returned (cleanup cfg s)
    | (true, s) => handleReconnect cfg s

/-- The update for a block that has been fetched, or not. -/
def fetched : Except RpcError β → SlotUpdate β
  | .ok block => .newBlock block
  | .error err => .error err

/-- Whether the updates can be sent does not matter. -/
def notify (n : Notification β) (s : Task β) : Task β :=
  let s := (send (.newSlot n.info) s).2
  -- if is root slot, get block
  if n.info.root = n.info.slot then (send (fetched (n.getBlock n.info.slot)) s).2 else s

/-- The steps of the task, with the answers of the endpoints. -/
def step (cfg : Config) (s : Task β) (l : Label β) : Option (Task β) :=
  match s.pc, l with
  | .connecting, .connect result => some (connect cfg result s)
  | .subscribing, .subscribe result => some (subscribe cfg result s)
  | .streaming, .notify n => some (notify n s)
  | .streaming, .streamEnd => some (handleReconnect cfg s)
  | .streaming, .shutdown => some (exit cfg .returned (cleanup cfg s))
  | _, .close => some { s with closed := true }
  | _, _ => none

/-- The runs of a task from a state on. -/
def machine (cfg : Config) (s₀ : Task β) : Machine (Task β) (Label β) := ⟨s₀, step cfg⟩

variable {cfg : Config} {s s' s₀ : Task β} {l : Label β}

/-! ## The updates -/

/-- A task that has just subscribed, with a receiver. -/
structure Subscribed (s : Task β) : Prop where
  pc : s.pc = .streaming
  closed : s.closed = false
  sent : s.sent = []

/-- The updates that are to be sent: one for each notification with a root past all the
    earlier ones, with the block at this root. -/
def newRoots (earlier : List (Notification β)) : List (Notification β) → List (SlotUpdate β)
  | [] => []
  | n :: ns =>
    let updates := newRoots (earlier ++ [n]) ns
    if ∀ m ∈ earlier, m.info.root < n.info.root then
      fetched (n.getBlock n.info.root) :: updates
    else updates

@[simp] theorem isFetched_newSlot (info : SlotInfo) :
    (SlotUpdate.newSlot info : SlotUpdate β).isFetched = false := rfl

@[simp] theorem isFetched_fetched (r : Except RpcError β) : (fetched r).isFetched = true := by
  cases r <;> rfl

theorem send_of_closed {update : SlotUpdate β} (h : s.closed = true) :
    send update s = (false, s) := if_pos h

theorem send_of_open {update : SlotUpdate β} (h : s.closed = false) :
    send update s = (true, { s with sent := s.sent ++ [update] }) := if_neg (by simp [h])

/-- Sending changes nothing but the updates. -/
theorem send_frame (update : SlotUpdate β) (s : Task β) :
    (send update s).2 = { s with sent := (send update s).2.sent } := by
  rw [send]
  split <;> rfl

theorem notify_frame (n : Notification β) (s : Task β) :
    notify n s = { s with sent := (notify n s).sent } := by
  rw [notify]
  split
  · rw [send_frame, send_frame]
  · exact send_frame _ _

/-- What a notification adds to the updates. -/
theorem sent_notify {n : Notification β} (h : s.closed = false) :
    (notify n s).sent = s.sent ++ .newSlot n.info ::
      if n.info.root = n.info.slot then [fetched (n.getBlock n.info.slot)] else [] := by
  rw [notify, send_of_open h]
  split
  · rw [send_of_open (s := { s with sent := s.sent ++ [.newSlot n.info] }) h]
    exact List.append_assoc _ _ _
  · rfl

/-- All notifications are handled, as long as the task is subscribed. -/
theorem exec_notify (h : s₀.pc = .streaming) (ns : List (Notification β)) :
    (machine cfg s₀).exec (ns.map .notify) = some (ns.foldl (fun s n => notify n s) s₀) := by
  induction ns generalizing s₀ with
  | nil => rfl
  | cons n ns ih =>
    have hst : step cfg s₀ (.notify n) = some (notify n s₀) := by
      simp [step, h]
    have hpc : (notify n s₀).pc = .streaming := (congrArg Task.pc (notify_frame n s₀)).trans h
    exact (congrArg (· >>= _) hst).trans (ih hpc)

/-- A block is fetched for each notification whose root is its slot. -/
theorem filter_foldl_notify (h : s.closed = false) (ns : List (Notification β)) :
    (ns.foldl (fun s n => notify n s) s).sent.filter SlotUpdate.isFetched =
      s.sent.filter SlotUpdate.isFetched ++
        (ns.filter fun n => n.info.root = n.info.slot).map
          fun n => fetched (n.getBlock n.info.slot) := by
  induction ns generalizing s with
  | nil => simp
  | cons n ns ih =>
    have hc : (notify n s).closed = false := (congrArg Task.closed (notify_frame n s)).trans h
    rw [List.foldl_cons, ih hc, sent_notify h]
    by_cases hr : n.info.root = n.info.slot
    · simp [hr]
    · simp [hr]

/-- While the root of each notification is before its slot, the new roots are delivered if and
    only if there is no notification: the first one has a new root already. -/
theorem delivers_iff (h₀ : Subscribed s₀) {ns : List (Notification β)}
    (hroot : ∀ n ∈ ns, n.info.root < n.info.slot)
    (h : (machine cfg s₀).Run (ns.map .notify) s) :
    s.sent.filter SlotUpdate.isFetched = newRoots [] ns ↔ ns = [] := by
  have he := Machine.exec_of_run h
  rw [exec_notify h₀.pc] at he
  obtain rfl := Option.some_inj.1 he
  rw [filter_foldl_notify h₀.closed, h₀.sent]
  -- No notification meets the test for a block.
  have hnone : (ns.filter fun n => n.info.root = n.info.slot) = [] := by
    rw [List.filter_eq_nil_iff]
    intro n hn
    simpa using (UInt64.ne_of_lt (hroot n hn))
  rw [hnone]
  cases ns with
  | nil => simp [newRoots]
  | cons n ns => simp [newRoots]

/-- An endpoint, and a runtime that does as documented. -/
def localConfig : Config := ⟨"slot-0", ["ws://localhost:8900"], .panics⟩

/-- A task that has just subscribed. -/
def subscribed : Task Unit := { start localConfig ∅ with pc := .streaming }

theorem subscribed_subscribed : Subscribed subscribed := ⟨rfl, rfl, rfl⟩

/-- The notifications of a cluster that is one slot ahead of its root. -/
def ahead : List (Notification Unit) :=
  [⟨⟨1, 0, 0⟩, fun _ => .ok ()⟩, ⟨⟨2, 1, 1⟩, fun _ => .ok ()⟩]

theorem root_lt_slot_ahead : ∀ n ∈ ahead, n.info.root < n.info.slot := by
  simp [ahead]

theorem delivers_iff_ahead : ∃ s,
    (machine localConfig subscribed).exec (ahead.map .notify) = some s ∧
    (s.sent.filter SlotUpdate.isFetched = newRoots [] ahead ↔ ahead = []) := by
  obtain ⟨s, he⟩ : ∃ s, (machine localConfig subscribed).exec (ahead.map .notify) = some s :=
    ⟨_, exec_notify rfl ahead⟩
  exact ⟨s, he, delivers_iff subscribed_subscribed root_lt_slot_ahead (Machine.run_of_exec he)⟩

/-- The new roots are not delivered. -/
theorem not_forall_delivers : ¬∀ (cfg : Config) (s₀ s : Task Unit) (ns : List (Notification Unit)),
    Subscribed s₀ → ns.Pairwise (fun m n => m.info.root ≤ n.info.root) →
      (∀ n ∈ ns, n.info.root < n.info.slot) → (machine cfg s₀).Run (ns.map .notify) s →
        s.sent.filter SlotUpdate.isFetched = newRoots [] ns := by
  intro h
  have he := h localConfig subscribed _ ahead subscribed_subscribed (by simp [ahead])
    root_lt_slot_ahead (Machine.run_of_exec (exec_notify rfl ahead))
  rw [filter_foldl_notify rfl] at he
  simp [ahead, newRoots, subscribed, start] at he

/-! ## The set of the active subscriptions -/

/-- The index of the endpoint is in range, if there is one. -/
def InRange (cfg : Config) (s : Task β) : Prop :=
  cfg.wsEndpoints ≠ [] → s.currentEndpoint < cfg.wsEndpoints.length

theorem inRange_handleReconnect (cfg : Config) (s : Task β) :
    InRange cfg (handleReconnect cfg s) :=
  fun hne => Nat.mod_lt _ (List.length_pos_of_ne_nil hne)

/-- A connection is made, an error is reported, or the task ends: because there is no
    endpoint, or because nobody receives the error. -/
theorem connect_cases (h : InRange cfg s) (result : Except String Unit) :
    (cfg.wsEndpoints = [] ∧ connect cfg result s = exit cfg .panicked s) ∨
    (cfg.wsEndpoints ≠ [] ∧
      ((result = .ok () ∧ connect cfg result s = { s with pc := .subscribing }) ∨
      (∃ err, result = .error err ∧ s.closed = true ∧
        connect cfg result s = exit cfg .returned s) ∨
      (s.closed = false ∧ ∃ update, connect cfg result s =
        handleReconnect cfg { s with sent := s.sent ++ [update] }))) := by
  by_cases hne : cfg.wsEndpoints = []
  · refine Or.inl ⟨hne, ?_⟩
    cases result <;> simp [connect, hne, index]
  · obtain ⟨endpoint, hi⟩ := exists_index_iff.2 (h hne)
    refine Or.inr ⟨hne, ?_⟩
    -- The error is reported, if there is somebody to receive it.
    rcases result with err | ⟨⟩
    · rw [connect, hi]
      rcases Bool.eq_false_or_eq_true s.closed with hc | hc
      · rw [send_of_closed hc]
        exact Or.inr (Or.inl ⟨err, rfl, hc, rfl⟩)
      · rw [send_of_open hc]
        exact Or.inr (Or.inr ⟨hc, _, rfl⟩)
    · rw [connect, hi]
      exact Or.inl ⟨rfl, rfl⟩

/-- A subscription is made, an error is reported, or the task ends, cleaning up. -/
theorem subscribe_cases (cfg : Config) (result : Except String Unit) (s : Task β) :
    (result = .ok () ∧
      subscribe cfg result s = { s with pc := .streaming, reconnectDelay := 1 }) ∨
    (∃ err, result = .error err ∧ s.closed = true ∧
      subscribe cfg result s = exit cfg .returned (cleanup cfg s)) ∨
    (s.closed = false ∧ ∃ update, subscribe cfg result s =
      handleReconnect cfg { s with sent := s.sent ++ [update] }) := by
  rcases result with err | ⟨⟩
  · rw [subscribe]
    rcases Bool.eq_false_or_eq_true s.closed with hc | hc
    · rw [send_of_closed hc]
      exact Or.inr (Or.inl ⟨err, rfl, hc, rfl⟩)
    · rw [send_of_open hc]
      exact Or.inr (Or.inr ⟨hc, _, rfl⟩)
  · exact Or.inl ⟨rfl, rfl⟩

/-- A task that cleans up is not active, whatever becomes of its client. -/
theorem not_mem_exit_cleanup (cfg : Config) (pc : Pc) (s : Task β) :
    cfg.subscriptionId ∉ (exit cfg pc (cleanup cfg s)).activeSubscriptions := by
  rw [exit]
  cases cfg.blockOn with
  | completes => exact Finset.notMem_empty _
  | panics => exact Finset.notMem_erase _ _

/-- A step ends the task, if it can be taken. -/
def Label.ends (cfg : Config) (s : Task β) : Label β → Bool
  | connect result => cfg.wsEndpoints = [] || (!result.isOk && s.closed)
  | subscribe result => !result.isOk && s.closed
  | shutdown => true
  | notify _ | streamEnd | close => false

/-- An endpoint has failed to connect, and nobody receives the error. -/
def Unheard (cfg : Config) (s : Task β) (l : Label β) : Prop :=
  (∃ err, l = .connect (.error err)) ∧ s.closed = true ∧ cfg.wsEndpoints ≠ []

/-- What a step does: the task goes on, with the set as it was, or it ends, in three ways. -/
inductive StepsTo (cfg : Config) (s : Task β) (l : Label β) : Task β → Prop
  | goesOn {s' : Task β} (inRange : InRange cfg s') (ends : l.ends cfg s = false)
    (pc : s'.pc = s.pc ∨ (s.pc.running = true ∧ s'.pc.running = true))
    (active : s'.activeSubscriptions = s.activeSubscriptions) : StepsTo cfg s l s'
  | cleansUp (running : s.pc.running = true) (ends : l.ends cfg s = true)
    (heard : ¬Unheard cfg s l) : StepsTo cfg s l (exit cfg .returned (cleanup cfg s))
  | abandons (running : s.pc.running = true) (ends : l.ends cfg s = true)
    (unheard : Unheard cfg s l) : StepsTo cfg s l (exit cfg .returned s)
  | panics (running : s.pc.running = true) (ends : l.ends cfg s = true)
    (heard : ¬Unheard cfg s l) : StepsTo cfg s l (exit cfg .panicked s)

theorem stepsTo_connect (h : InRange cfg s) (hr : s.pc.running = true)
    (result : Except String Unit) : StepsTo cfg s (.connect result) (connect cfg result s) := by
  rcases connect_cases h result with ⟨hne, he⟩ | ⟨hne, ⟨rfl, he⟩ | ⟨err, rfl, hc, he⟩ | ⟨hc, u, he⟩⟩
  · rw [he]
    exact .panics hr (by simp [Label.ends, hne]) fun hu => hu.2.2 hne
  · rw [he]
    exact .goesOn h (by simp [Label.ends, hne, Except.isOk, Except.toBool]) (Or.inr ⟨hr, rfl⟩) rfl
  · rw [he]
    exact .abandons hr (by simp [Label.ends, hc, Except.isOk, Except.toBool])
      ⟨⟨err, rfl⟩, hc, hne⟩
  · rw [he]
    exact .goesOn (inRange_handleReconnect cfg _) (by simp [Label.ends, hne, hc])
      (Or.inr ⟨hr, rfl⟩) rfl

theorem stepsTo_subscribe (h : InRange cfg s) (hr : s.pc.running = true)
    (result : Except String Unit) :
    StepsTo cfg s (.subscribe result) (subscribe cfg result s) := by
  have heard : ¬Unheard cfg s (.subscribe result) := by
    rintro ⟨⟨err, he⟩, -⟩
    cases he
  rcases subscribe_cases cfg result s with ⟨rfl, he⟩ | ⟨err, rfl, hc, he⟩ | ⟨hc, u, he⟩
  · rw [he]
    exact .goesOn h rfl (Or.inr ⟨hr, rfl⟩) rfl
  · rw [he]
    exact .cleansUp hr (by simp [Label.ends, hc, Except.isOk, Except.toBool]) heard
  · rw [he]
    exact .goesOn (inRange_handleReconnect cfg _) (by simp [Label.ends, hc])
      (Or.inr ⟨hr, rfl⟩) rfl

/-- The steps, each with the place it is taken at. -/
inductive StepAt (cfg : Config) (s : Task β) : Label β → Task β → Prop
  | connect (result : Except String Unit) (pc : s.pc = .connecting) :
    StepAt cfg s (.connect result) (connect cfg result s)
  | subscribe (result : Except String Unit) (pc : s.pc = .subscribing) :
    StepAt cfg s (.subscribe result) (subscribe cfg result s)
  | notify (n : Notification β) (pc : s.pc = .streaming) : StepAt cfg s (.notify n) (notify n s)
  | streamEnd (pc : s.pc = .streaming) : StepAt cfg s .streamEnd (handleReconnect cfg s)
  | shutdown (pc : s.pc = .streaming) :
    StepAt cfg s .shutdown (exit cfg .returned (cleanup cfg s))
  | close : StepAt cfg s .close { s with closed := true }

theorem stepAt_of_step (hs : step cfg s l = some s') : StepAt cfg s l s' := by
  unfold step at hs
  split at hs <;> cases hs
  · exact .connect _ ‹_›
  · exact .subscribe _ ‹_›
  · exact .notify _ ‹_›
  · exact .streamEnd ‹_›
  · exact .shutdown ‹_›
  · exact .close

theorem stepsTo_of_step (h : InRange cfg s) (hs : step cfg s l = some s') :
    StepsTo cfg s l s' := by
  cases stepAt_of_step hs with
  | connect result hpc => exact stepsTo_connect h (by rw [hpc]; rfl) result
  | subscribe result hpc => exact stepsTo_subscribe h (by rw [hpc]; rfl) result
  | notify n =>
    rw [notify_frame]
    exact .goesOn h rfl (Or.inl rfl) rfl
  | streamEnd hpc =>
    have hr : s.pc.running = true := by rw [hpc]; rfl
    exact .goesOn (inRange_handleReconnect cfg s) rfl (Or.inr ⟨hr, rfl⟩) rfl
  | shutdown hpc =>
    refine .cleansUp (by rw [hpc]; rfl) rfl ?_
    rintro ⟨⟨err, he⟩, -⟩
    cases he
  | close => exact .goesOn h rfl (Or.inl rfl) rfl

theorem InRange.step (h : InRange cfg s) (hs : step cfg s l = some s') : InRange cfg s' := by
  rcases stepsTo_of_step h hs with ⟨h', -, -, -⟩ | - | - | -
  · exact h'
  · exact h
  · exact h
  · exact h

/-- A task is active as long as it runs. -/
def Active (cfg : Config) (s : Task β) : Prop :=
  s.pc.running = true → cfg.subscriptionId ∈ s.activeSubscriptions

theorem Active.step (h : Active cfg s) (hi : InRange cfg s) (hs : step cfg s l = some s') :
    Active cfg s' := by
  rcases stepsTo_of_step hi hs with ⟨-, -, hpc, ha⟩ | - | - | - <;> intro hr
  · rw [ha]
    rcases hpc with hpc | ⟨hr, -⟩
    · exact h (hpc ▸ hr)
    · exact h hr
  · cases hr
  · cases hr
  · cases hr

/-- In every state of a task that has been started, its index is in range, and it is active
    as long as it runs. -/
theorem active_of_reachable {active : Finset String}
    (h : (machine cfg (start cfg active)).Reachable s) : InRange cfg s ∧ Active cfg s := by
  refine h.invariant (P := fun s => InRange cfg s ∧ Active cfg s) ?_ ?_
  · exact ⟨List.length_pos_of_ne_nil, fun _ => Finset.mem_insert_self _ _⟩
  · rintro s l s' ⟨hi, ha⟩ hst
    exact ⟨hi.step hst, ha.step hi hst⟩

/-- A task that has returned is not active. -/
def Unregistered (cfg : Config) (s : Task β) : Prop :=
  s.pc = .returned → cfg.subscriptionId ∉ s.activeSubscriptions

/-- A task that has returned is not active, if it cleans up, or its client does. -/
theorem unregisters_iff {active : Finset String} {ls : List (Label β)} :
    (machine cfg (start cfg active)).RunThrough (Unregistered cfg) ls s ↔
      (machine cfg (start cfg active)).RunWhere
        (fun s l => ¬Unheard cfg s l ∨ cfg.blockOn = .completes) ls s := by
  refine Machine.runThrough_iff_runWhere (fun h => by cases h) ?_
  intro s l s' hr hp hst
  obtain ⟨hi, hact⟩ := active_of_reachable hr
  rcases stepsTo_of_step hi hst with ⟨-, hends, hpc, ha⟩ | ⟨-, -, hh⟩ | ⟨hr, -, hu⟩ | ⟨-, -, hh⟩
  · refine iff_of_true ?_ (Or.inl ?_)
    · intro hret
      rw [ha]
      rcases hpc with hpc | ⟨-, hr⟩
      · exact hp (hpc.symm.trans hret)
      · rw [hret] at hr
        cases hr
    · rintro ⟨⟨err, rfl⟩, hc, -⟩
      simp [Label.ends, hc, Except.isOk, Except.toBool] at hends
  · exact iff_of_true (fun _ => not_mem_exit_cleanup cfg _ s) (Or.inl hh)
  · -- Only the client may take the id out of the set now.
    rw [or_iff_right (not_not_intro hu)]
    have hmem := hact hr
    rw [Unregistered, exit]
    cases cfg.blockOn with
    | completes => simp [unsubscribeAll]
    | panics => simp [hmem]
  · exact iff_of_true (fun hret => by cases hret) (Or.inl hh)

/-- The receiver is closed before the endpoint refuses a connection. -/
theorem not_forall_unregistered : ¬∀ (cfg : Config) (active : Finset String) (s : Task Unit),
    (machine cfg (start cfg active)).Reachable s → Unregistered cfg s := by
  intro h
  obtain ⟨s, he, hr, ha⟩ : ∃ s, (machine localConfig (start localConfig ∅ : Task Unit)).exec
      [.close, .connect (.error "refused")] = some s ∧ s.pc = .returned ∧
      s.activeSubscriptions = {"slot-0"} := ⟨_, rfl, rfl, rfl⟩
  refine h localConfig ∅ s (Machine.reachable_of_exec he) hr ?_
  rw [ha]
  exact Finset.mem_singleton_self _

/-! ## What is sent -/

/-- The updates for what the task learns. -/
def updates : Label β → List (SlotUpdate β)
  | .connect (.error err) =>
    [.error (.invalidResponse ("Failed to connect to WebSocket: " ++ err))]
  | .subscribe (.error err) => [.error (.invalidResponse ("Failed to subscribe: " ++ err))]
  | .notify n =>
    .newSlot n.info :: if n.info.root = n.info.slot then [fetched (n.getBlock n.info.slot)] else []
  | .connect (.ok _) | .subscribe (.ok _) | .streamEnd | .shutdown | .close => []

/-- Without a receiver, nothing is sent. -/
theorem sent_of_closed (hst : step cfg s l = some s') (hc : s.closed = true) :
    s'.sent = s.sent ∧ s'.closed = true := by
  cases stepAt_of_step hst with
  | connect result =>
    unfold connect
    split
    · exact ⟨rfl, hc⟩
    · rcases result with err | ⟨⟩
      · simp only [send_of_closed hc]
        exact ⟨rfl, hc⟩
      · exact ⟨rfl, hc⟩
  | subscribe result =>
    unfold subscribe
    rcases result with err | ⟨⟩
    · simp only [send_of_closed hc]
      exact ⟨rfl, hc⟩
    · exact ⟨rfl, hc⟩
  | notify n =>
    refine ⟨?_, (congrArg Task.closed (notify_frame n s)).trans hc⟩
    unfold notify
    split
    · simp only [send_of_closed hc]
    · simp only [send_of_closed hc]
  | streamEnd => exact ⟨rfl, hc⟩
  | shutdown => exact ⟨rfl, hc⟩
  | close => exact ⟨rfl, rfl⟩

/-- The updates are sent to the receiver, unless the task ends. -/
theorem sent_of_open (hst : step cfg s l = some s') (hc : s.closed = false) :
    (s'.sent = s.sent ++ updates l ∧ (s'.closed = false ∨ l = .close)) ∨
      s'.sent = s.sent ∧ s'.closed = false ∧ s'.pc.running = false := by
  have hnil : s.sent = s.sent ++ [] := (List.append_nil _).symm
  cases stepAt_of_step hst with
  | connect result =>
    unfold connect
    split
    · exact Or.inr ⟨rfl, hc, rfl⟩
    · rcases result with err | ⟨⟩
      · simp only [send_of_open hc]
        exact Or.inl ⟨rfl, Or.inl hc⟩
      · exact Or.inl ⟨hnil, Or.inl hc⟩
  | subscribe result =>
    unfold subscribe
    rcases result with err | ⟨⟩
    · simp only [send_of_open hc]
      exact Or.inl ⟨rfl, Or.inl hc⟩
    · exact Or.inl ⟨hnil, Or.inl hc⟩
  | notify n =>
    exact Or.inl ⟨sent_notify hc, Or.inl ((congrArg Task.closed (notify_frame n s)).trans hc)⟩
  | streamEnd => exact Or.inl ⟨hnil, Or.inl hc⟩
  | shutdown => exact Or.inl ⟨hnil, Or.inl hc⟩
  | close => exact Or.inl ⟨hnil, Or.inr rfl⟩

/-- A task that has ended learns nothing but that its receiver is closed. -/
theorem eq_close_of_step (hst : step cfg s l = some s') (hr : s.pc.running = false) :
    l = .close ∧ s' = { s with closed := true } := by
  cases stepAt_of_step hst with
  | connect result hpc => rw [hpc] at hr; cases hr
  | subscribe result hpc => rw [hpc] at hr; cases hr
  | notify n hpc => rw [hpc] at hr; cases hr
  | streamEnd hpc => rw [hpc] at hr; cases hr
  | shutdown hpc => rw [hpc] at hr; cases hr
  | close => exact ⟨rfl, rfl⟩

/-- A task with a receiver ends because there is no endpoint, or by its shutdown. -/
theorem eq_shutdown_of_ends (hc : s.closed = false) (hne : cfg.wsEndpoints ≠ [])
    (h : l.ends cfg s = true) : l = .shutdown := by
  cases l with
  | connect result => simp [Label.ends, hc, hne] at h
  | subscribe result => simp [Label.ends, hc] at h
  | shutdown => rfl
  | notify n => cases h
  | streamEnd => cases h
  | close => cases h

/-- So it ends only then. -/
theorem running_of_step (hi : InRange cfg s) (hst : step cfg s l = some s')
    (hc : s.closed = false) (hne : cfg.wsEndpoints ≠ []) (hr : s.pc.running = true) :
    s'.pc.running = true ∨ l = .shutdown := by
  rcases stepsTo_of_step hi hst with ⟨-, -, hpc, -⟩ | ⟨-, hends, -⟩ | ⟨-, hends, -⟩ | ⟨-, hends, -⟩
  · rcases hpc with hpc | ⟨-, hr'⟩
    · exact Or.inl (hpc ▸ hr)
    · exact Or.inl hr'
  · exact Or.inr (eq_shutdown_of_ends hc hne hends)
  · exact Or.inr (eq_shutdown_of_ends hc hne hends)
  · exact Or.inr (eq_shutdown_of_ends hc hne hends)

/-- What has been sent stays so. -/
theorem sent_prefix_of_step (hst : step cfg s l = some s') : s.sent <+: s'.sent := by
  cases hc : s.closed with
  | true => exact (sent_of_closed hst hc).1 ▸ List.prefix_rfl
  | false =>
    rcases sent_of_open hst hc with ⟨hs, -⟩ | ⟨hs, -⟩
    · exact hs ▸ List.prefix_append _ _
    · exact hs ▸ List.prefix_rfl

/-- What has been sent are the first of the updates, and all of them as long as the task runs
    and there is a receiver. -/
structure Sends (ls : List (Label β)) (s : Task β) : Prop where
  isPrefix : s.sent <+: ls.flatMap updates
  all : s.pc.running = true → s.closed = false → s.sent = ls.flatMap updates

theorem Sends.step {ls : List (Label β)} (h : Sends ls s) (hst : step cfg s l = some s') :
    Sends (ls ++ [l]) s' := by
  have happ : (ls ++ [l]).flatMap updates = ls.flatMap updates ++ updates l := by
    rw [List.flatMap_append, List.flatMap_singleton]
  have hgrows : ls.flatMap updates <+: (ls ++ [l]).flatMap updates :=
    happ ▸ List.prefix_append _ _
  cases hc : s.closed with
  | true =>
    obtain ⟨hs, hc'⟩ := sent_of_closed hst hc
    exact ⟨hs ▸ h.isPrefix.trans hgrows, fun _ ho => absurd (hc'.symm.trans ho) nofun⟩
  | false =>
    cases hr : s.pc.running with
    | false =>
      obtain ⟨rfl, rfl⟩ := eq_close_of_step hst hr
      exact ⟨h.isPrefix.trans hgrows, fun _ => nofun⟩
    | true =>
      rcases sent_of_open hst hc with ⟨hs, -⟩ | ⟨hs, -, hr'⟩
      · have hall : s'.sent = (ls ++ [l]).flatMap updates := by rw [hs, h.all hr hc, happ]
        exact ⟨hall ▸ List.prefix_rfl, fun _ _ => hall⟩
      · exact ⟨hs ▸ h.isPrefix.trans hgrows, fun hr => absurd (hr'.symm.trans hr) nofun⟩

theorem sends_of_run {active : Finset String} {ls : List (Label β)}
    (h : (machine cfg (start cfg active)).Run ls s) : Sends ls s :=
  h.invariant (P := Sends) ⟨List.prefix_rfl, fun _ _ => rfl⟩ fun _ _ _ _ _ hs hst => hs.step hst

/-- Without an endpoint, nothing is ever sent, and the task only panics. -/
theorem sent_of_no_endpoint {active : Finset String} (hne : cfg.wsEndpoints = [])
    (h : (machine cfg (start cfg active)).Reachable s) :
    s.sent = [] ∧ (s.pc = .connecting ∨ s.pc = .panicked) := by
  refine h.invariant (P := fun s : Task β => s.sent = [] ∧ (s.pc = .connecting ∨ s.pc = .panicked))
    ⟨rfl, Or.inl rfl⟩ ?_
  rintro s l s' ⟨hs, hpc | hpc⟩ hst
  · cases stepAt_of_step hst with
    | connect result =>
      obtain ⟨-, he⟩ | ⟨he, -⟩ := connect_cases (s := s) (fun he => absurd hne he) result
      · rw [he]
        exact ⟨hs, Or.inr rfl⟩
      · exact absurd hne he
    | subscribe result hpc' => rw [hpc] at hpc'; cases hpc'
    | notify n hpc' => rw [hpc] at hpc'; cases hpc'
    | streamEnd hpc' => rw [hpc] at hpc'; cases hpc'
    | shutdown hpc' => rw [hpc] at hpc'; cases hpc'
    | close => exact ⟨hs, Or.inl hpc⟩
  · obtain ⟨-, rfl⟩ := eq_close_of_step hst (by rw [hpc]; rfl)
    exact ⟨hs, Or.inr hpc⟩

/-- A task panics only without an endpoint. -/
theorem no_endpoint_of_panicked {active : Finset String}
    (h : (machine cfg (start cfg active)).Reachable s) (hp : s.pc = .panicked) :
    cfg.wsEndpoints = [] := by
  by_contra hne
  have hinv : InRange cfg s ∧ s.pc ≠ .panicked := by
    refine h.invariant (P := fun s : Task β => InRange cfg s ∧ s.pc ≠ .panicked) ?_ ?_
    · exact ⟨List.length_pos_of_ne_nil, nofun⟩
    · rintro s l s' ⟨hi, hn⟩ hst
      refine ⟨hi.step hst, ?_⟩
      cases stepAt_of_step hst with
      | connect result =>
        rcases connect_cases hi result with ⟨he, -⟩ | ⟨-, ⟨-, he⟩ | ⟨_, -, -, he⟩ | ⟨-, _, he⟩⟩
        · exact absurd he hne
        all_goals
          rw [he]
          exact nofun
      | subscribe result =>
        rcases subscribe_cases cfg result s with ⟨-, he⟩ | ⟨_, -, -, he⟩ | ⟨-, _, he⟩
        all_goals
          rw [he]
          exact nofun
      | notify n => exact fun hp' => hn ((congrArg Task.pc (notify_frame n s)).symm.trans hp')
      | streamEnd => exact nofun
      | shutdown => exact nofun
      | close => exact hn
  exact hinv.2 hp

end Subscription

end Sylph.Solana

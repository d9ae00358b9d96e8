import Sylph.GRPC.Connection

/-!
# Restarts of the client

The client of a key under `Core.GRPC.Supervisor`, whose strategy is `:rest_for_one`: the
connection registry is started before the client, so that it outlives it, and the client is
started again whenever it has terminated.

* `Layer`: the registry, with the client or without it; `Layer.machine`: its runs, from an
  empty registry on. The client is started (`start`), does what a connection does (`run`), and
  ends (`terminate`), for whatever reason, with a callback or without one.
* `Client.terminate`: the callback closes the channel, but it sends the registry nothing
  (`reports_terminate`), so that a key stays registered for good (`mem_registry_step`).
* `startSucceeds_iff`: a start succeeds if and only if the key is not registered.

So the first start succeeds, and no other one does (`startsSucceed_iff`): the client
cannot be restarted.
-/

namespace Sylph.GRPC

open Lib Elixir DataProcessor

/-! ## The end of a client -/

namespace Client

variable {χ : Type}

/-- What the client does while it terminates. -/
inductive Cleanup (χ : Type)
  /-- `GRPC.Stub.disconnect(channel)` -/
  | disconnect (channel : χ)
  /-- `Process.cancel_timer(ref)` -/
  | cancelTimer (ref : ℕ)
  /-- What it does in its other callbacks, too. -/
  | perform (effect : Effect)

/-- The message to the registry. -/
def Cleanup.report : Cleanup χ → Option ConnectionRegistry.Msg
  | perform effect => effect.report
  | disconnect _ | cancelTimer _ => none

/-- The event of the end of a client. -/
def terminated (systemTime : ℤ) (reason : ExitReason) (state : Client χ) : Effect :=
  .execute {
    name := eventName "client" "terminate"
    measurements := [("timestamp", .int systemTime)]
    metadata := [("key", .atom state.key), ("reason", reason.toTerm)] }

/-- What the client cleans up: its channel and its timer. -/
def terminate (systemTime : ℤ) (reason : ExitReason) (state : Client χ) : List (Cleanup χ) :=
  state.channel.toList.map .disconnect ++ state.timerRef.toList.map .cancelTimer ++
    [.perform (terminated systemTime reason state)]

/-- A client that terminates leaves its registration as it is. -/
theorem reports_terminate (systemTime : ℤ) (reason : ExitReason) (s : Client χ) :
    (terminate systemTime reason s).filterMap Cleanup.report = [] := by
  rw [terminate]
  cases s.channel <;> cases s.timerRef <;> rfl

end Client

/-! ## The registry, meanwhile -/

namespace ConnectionRegistry

variable {env : Env} {msg : Msg} {key : Atom} {s s' : ConnectionRegistry}

/-- The key a message registers. -/
def Msg.registers : Msg → Option Atom
  | register key _ => some key
  | getConnection _ | listConnections | updateStatus .. => none

/-- A key is bound after a registration if it was before, or is the one registered. -/
theorem mem_register {k : Atom} {endpoint : String} :
    key ∈ (register env k endpoint s).2.1.connections ↔ key = k ∨ key ∈ s.connections := by
  rw [register]
  split
  · next h => exact ⟨Or.inr, fun ho => ho.elim (fun he => he ▸ h) id⟩
  · exact AList.mem_insert _

theorem mem_updateStatus {k : Atom} {newStatus : Status} :
    key ∈ (updateStatus env k newStatus s).1.connections ↔ key ∈ s.connections := by
  rw [updateStatus]
  split
  · next h =>
    have hk : k ∈ s.connections := Dict.mem_of_lookup h
    exact (AList.mem_insert _).trans ⟨fun ho => ho.elim (fun he => he ▸ hk) id, Or.inr⟩
  · rfl

/-- The keys bound after a message: there is no message that removes one. -/
theorem mem_handle (hn : (handle env msg s).next = some s') :
    key ∈ s'.connections ↔ msg.registers = some key ∨ key ∈ s.connections := by
  cases msg with
  | register k endpoint =>
    obtain rfl := Option.some_inj.1 hn
    refine mem_register.trans (or_congr_left ?_)
    rw [Msg.registers, Option.some_inj, eq_comm]
  | getConnection k =>
    obtain rfl := Option.some_inj.1 hn
    simp [Msg.registers]
  | listConnections =>
    obtain rfl := Option.some_inj.1 hn
    simp [Msg.registers]
  | updateStatus k newStatus =>
    obtain rfl := Option.some_inj.1 hn
    refine mem_updateStatus.trans ?_
    simp [Msg.registers]

/-- A key that is bound stays so. -/
theorem mem_handle_of_mem (hn : (handle env msg s).next = some s') (h : key ∈ s.connections) :
    key ∈ s'.connections :=
  (mem_handle hn).2 (Or.inr h)

end ConnectionRegistry

namespace Connection

variable {χ : Type} {env : ConnectionRegistry.Env} {opts : Client.Opts}
  {registry : ConnectionRegistry} {s s' : Connection χ}

/-- A client does not start if its key is taken. -/
theorem start_of_mem (h : opts.key ∈ registry.connections) :
    (start env opts registry : Option (Connection χ)) = none := by
  simp [start, ConnectionRegistry.register, h, Client.init, Outcome.next]

/-- Otherwise it starts, registered, with a `:connect` to handle. -/
theorem start_of_not_mem (χ : Type) (env : ConnectionRegistry.Env)
    (h : opts.key ∉ registry.connections) : ∃ s : Connection χ,
    start env opts registry = some s ∧ opts.key ∈ s.registry.connections ∧
      s.mailbox = [.connect] ∧ s.timers = [] := by
  refine ⟨_, by simp [start, ConnectionRegistry.register, h, Client.init, Outcome.next]; rfl, ?_⟩
  exact ⟨(AList.mem_insert _).2 (Or.inl rfl), rfl, rfl⟩

/-- A key that is registered stays so, whatever the client does. -/
theorem mem_registry_step {key : Atom} {l : Label χ} (h : key ∈ s.registry.connections)
    (hs : step s l = some s') : key ∈ s'.registry.connections := by
  cases l with
  | call msg =>
    rw [step] at hs
    split at hs
    · cases hs
    · obtain rfl := Option.some_inj.1 hs
      exact h
  | timeout i =>
    rw [step, timeout] at hs
    obtain ⟨t, -, rfl⟩ := Option.map_eq_some_iff.1 hs
    exact h
  | handle env =>
    rw [step, handle] at hs
    split at hs
    · cases hs
    · obtain ⟨client, -, rfl⟩ := Option.map_eq_some_iff.1 hs
      exact h
  | deliver env =>
    rw [step, deliver] at hs
    split at hs
    · cases hs
    · obtain ⟨registry, hn, rfl⟩ := Option.map_eq_some_iff.1 hs
      exact ConnectionRegistry.mem_handle_of_mem hn h
  | other env msg =>
    rw [step] at hs
    split at hs
    · cases hs
    · obtain ⟨registry, hn, rfl⟩ := Option.map_eq_some_iff.1 hs
      exact ConnectionRegistry.mem_handle_of_mem hn h

end Connection

/-! ## Starts and terminations -/

/-- The registry, and the client of a key if it is up. In both cases there may be reports
    of clients that have ended, on their way to the registry. -/
inductive Layer (χ : Type)
  | down (registry : ConnectionRegistry) (late : List ConnectionRegistry.Msg)
  | up (connection : Connection χ) (late : List ConnectionRegistry.Msg)

namespace Layer

variable {χ : Type}

/-- The registry, which outlives the client. -/
def registry : Layer χ → ConnectionRegistry
  | down registry _ => registry
  | up connection _ => connection.registry

/-- Another registry, with the same client. -/
def setRegistry (registry : ConnectionRegistry) : Layer χ → Layer χ
  | down _ late => down registry late
  | up connection late => up { connection with registry := registry } late

/-- What happens next. -/
inductive Label (χ : Type)
  /-- The supervisor starts the client. -/
  | start (env : ConnectionRegistry.Env) (opts : Client.Opts)
  /-- The client terminates. Its callback is only called if it has not been killed. -/
  | terminate (callback : Option (ℤ × ExitReason))
  /-- A step of the client that is up. -/
  | run (l : Connection.Label χ)
  /-- The registry handles a report of a client that has ended. -/
  | late (env : ConnectionRegistry.Env)
  /-- The registry handles a message of another process while there is no client. -/
  | other (env : ConnectionRegistry.Env) (msg : ConnectionRegistry.Msg)

/-- The client is started. -/
def Label.isStart : Label χ → Bool
  | start .. => true
  | terminate _ | run _ | late _ | other .. => false

/-- The supervisor starts the client of a key: a start that fails leaves nothing but the
    registry. -/
def start (key : Atom) (env : ConnectionRegistry.Env) (opts : Client.Opts) (s : Layer χ) :
    Option (Layer χ) :=
  match s with
  | up .. => none
  | down registry late =>
    if opts.key = key then
      match (Connection.start env opts registry : Option (Connection χ)) with
      | some connection => some (up connection late)
      | none =>
        some (down (ConnectionRegistry.register env opts.key opts.endpoint registry).2.1 late)
    else none

/-- What the client has sent arrives, whether it is still there or not; its mailbox and its
    timers are gone with it. -/
def terminate (callback : Option (ℤ × ExitReason)) (s : Layer χ) : Option (Layer χ) :=
  match s with
  | down .. => none
  | up connection late =>
    let out := match callback with
      | some (systemTime, reason) => Client.terminate systemTime reason connection.client
      | none => []
    some (down connection.registry
      (late ++ connection.reports ++ out.filterMap Client.Cleanup.report))

/-- A step of the connection, while the client runs. -/
def run (l : Connection.Label χ) (s : Layer χ) : Option (Layer χ) :=
  match s with
  | down .. => none
  | up connection late => (Connection.step connection l).map (up · late)

/-- The reports of the clients that have ended. -/
def lateReports : Layer χ → List ConnectionRegistry.Msg
  | down _ late | up _ late => late

/-- Other late reports, with the same client. -/
def setLate (late : List ConnectionRegistry.Msg) : Layer χ → Layer χ
  | down registry _ => down registry late
  | up connection _ => up connection late

/-- The registry takes a report of a client that has ended. -/
def deliverLate (env : ConnectionRegistry.Env) (s : Layer χ) : Option (Layer χ) :=
  match s.lateReports with
  | [] => none
  | msg :: late =>
    (ConnectionRegistry.handle env msg s.registry).next.map fun registry =>
      (s.setLate late).setRegistry registry

/-- The registry handles a message of another process, while no client runs. -/
def other (key : Atom) (env : ConnectionRegistry.Env) (msg : ConnectionRegistry.Msg)
    (s : Layer χ) : Option (Layer χ) :=
  match s with
  | up .. => none
  | down registry late =>
    -- Only the client registers its key, and reports about it.
    if msg.registers = some key ∨ msg.reported = some key then none
    else (ConnectionRegistry.handle env msg registry).next.map (down · late)

/-- The steps of the layer. -/
def step (key : Atom) (s : Layer χ) : Label χ → Option (Layer χ)
  | .start env opts => start key env opts s
  | .terminate callback => terminate callback s
  | .run l => run l s
  | .late env => deliverLate env s
  | .other env msg => other key env msg s

/-- The runs of the client of a key and the registry, which has just been started. -/
def machine (χ : Type) (key : Atom) : Machine (Layer χ) (Label χ) := ⟨down ⟨∅⟩ [], step key⟩

/-! ## When a start succeeds -/

variable {key : Atom} {s s' : Layer χ} {l : Label χ} {ls : List (Label χ)}

/-- A start succeeds: the client is up, its key is registered, and a `:connect` is pending. -/
def StartSucceeds (key : Atom) (s : Layer χ) : Label χ → Prop
  | .start env opts =>
    ∃ connection late, step key s (.start env opts) = some (up connection late) ∧
      key ∈ connection.registry.connections ∧ connection.mailbox = [.connect] ∧
      connection.pending = 1
  | _ => True

/-- What a start does: it fails if the key is registered, and it succeeds otherwise. -/
theorem start_cases {env : ConnectionRegistry.Env} {opts : Client.Opts}
    (hs : step key s (.start env opts) = some s') :
    (key ∈ s.registry.connections ∧ ∃ registry late, s' = down registry late ∧
      key ∈ registry.connections) ∨
    (key ∉ s.registry.connections ∧ ∃ connection late, s' = up connection late ∧
      key ∈ connection.registry.connections ∧ connection.mailbox = [.connect] ∧
      connection.pending = 1) := by
  rcases s with ⟨registry, late⟩ | ⟨connection, late⟩
  · rw [step, start] at hs
    split at hs
    · next hk =>
      subst hk
      by_cases hmem : opts.key ∈ registry.connections
      · rw [Connection.start_of_mem hmem] at hs
        obtain rfl := Option.some_inj.1 hs
        -- The registration is refused, and leaves the key as it is.
        exact Or.inl ⟨hmem, _, late, rfl, ConnectionRegistry.mem_register.2 (Or.inl rfl)⟩
      · obtain ⟨c, hc, hkey, hm, ht⟩ := Connection.start_of_not_mem χ env hmem
        rw [hc] at hs
        obtain rfl := Option.some_inj.1 hs
        refine Or.inr ⟨hmem, c, late, rfl, hkey, hm, ?_⟩
        rw [Connection.pending, hm, ht]
        rfl
    · cases hs
  · cases hs

/-- A start that is made succeeds if and only if the key is not registered yet. -/
theorem startSucceeds_iff {env : ConnectionRegistry.Env} {opts : Client.Opts}
    (hs : step key s (.start env opts) = some s') :
    StartSucceeds key s (.start env opts) ↔ key ∉ s.registry.connections := by
  rw [StartSucceeds, hs]
  rcases start_cases hs with ⟨hmem, registry, late, rfl, -⟩ | ⟨hmem, c, late, rfl, hkey, hm, hp⟩
  · refine iff_of_false ?_ (not_not_intro hmem)
    rintro ⟨c, late', he, -⟩
    cases he
  · exact iff_of_true ⟨c, late, rfl, hkey, hm, hp⟩ hmem

/-- The registry is only sent reports by a client that has ended. -/
theorem mem_registry_deliverLate {env : ConnectionRegistry.Env} (h : key ∈ s.registry.connections)
    (hs : deliverLate env s = some s') : key ∈ s'.registry.connections := by
  rw [deliverLate] at hs
  split at hs
  · cases hs
  · obtain ⟨r, hn, rfl⟩ := Option.map_eq_some_iff.1 hs
    have hmem := ConnectionRegistry.mem_handle_of_mem hn h
    cases s <;> exact hmem

/-- After a start, the key is registered, whether it has succeeded or not. -/
theorem mem_registry_start {env : ConnectionRegistry.Env} {opts : Client.Opts}
    (hs : step key s (.start env opts) = some s') : key ∈ s'.registry.connections := by
  rcases start_cases hs with ⟨-, registry, late, rfl, hkey⟩ | ⟨-, c, late, rfl, hkey, -⟩
  · exact hkey
  · exact hkey

/-- A key that is registered stays so. -/
theorem mem_registry_step (h : key ∈ s.registry.connections) (hs : step key s l = some s') :
    key ∈ s'.registry.connections := by
  cases l with
  | start env opts => exact mem_registry_start hs
  | late env => exact mem_registry_deliverLate h hs
  | terminate callback =>
    rcases s with ⟨r, late⟩ | ⟨c, late⟩
    · cases hs
    · obtain rfl := Option.some_inj.1 hs
      exact h
  | run l =>
    rcases s with ⟨r, late⟩ | ⟨c, late⟩
    · cases hs
    · obtain ⟨c', hc, rfl⟩ := Option.map_eq_some_iff.1 hs
      exact Connection.mem_registry_step h hc
  | other env msg =>
    rcases s with ⟨r, late⟩ | ⟨c, late⟩
    · rw [step, other] at hs
      split at hs
      · cases hs
      · obtain ⟨r', hn, rfl⟩ := Option.map_eq_some_iff.1 hs
        exact ConnectionRegistry.mem_handle_of_mem hn h
    · cases hs

/-- Before the first start there is no client, and its key is not registered. -/
def Fresh (key : Atom) (s : Layer χ) : Prop :=
  ∃ registry, s = down registry [] ∧ key ∉ registry.connections

theorem Fresh.step (h : Fresh key s) (hl : l.isStart = false) (hs : step key s l = some s') :
    Fresh key s' := by
  obtain ⟨r, rfl, hr⟩ := h
  cases l with
  | start env opts => cases hl
  | terminate callback => cases hs
  | run l => cases hs
  | late env => cases hs
  | other env msg =>
    rw [Layer.step, other] at hs
    split at hs
    · cases hs
    · next hm =>
      obtain ⟨r', hn, rfl⟩ := Option.map_eq_some_iff.1 hs
      refine ⟨r', rfl, fun hmem => ?_⟩
      -- No other process registers the key.
      rcases (ConnectionRegistry.mem_handle hn).1 hmem with hreg | hmem
      · exact hm (Or.inl hreg)
      · exact hr hmem

/-- How many starts there have been. -/
def starts (ls : List (Label χ)) : ℕ := ls.countP Label.isStart

theorem starts_append (ls : List (Label χ)) (l : Label χ) :
    starts (ls ++ [l]) = starts ls + l.isStart.toNat := by
  rw [starts, List.countP_append, List.countP_singleton]
  cases l.isStart <;> rfl

/-- Along a run, the key is registered from the first start on. -/
theorem mem_registry_iff (h : (machine χ key).Run ls s) :
    if starts ls = 0 then Fresh key s else key ∈ s.registry.connections := by
  refine h.invariant (P := fun ls s =>
    if starts ls = 0 then Fresh key s else key ∈ s.registry.connections) ?_ ?_
  · exact ⟨⟨∅⟩, rfl, AList.notMem_empty key⟩
  · intro ls s l s' _ ih hst
    rw [starts_append]
    cases hl : l.isStart with
    | true =>
      obtain ⟨env, opts, rfl⟩ : ∃ env opts, l = .start env opts := by
        cases l <;> first | exact ⟨_, _, rfl⟩ | cases hl
      exact mem_registry_start hst
    | false =>
      by_cases h0 : starts ls = 0
      · rw [if_pos h0] at ih
        rw [if_pos (by rw [h0]; rfl)]
        exact ih.step hl hst
      · rw [if_neg h0] at ih
        rw [if_neg (by simpa using h0)]
        exact mem_registry_step ih hst

/-- A start succeeds in a run if and only if it is the first one. -/
theorem startSucceeds_iff_of_run (hr : (machine χ key).Run ls s) (hst : step key s l = some s') :
    StartSucceeds key s l ↔ (l.isStart = true → starts ls = 0) := by
  cases l with
  | start env opts =>
    rw [startSucceeds_iff hst]
    have hmem := mem_registry_iff hr
    by_cases h0 : starts ls = 0
    · rw [if_pos h0] at hmem
      obtain ⟨r, rfl, hnot⟩ := hmem
      exact iff_of_true hnot fun _ => h0
    · -- A further start finds the key registered.
      rw [if_neg h0] at hmem
      exact iff_of_false (not_not_intro hmem) fun h => h0 (h rfl)
  | terminate callback => exact iff_of_true trivial fun h => by cases h
  | run l => exact iff_of_true trivial fun h => by cases h
  | late env => exact iff_of_true trivial fun h => by cases h
  | other env msg => exact iff_of_true trivial fun h => by cases h

/-- In a run, all starts succeed if and only if there is at most one. -/
theorem startsSucceed_iff : (machine χ key).RunWhere (StartSucceeds key) ls s ↔
    (machine χ key).Run ls s ∧ starts ls ≤ 1 := by
  constructor
  · intro h
    refine ⟨h.run, ?_⟩
    induction h with
    | nil => exact Nat.zero_le 1
    | @snoc ls s s' l hr hc hst ih =>
      rw [starts_append]
      cases hl : l.isStart with
      | false => exact ih
      | true =>
        rw [(startSucceeds_iff_of_run hr.run hst).1 hc hl]
        rfl
  · rintro ⟨h, hle⟩
    induction h with
    | nil => exact .nil
    | @snoc ls s s' l hr hst ih =>
      rw [starts_append] at hle
      refine .snoc (ih (Nat.le_trans (Nat.le_add_right _ _) hle)) ?_ hst
      refine (startSucceeds_iff_of_run hr hst).2 fun hl => ?_
      rw [hl] at hle
      exact Nat.le_zero.1 (Nat.le_of_succ_le_succ hle)

/-- The options of the client under the supervisor. -/
def ethereum : Client.Opts := ⟨"ethereum", "localhost:50051", some 5⟩

/-- It is started, and crashes. -/
def crash : List (Label String) :=
  [.start Connection.quiet ethereum, .terminate (some (0, .raised .functionClause))]

/-- A client that crashes is not started again: the second start of this run fails. -/
theorem not_forall_startsSucceed : ¬∀ (ls : List (Label String)) (s : Layer String),
    (machine String "ethereum").Run ls s →
      (machine String "ethereum").RunWhere (StartSucceeds "ethereum") ls s := by
  intro h
  obtain ⟨s, he⟩ : ∃ s, (machine String "ethereum").exec
      (crash ++ [.start Connection.quiet ethereum]) = some s := ⟨_, rfl⟩
  obtain ⟨s₂, hr, hc, hst⟩ := (h _ _ (Machine.run_of_exec he)).of_snoc
  have hstart : step "ethereum" s₂ (.start Connection.quiet ethereum) = some s := hst
  have hfirst : starts crash = 0 := (startSucceeds_iff_of_run hr.run hstart).1 hc rfl
  exact absurd hfirst (by decide)

end Layer

end Sylph.GRPC

import Sylph.GRPC.Client
import Sylph.Lib.Machine

/-!
# The connection

The client of a key, as a process, and the registry it reports to.

* `start`: the client, started and registered; `machine`: its runs. The client handles
  the messages in its mailbox, in their order; its timers run out in any order and at any time;
  its reports are taken by the registry in their order, with any delay, in between the
  messages of other processes.
* `Follows`: the attempts follow the policy of the client, which is in the phase they end
  in, and exactly one `:connect` is pending as long as there is an attempt to be made.
* `reconnectSchedule`: the schedule of the attempts; `getChannel_iff`: the channel that is
  given out meanwhile.
* `registry_agrees`: the registry agrees with the client as soon as no report is in flight, and
  such a state can be reached from every other one (`exists_delivered`).
-/

namespace Sylph.GRPC

open Lib Elixir Retry

/-- The client of a key and the registry, with the messages between them. -/
structure Connection (χ : Type) where
  client : Client χ
  mailbox : List Client.Msg
  /-- The timers that have not run out, with their delays in milliseconds. -/
  timers : List (ℕ × Client.Msg)
  /-- The reports on their way to the registry. -/
  reports : List ConnectionRegistry.Msg
  registry : ConnectionRegistry
  /-- Not in the code: the attempts made so far, with the delays set after them. -/
  attempts : List (Attempt Term χ)

namespace Connection

variable {χ : Type}

/-- What happens next. -/
inductive Label (χ : Type)
  /-- A process calls the client. -/
  | call (msg : Client.Msg)
  /-- A timer runs out. -/
  | timeout (i : ℕ)
  /-- The client handles the next message in its mailbox. -/
  | handle (env : Client.Env χ)
  /-- The registry handles the next report of the client. -/
  | deliver (env : ConnectionRegistry.Env)
  /-- The registry handles a message of another process. -/
  | other (env : ConnectionRegistry.Env) (msg : ConnectionRegistry.Msg)

/-- The connection once the client has done what is in a list. -/
def perform (out : List Client.Effect) (s : Connection χ) : Connection χ :=
  { s with
    mailbox := s.mailbox ++ out.filterMap Client.Effect.sent
    timers := s.timers ++ out.filterMap Client.Effect.timer
    reports := s.reports ++ out.filterMap Client.Effect.report }

/-- The attempt of a client, with the delay it sets. -/
def attempt (env : Client.Env χ) (out : List Client.Effect) : Attempt Term χ where
  result := env.connect
  wait := (out.filterMap Client.Effect.timer).head?.map Prod.fst

/-- The client, started with a registry: it registers first. -/
def start (env : ConnectionRegistry.Env) (opts : Client.Opts) (registry : ConnectionRegistry) :
    Option (Connection χ) :=
  -- A call: the client goes on with the answer.
  let registration := ConnectionRegistry.register env opts.key opts.endpoint registry
  let started : Client.Result χ := Client.init opts registration.1
  started.next.map fun client => perform started.out {
    client := client
    mailbox := []
    timers := []
    reports := []
    registry := registration.2.1
    attempts := [] }

/-- The client handles the message at the head of its mailbox. -/
def handle (env : Client.Env χ) (s : Connection χ) : Option (Connection χ) :=
  match s.mailbox with
  | [] => none
  | msg :: mailbox =>
    let handled := Client.handle env msg s.client
    handled.next.map fun client => perform handled.out { s with
      client := client
      mailbox := mailbox
      attempts := if msg = .connect then s.attempts ++ [attempt env handled.out] else s.attempts }

/-- The registry handles the first of the reports on their way. -/
def deliver (env : ConnectionRegistry.Env) (s : Connection χ) : Option (Connection χ) :=
  match s.reports with
  | [] => none
  | msg :: reports =>
    (ConnectionRegistry.handle env msg s.registry).next.map fun registry =>
      { s with registry := registry, reports := reports }

/-- A timer runs out, and leaves its message in the mailbox. -/
def timeout (i : ℕ) (s : Connection χ) : Option (Connection χ) :=
  s.timers[i]?.map fun t => { s with
    timers := s.timers.eraseIdx i
    mailbox := s.mailbox ++ [t.2] }

/-- The steps of the client and the registry. -/
def step (s : Connection χ) : Label χ → Option (Connection χ)
  -- Only the client sends itself `:connect`.
  | .call msg => if msg = .connect then none else some { s with mailbox := s.mailbox ++ [msg] }
  | .timeout i => timeout i s
  | .handle env => handle env s
  | .deliver env => deliver env s
  | .other env msg =>
    -- Only the client reports about its key.
    if msg.reported = some s.client.key then none
    else (ConnectionRegistry.handle env msg s.registry).next.map fun registry =>
      { s with registry := registry }

/-- The runs of the client and the registry. -/
def machine (s₀ : Connection χ) : Machine (Connection χ) (Label χ) := ⟨s₀, step⟩

/-! ## One step -/

/-- How many `:connect` are in the mailbox or on a timer. -/
def pending (s : Connection χ) : ℕ :=
  (s.mailbox ++ s.timers.map Prod.snd).count .connect

/-- How many are to be pending in a phase. -/
def pendingIn : Phase χ → ℕ
  | .trying _ => 1
  | .succeeded _ | .gaveUp => 0

/-- What the registry shows of a connection: its status, and the attempts counted. -/
def shown (info : ConnectionInfo) : Status × ℕ := (info.status, info.reconnectAttempts)

/-- What it shows after a report. -/
def report (shown : Status × ℕ) (newStatus : Status) : Status × ℕ :=
  (newStatus, if newStatus = .connecting then shown.2 + 1 else 0)

/-- What it is to show in a phase, once all reports have arrived. -/
def shownIn : Phase χ → Status × ℕ
  | .trying 0 | .gaveUp => (.disconnected, 0)
  | .trying (n + 1) => (.connecting, n + 1)
  | .succeeded _ => (.connected, 0)

/-- The reports in flight lead to what the registry is to show of a key. -/
def Leads (key : Atom) (s : Connection χ) (v : Status × ℕ) : Prop :=
  ∃ (info : ConnectionInfo) (newStatuses : List Status),
    s.registry.connections.lookup key = some info ∧
    s.reports = newStatuses.map (.updateStatus key) ∧ newStatuses.foldl report (shown info) = v

/-- The attempts of the client of a key follow its policy, and have led to a phase: the
    client is in it, the `:connect` it needs is pending, and the reports in flight lead the registry
    to it. -/
structure Follows (m : ℕ) (key : Atom) (phase : Phase χ) (s : Connection χ) : Prop where
  key_eq : s.client.key = key
  client : Client.At m phase s.client
  log : Log (Client.policy m) phase s.attempts
  pending : s.pending = pendingIn phase
  timers : ∀ t ∈ s.timers, ∃ n, phase = .trying (n + 1) ∧
    t = ((Client.policy m).delay n, .connect)
  leads : Leads key s (shownIn phase)

variable {m : ℕ} {key : Atom} {phase : Phase χ} {s s' : Connection χ}

/-- The report of an attempt leads the registry to the next phase. -/
theorem report_next (n : ℕ) (r : Except Term χ) :
    report (shownIn (.trying n : Phase χ)) (Client.statusIn ((Client.policy m).next n r).1) =
      shownIn ((Client.policy m).next n r).1 := by
  rcases (Client.policy m).next_cases n r with ⟨a, -, h⟩ | ⟨-, h⟩ | ⟨-, h⟩ <;> rw [h]
  · rfl
  · cases n <;> rfl
  · rfl

theorem follows_start {env : ConnectionRegistry.Env} {opts : Client.Opts}
    {registry : ConnectionRegistry} (h : start env opts registry = some s) :
    Follows opts.retries opts.key (.trying 0) s := by
  rcases hr : ConnectionRegistry.register env opts.key opts.endpoint registry with ⟨_ | ⟨⟩, r, out⟩
  · -- A client whose key is taken does not start.
    simp [start, hr, Client.init, Outcome.next] at h
  · obtain ⟨hk, rfl, -⟩ := ConnectionRegistry.register_ok_iff.1 hr
    simp only [start, hr, Client.init, Outcome.next] at h
    obtain rfl := Option.some_inj.1 h
    refine ⟨rfl, Client.at_initial opts, .start, rfl, fun t ht => ?_, ?_⟩
    · exact absurd ht List.not_mem_nil
    · exact ⟨_, [], AList.lookup_insert _, rfl, rfl⟩

theorem follows_call (h : Follows m key phase s) {msg : Client.Msg} (hm : msg ≠ .connect) :
    Follows m key phase { s with mailbox := s.mailbox ++ [msg] } := by
  refine { h with pending := ?_ }
  have hc : List.count .connect [msg] = 0 := List.count_eq_zero.2 (by simpa [eq_comm] using hm)
  rw [← h.pending, Connection.pending, Connection.pending, List.count_append, List.count_append, hc,
    List.count_append, Nat.add_zero]

theorem follows_timeout (h : Follows m key phase s) {i : ℕ} (hs : timeout i s = some s') :
    Follows m key phase s' := by
  rw [timeout] at hs
  obtain ⟨t, ht, rfl⟩ := Option.map_eq_some_iff.1 hs
  obtain ⟨hi, rfl⟩ := List.getElem?_eq_some_iff.1 ht
  refine { h with pending := ?_, timers := fun t ht => h.timers t (List.mem_of_mem_eraseIdx ht) }
  have hp := (List.getElem_cons_eraseIdx_perm hi).map Prod.snd
  rw [← h.pending, Connection.pending, Connection.pending, List.append_assoc]
  exact (hp.append_left s.mailbox).count_eq .connect

/-- An attempt that is pending is to be made, no other one is, and no timer is under way. -/
theorem Follows.connect (h : Follows m key phase s) {mailbox : List Client.Msg}
    (hm : s.mailbox = .connect :: mailbox) :
    ∃ n, phase = .trying n ∧ mailbox.count .connect = 0 ∧ s.timers = [] := by
  have hp := h.pending
  rw [Connection.pending, hm, List.cons_append, List.count_cons_self, List.count_append] at hp
  -- A timer would make it two.
  have ht : s.timers = [] := by
    refine List.eq_nil_iff_forall_not_mem.2 fun t ht => ?_
    obtain ⟨n, rfl, rfl⟩ := h.timers t ht
    have hpos : 0 < (s.timers.map Prod.snd).count .connect :=
      List.count_pos_iff.2 (List.mem_map_of_mem ht)
    rw [pendingIn] at hp
    omega
  rcases phase with n | channel | _
  · refine ⟨n, rfl, ?_, ht⟩
    rw [pendingIn] at hp
    omega
  · cases hp
  · cases hp

/-- What an attempt changes, by what follows it in the policy. -/
theorem handle_connect {n : ℕ} (h : Follows m key (.trying n) s) {mailbox : List Client.Msg}
    (hm : s.mailbox = .connect :: mailbox) (ht : s.timers = []) (env : Client.Env χ) :
    handle env s = some
      { client := (Client.handleConnect env s.client).1
        mailbox := mailbox
        timers := ((Client.policy m).next n env.connect).2.toList.map (·, .connect)
        reports := s.reports ++
          [.updateStatus key (Client.statusIn ((Client.policy m).next n env.connect).1)]
        registry := s.registry
        attempts := s.attempts ++
          [⟨env.connect, ((Client.policy m).next n env.connect).2⟩] } := by
  obtain ⟨-, hsent, htimers, hreports⟩ := Client.handleConnect_at env h.client h.log.le
  rw [handle, hm]
  simp only [Client.handle_connect, Outcome.next, Outcome.out, Option.map_some, if_pos, perform,
    attempt, hsent, htimers, hreports, ht, h.key_eq, List.append_nil, List.nil_append]
  cases ((Client.policy m).next n env.connect).2 <;> rfl

/-- An attempt leads to the next phase. -/
theorem follows_connect (h : Follows m key phase s) {env : Client.Env χ}
    {mailbox : List Client.Msg} (hm : s.mailbox = .connect :: mailbox)
    (hs : handle env s = some s') : ∃ phase', Follows m key phase' s' := by
  obtain ⟨n, rfl, hc, ht⟩ := h.connect hm
  rw [handle_connect h hm ht env] at hs
  obtain rfl := Option.some_inj.1 hs
  obtain ⟨hat, -⟩ := Client.handleConnect_at env h.client h.log.le
  have hlog := h.log.attempt env.connect
  refine ⟨((Client.policy m).next n env.connect).1, ?_, hat, hlog, ?_, ?_, ?_⟩
  · exact (Client.key_handleConnect env s.client).trans h.key_eq
  · -- The attempt made is not pending any more; the timer set is, if there is one.
    rw [Connection.pending, List.count_append, hc, Nat.zero_add]
    rcases (Client.policy m).next_cases n env.connect with ⟨_, -, he⟩ | ⟨-, he⟩ | ⟨-, he⟩ <;>
      rw [he] <;> rfl
  · intro t ht
    rcases (Client.policy m).next_cases n env.connect with ⟨_, -, he⟩ | ⟨-, he⟩ | ⟨-, he⟩ <;>
      rw [he] at ht
    · exact absurd ht List.not_mem_nil
    · exact ⟨n, congrArg Prod.fst he, List.mem_singleton.1 ht⟩
    · exact absurd ht List.not_mem_nil
  · -- The report comes after those in flight.
    obtain ⟨info, newStatuses, hi, hr, hf⟩ := h.leads
    refine ⟨info, newStatuses ++ [Client.statusIn ((Client.policy m).next n env.connect).1],
      hi, ?_, ?_⟩
    · rw [hr, List.map_append, List.map_singleton]
    · rw [List.foldl_append, hf]
      exact report_next n env.connect

theorem follows_handle (h : Follows m key phase s) {env : Client.Env χ}
    (hs : handle env s = some s') : ∃ phase', Follows m key phase' s' := by
  rcases hm : s.mailbox with _ | ⟨msg, mailbox⟩
  · rw [handle, hm] at hs
    cases hs
  · by_cases hc : msg = .connect
    · subst hc
      exact follows_connect h hm hs
    · -- A call is answered, and nothing else changes.
      obtain ⟨reply, he⟩ := Client.handleCall_eq hc env s.client
      rw [handle, hm] at hs
      simp only [he, Outcome.next, Outcome.out, Option.map_some, if_neg hc] at hs
      obtain rfl := Option.some_inj.1 hs
      refine ⟨phase, h.key_eq, h.client, h.log, ?_, ?_, ?_⟩
      · rw [← h.pending, Connection.pending, Connection.pending, hm, List.cons_append,
          List.count_cons_of_ne hc]
        simp [perform]
      · simpa [perform] using h.timers
      · simpa [perform, Leads] using h.leads

/-- The registry takes a report: the other ones lead from there. -/
theorem follows_deliver (h : Follows m key phase s) {env : ConnectionRegistry.Env}
    (hs : deliver env s = some s') : Follows m key phase s' := by
  obtain ⟨info, newStatuses, hi, hr, hf⟩ := h.leads
  rw [deliver, hr] at hs
  rcases newStatuses with _ | ⟨newStatus, newStatuses⟩
  · cases hs
  · obtain rfl := Option.some_inj.1 hs
    refine { h with leads := ⟨info.update env.now newStatus, newStatuses, ?_, rfl, hf⟩ }
    exact ConnectionRegistry.lookup_updateStatus_self.trans (congrArg _ hi)

/-- A message of another process changes nothing about the key. -/
theorem follows_other (h : Follows m key phase s) {env : ConnectionRegistry.Env}
    {msg : ConnectionRegistry.Msg} (hs : step s (.other env msg) = some s') :
    Follows m key phase s' := by
  obtain ⟨info, newStatuses, hi, hr, hf⟩ := h.leads
  rw [step] at hs
  split at hs
  · cases hs
  · next hm =>
    obtain ⟨registry, hn, rfl⟩ := Option.map_eq_some_iff.1 hs
    rw [h.key_eq] at hm
    refine { h with leads := ⟨info, newStatuses, ?_, hr, hf⟩ }
    exact (ConnectionRegistry.lookup_handle (Dict.mem_of_lookup hi) hm hn).trans hi

/-- Every step keeps to the policy. -/
theorem follows_step (h : Follows m key phase s) {l : Label χ} (hs : step s l = some s') :
    ∃ phase', Follows m key phase' s' := by
  cases l with
  | call msg =>
    rw [step] at hs
    split at hs
    · cases hs
    · next hm =>
      obtain rfl := Option.some_inj.1 hs
      exact ⟨phase, follows_call h hm⟩
  | timeout i => exact ⟨phase, follows_timeout h hs⟩
  | handle env => exact follows_handle h hs
  | deliver env => exact ⟨phase, follows_deliver h hs⟩
  | other env msg => exact ⟨phase, follows_other h hs⟩

/-! ## Runs -/

variable {env : ConnectionRegistry.Env} {opts : Client.Opts} {registry : ConnectionRegistry}
  {s₀ : Connection χ}

theorem exists_follows (h : start env opts registry = some s₀) (hs : (machine s₀).Reachable s) :
    ∃ phase, Follows opts.retries opts.key phase s := by
  refine hs.invariant (P := fun s => ∃ phase, Follows opts.retries opts.key phase s)
    ⟨_, follows_start h⟩ ?_
  rintro s l s' ⟨phase, hf⟩ hst
  exact follows_step hf hst

/-- The channel given out is the one of the last attempt, if it succeeded. -/
theorem getChannel_iff (h : start env opts registry = some s₀) (hs : (machine s₀).Reachable s)
    {channel : χ} : Client.getChannel s.client = .ok channel ↔
      ∃ a, s.attempts.getLast? = some a ∧ a.result = .ok channel := by
  obtain ⟨phase, hf⟩ := exists_follows h hs
  rw [Client.getChannel_at hf.client, hf.log.last_iff]

/-- The schedule of the attempts of a client with `m` retries. -/
structure Schedule (m : ℕ) (s : Connection χ) : Prop where
  retryCount : 0 ≤ s.client.retryCount ∧ s.client.retryCount ≤ m
  backoffMs : s.client.backoffMs = min (1000 * 2 ^ s.client.retryCount) 30000
  /-- The client is connected if the last attempt succeeded, ... -/
  connected : s.client.status = .connected ↔
    ∃ a channel, s.attempts.getLast? = some a ∧ a.result = .ok channel
  /-- ... with the channel of this attempt. -/
  channel : ∀ a channel, s.attempts.getLast? = some a → a.result = .ok channel →
    s.client.channel = some channel
  /-- A client that has just started or is connecting has one attempt to make. -/
  pending : s.attempts = [] ∨ s.client.status = .connecting → s.pending = 1
  noPending : ¬(s.attempts = [] ∨ s.client.status = .connecting) → s.pending = 0
  /-- The failures in a row. -/
  failures : ∀ before fails after, s.attempts = before ++ fails ++ after →
    (∀ a ∈ fails, a.Failed) → fails.length ≤ m + 1
  /-- The delay set after the `k`-th failure in a row, for the `k`-th retry. -/
  wait : ∀ k a, FailedInARow s.attempts k a →
    a.wait = if k ≤ m then some (min (1000 * 2 ^ (k - 1)) 30000) else none
  /-- The timer of the retry that is due. -/
  timers : ∀ t ∈ s.timers,
    1 ≤ s.client.retryCount ∧ t = (min (1000 * 2 ^ (s.client.retryCount - 1)) 30000, .connect)

/-- The client keeps to its schedule. -/
theorem Follows.schedule (h : Follows m key phase s) : Schedule m s where
  retryCount := by
    refine ⟨Nat.zero_le _, ?_⟩
    rw [h.client.retryCount]
    -- In a row of failures there are as many as the policy allows.
    rcases phase with n | channel | _
    · exact h.log.le
    · exact Nat.zero_le _
    · exact Nat.le_refl _
  backoffMs := h.client.backoffMs
  connected := by
    rw [h.client.status]
    constructor
    · rcases phase with (_ | n) | channel | _ <;> intro hc
      · cases hc
      · cases hc
      · obtain ⟨a, ha⟩ := h.log.last_iff.2 rfl
        exact ⟨a, channel, ha⟩
      · cases hc
    · -- Only the phase of a connection has an attempt that succeeded as its last one.
      rintro ⟨a, channel, ha⟩
      obtain rfl := h.log.last_iff.1 ⟨a, ha⟩
      rfl
  channel a channel ha hr := by
    obtain rfl := h.log.last_iff.1 ⟨a, ha, hr⟩
    exact h.client.channel
  pending := by
    rw [h.pending, h.log.eq_nil_iff, h.client.status]
    rcases phase with (_ | n) | channel | _ <;> simp [pendingIn, Client.statusIn]
  noPending := by
    rw [h.pending, h.log.eq_nil_iff, h.client.status]
    rcases phase with (_ | n) | channel | _ <;> simp [pendingIn, Client.statusIn]
  failures before fails after he _ := by
    have hl := h.log.length_le
    rw [he, List.length_append, List.length_append] at hl
    exact Nat.le_trans (by omega) hl
  wait k a ha := h.log.wait_of_failedInARow ha
  timers t ht := by
    obtain ⟨n, rfl, rfl⟩ := h.timers t ht
    have hn : s.client.retryCount = n + 1 := h.client.retryCount
    rw [hn]
    exact ⟨Nat.succ_pos n, rfl⟩

/-- In every state a client reaches, whatever the outcomes of its attempts, it keeps to its
    schedule. -/
theorem reconnectSchedule (h : start env opts registry = some s₀)
    (hs : (machine s₀).Reachable s) : Schedule opts.retries s := by
  obtain ⟨phase, hf⟩ := exists_follows h hs
  exact hf.schedule

/-- A client with one retry, of an endpoint nobody listens at. -/
def unreachable : Client.Opts := ⟨"ethereum", "localhost:50051", some 1⟩

/-- A registry whose clocks stand at 0. -/
def quiet : ConnectionRegistry.Env := ⟨0, 0, .stored⟩

/-- An attempt that is refused. -/
def refused : Client.Env String := ⟨0, 0, .error (.atom "econnrefused"), 0⟩

/-- It gives up after two attempts. -/
theorem reconnectSchedule_unreachable : ∃ s₀ s : Connection String,
    start quiet unreachable ⟨∅⟩ = some s₀ ∧
    (machine s₀).exec [.handle refused, .timeout 0, .call .getStatus, .handle refused] = some s ∧
    s.client.retryCount = 1 ∧ s.client.backoffMs = 2000 ∧ Schedule 1 s := by
  obtain ⟨s₀, s, h, he, hn, hb⟩ : ∃ s₀ s : Connection String,
      start quiet unreachable ⟨∅⟩ = some s₀ ∧
      (machine s₀).exec [.handle refused, .timeout 0, .call .getStatus, .handle refused] = some s ∧
      s.client.retryCount = 1 ∧ s.client.backoffMs = 2000 := ⟨_, _, rfl, rfl, rfl, rfl⟩
  exact ⟨s₀, s, h, he, hn, hb, reconnectSchedule h (Machine.reachable_of_exec he)⟩

/-- Whenever no report is in flight, the registry has the status of the client, and while
    the client is connecting, the number of its retries. -/
theorem registry_agrees (h : start env opts registry = some s₀) (hs : (machine s₀).Reachable s)
    (hr : s.reports = []) : ∃ info, s.registry.connections.lookup opts.key = some info ∧
      info.status = s.client.status ∧
      (s.client.status = .connecting → info.reconnectAttempts = s.client.retryCount) := by
  obtain ⟨phase, hf⟩ := exists_follows h hs
  obtain ⟨info, newStatuses, hi, hn, hl⟩ := hf.leads
  obtain rfl := List.map_eq_nil_iff.1 (hn.symm.trans hr)
  refine ⟨info, hi, ?_⟩
  rw [hf.client.status, hf.client.retryCount]
  have hshown : (info.status, info.reconnectAttempts) = shownIn phase := hl
  rcases phase with (_ | n) | channel | _
  · exact ⟨congrArg Prod.fst hshown, fun hc => by cases hc⟩
  · exact ⟨congrArg Prod.fst hshown, fun _ => congrArg Prod.snd hshown⟩
  · exact ⟨congrArg Prod.fst hshown, fun hc => by cases hc⟩
  · exact ⟨congrArg Prod.fst hshown, fun hc => by cases hc⟩

/-- The registry catches up: the reports in flight can all be delivered. -/
theorem exists_delivered (env : ConnectionRegistry.Env) (hs : (machine s₀).Reachable s) :
    ∃ s', (machine s₀).Reachable s' ∧ s'.reports = [] ∧ s'.client = s.client := by
  induction hr : s.reports generalizing s with
  | nil => exact ⟨s, hs, hr, rfl⟩
  | cons msg reports ih =>
    obtain ⟨registry, hn⟩ := Option.isSome_iff_exists.1
      (ConnectionRegistry.next_handle_isSome env msg s.registry)
    have hst : (machine s₀).step s (.deliver env) =
        some { s with registry := registry, reports := reports } := by
      change deliver env s = _
      rw [deliver, hr]
      exact congrArg (Option.map _) hn
    obtain ⟨s', hs', hr', hc⟩ := ih (hs.step hst) rfl
    exact ⟨s', hs', hr', hc⟩

/-- Between its two attempts, it is connecting for both. -/
theorem registry_agrees_unreachable : ∃ s₀ s : Connection String,
    start quiet unreachable ⟨∅⟩ = some s₀ ∧
    (machine s₀).exec [.handle refused, .deliver quiet] = some s ∧
    ∃ info : ConnectionInfo, s.registry.connections.lookup unreachable.key = some info ∧
      info.status = .connecting ∧ info.reconnectAttempts = 1 := by
  obtain ⟨s₀, s, h, he, hr, hst, hn⟩ : ∃ s₀ s : Connection String,
      start quiet unreachable ⟨∅⟩ = some s₀ ∧
      (machine s₀).exec [.handle refused, .deliver quiet] = some s ∧
      s.reports = [] ∧ s.client.status = .connecting ∧ s.client.retryCount = 1 :=
    ⟨_, _, rfl, rfl, rfl, rfl, rfl⟩
  obtain ⟨info, hi, hs, ha⟩ := registry_agrees h (Machine.reachable_of_exec he) hr
  exact ⟨s₀, s, h, he, info, hi, hs.trans hst, (ha hst).trans hn⟩

/-! ## Afterwards -/

/-- When no `:connect` is pending, nothing changes the client any more. -/
theorem step_of_pending (h : s.pending = 0) {l : Label χ} (hs : step s l = some s') :
    s'.client = s.client ∧ s'.attempts = s.attempts ∧ s'.pending = 0 := by
  have hmem : Client.Msg.connect ∉ s.mailbox ++ s.timers.map Prod.snd := List.count_eq_zero.1 h
  cases l with
  | call msg =>
    rw [step] at hs
    split at hs
    · cases hs
    · next hm =>
      obtain rfl := Option.some_inj.1 hs
      refine ⟨rfl, rfl, List.count_eq_zero.2 fun hc => ?_⟩
      rcases List.mem_append.1 hc with hc | hc
      · rcases List.mem_append.1 hc with hc | hc
        · exact hmem (List.mem_append_left _ hc)
        · exact hm (List.mem_singleton.1 hc).symm
      · exact hmem (List.mem_append_right _ hc)
  | timeout i =>
    obtain ⟨t, ht, rfl⟩ := Option.map_eq_some_iff.1 hs
    refine ⟨rfl, rfl, List.count_eq_zero.2 fun hc => ?_⟩
    rcases List.mem_append.1 hc with hc | hc
    · rcases List.mem_append.1 hc with hc | hc
      · exact hmem (List.mem_append_left _ hc)
      · rw [List.mem_singleton.1 hc] at hmem
        exact hmem (List.mem_append_right _ (List.mem_map_of_mem (List.mem_of_getElem? ht)))
    · obtain ⟨u, hu, hu'⟩ := List.mem_map.1 hc
      exact hmem (List.mem_append_right _ (hu' ▸ List.mem_map_of_mem (List.mem_of_mem_eraseIdx hu)))
  | handle env =>
    rcases hm : s.mailbox with _ | ⟨msg, mailbox⟩
    · rw [step, handle, hm] at hs
      cases hs
    · rw [hm] at hmem
      have hc : msg ≠ .connect := fun hc => hmem (hc ▸ List.mem_append_left _ List.mem_cons_self)
      obtain ⟨reply, he⟩ := Client.handleCall_eq hc env s.client
      rw [step, handle, hm] at hs
      simp only [he, Outcome.next, Outcome.out, Option.map_some, if_neg hc] at hs
      obtain rfl := Option.some_inj.1 hs
      refine ⟨rfl, rfl, List.count_eq_zero.2 fun hc => hmem (List.mem_cons_of_mem msg ?_)⟩
      simpa [perform] using hc
  | deliver env =>
    rw [step, deliver] at hs
    split at hs
    · cases hs
    · obtain ⟨registry, -, rfl⟩ := Option.map_eq_some_iff.1 hs
      exact ⟨rfl, rfl, h⟩
  | other env msg =>
    rw [step] at hs
    split at hs
    · cases hs
    · obtain ⟨registry, -, rfl⟩ := Option.map_eq_some_iff.1 hs
      exact ⟨rfl, rfl, h⟩

theorem run_of_pending (h : s.pending = 0) {ls : List (Label χ)} (hs : (machine s).Run ls s') :
    s'.client = s.client ∧ s'.attempts = s.attempts ∧ s'.pending = 0 := by
  induction hs with
  | nil => exact ⟨rfl, rfl, h⟩
  | snoc _ hst ih =>
    obtain ⟨hc, ha, hp⟩ := step_of_pending ih.2.2 hst
    exact ⟨hc.trans ih.1, ha.trans ih.2.1, hp⟩

end Connection

end Sylph.GRPC

import Sylph.Solana.RangeStream
import Sylph.Solana.Subscription

/-!
# The stream of the new blocks

The handler of a request for the new blocks (`subscribe_new_blocks`): it starts a subscription to
the slots, and relays what the service makes of its updates to the reader of the stream.

* `step`: the steps of the subscription (`Subscription.step`), and those of the handler, which is
  a relay (`Relay.step`) of its updates. When the handler ends it drops the subscription, which
  closes the receiver and is the signal for its shutdown. That the subscription waits while there
  are a hundred updates in its channel only leaves out some of these runs.
* Both own a clone of the client. If one of them panics, the `block_on` in the `Drop` of its clone
  panics too, while the task unwinds, which aborts the process (`Stream.aborted`); it would not if
  `block_on` ran to completion.
* `received_items`: the reader receives what the service makes of the answers of the endpoints and
  of the node, in their order.
* `received_prefix_failures`: while the root of each notification is before its slot, these are the
  failures to connect and to subscribe, and no block.
* `leaks`: without such a failure, the handler does not find out that the reader has left.
* `not_atEnd`: a reader who stays never comes to the end of the stream. Where the process is
  aborted, there is no endpoint, or the service has panicked.
-/

namespace Sylph.Solana.NewBlocks

open Lib

/-- What the handler is started with. -/
structure Setup where
  service : Service
  startSlot : Int64
  config : Subscription.Config
  activeSubscriptions : Finset String

/-- What becomes of an update. -/
def Setup.respond (setup : Setup) : SlotUpdate RpcBlock → Relay.Outcome Item
  | .newBlock block =>
    if setup.startSlot ≤ block.slot.toInt64 then setup.service.respond (.ok block) else .skip
  | .error e => setup.service.respond (.error e)
  | .newSlot _ => .skip

/-- The subscription, the handler and its reader. -/
structure Stream where
  task : Subscription.Task RpcBlock
  /-- How many of the updates the handler has received. -/
  taken : ℕ
  relay : Relay.State Item 100

/-- What happens next. -/
inductive Label
  | task (l : Subscription.Label RpcBlock)
  /-- The handler receives an update. -/
  | take
  /-- It finds that the subscription has ended. -/
  | finish
  | send
  | recv
  /-- The reader leaves. -/
  | leave

/-- The handler has subscribed, and nothing has been sent. -/
def init (setup : Setup) : Stream :=
  ⟨Subscription.start setup.config setup.activeSubscriptions, 0, Relay.init⟩

/-- What the subscription learns only from the end of the handler. -/
def dropped : Subscription.Label RpcBlock → Bool
  | .shutdown | .close => true
  | .connect _ | .subscribe _ | .notify _ | .streamEnd => false

/-- A step of the handler as a relay. -/
def Stream.relays (setup : Setup) (s : Stream) (taken : ℕ)
    (l : Relay.Label (SlotUpdate RpcBlock)) : Option Stream :=
  (Relay.step setup.respond s.relay l).map fun relay => ⟨s.task, taken, relay⟩

/-- A step, as long as there is the process. -/
def next (setup : Setup) (s : Stream) : Label → Option Stream
  | .task l =>
    if dropped l && !s.relay.pc.ended then none
    else (Subscription.step setup.config s.task l).map fun task => { s with task := task }
  | .take =>
    match s.task.sent[s.taken]? with
    | some update => s.relays setup (s.taken + 1) (.take update)
    | none => none
  | .finish =>
    if s.task.pc.running || s.taken < s.task.sent.length then none
    else s.relays setup s.taken .finish
  | .send => s.relays setup s.taken .send
  | .recv => s.relays setup s.taken .recv
  | .leave => s.relays setup s.taken .leave

/-- The client of a task that panics is dropped while the task unwinds. -/
def Stream.aborted (setup : Setup) (s : Stream) : Bool :=
  match setup.config.blockOn with
  | .completes => false
  | .panics => s.task.pc = .panicked || s.relay.pc.hasPanicked

/-- The steps of the task, the handler and the reader, as long as the process lives. -/
def step (setup : Setup) (s : Stream) (l : Label) : Option Stream :=
  if s.aborted setup then none else next setup s l

/-- The runs of a stream. -/
def machine (setup : Setup) : Machine Stream Label := ⟨init setup, step setup⟩

variable {setup : Setup} {s s' : Stream} {l : Label} {ls : List Label}

/-- The step of the relay, where it takes no update. -/
def Label.own : Label → Option (Relay.Label (SlotUpdate RpcBlock))
  | task _ | take => none
  | finish => some .finish
  | send => some .send
  | recv => some .recv
  | leave => some .leave

/-- The steps, each with what it needs. -/
inductive StepsTo (setup : Setup) (s : Stream) : Label → Stream → Prop
  | task {l : Subscription.Label RpcBlock} {t : Subscription.Task RpcBlock}
    (ended : dropped l = true → s.relay.pc.ended = true)
    (steps : Subscription.step setup.config s.task l = some t) :
    StepsTo setup s (.task l) { s with task := t }
  | take {update : SlotUpdate RpcBlock} {relay : Relay.State Item 100}
    (next : s.task.sent[s.taken]? = some update)
    (relays : Relay.step setup.respond s.relay (.take update) = some relay) :
    StepsTo setup s .take { s with taken := s.taken + 1, relay := relay }
  | other {l : Label} {k : Relay.Label (SlotUpdate RpcBlock)} {relay : Relay.State Item 100}
    (own : l.own = some k) (done : k = .finish → s.task.pc.running = false)
    (relays : Relay.step setup.respond s.relay k = some relay) :
    StepsTo setup s l { s with relay := relay }

theorem stepsTo_of_next (hst : next setup s l = some s') : StepsTo setup s l s' := by
  cases l with
  | task l =>
    obtain ⟨hc, hst⟩ := Option.ite_none_left_eq_some.1 hst
    obtain ⟨t, ht, rfl⟩ := Option.map_eq_some_iff.1 hst
    refine .task (fun hd => ?_) ht
    simpa [hd] using hc
  | take =>
    rw [next] at hst
    split at hst
    next update hu =>
      obtain ⟨relay, hrel, rfl⟩ := Option.map_eq_some_iff.1 hst
      exact .take hu hrel
    next => cases hst
  | finish =>
    obtain ⟨hc, hst⟩ := Option.ite_none_left_eq_some.1 hst
    obtain ⟨relay, hrel, rfl⟩ := Option.map_eq_some_iff.1 hst
    rw [Bool.or_eq_true, not_or, Bool.not_eq_true] at hc
    exact .other rfl (fun _ => hc.1) hrel
  | send =>
    obtain ⟨relay, hrel, rfl⟩ := Option.map_eq_some_iff.1 hst
    exact .other rfl nofun hrel
  | recv =>
    obtain ⟨relay, hrel, rfl⟩ := Option.map_eq_some_iff.1 hst
    exact .other rfl nofun hrel
  | leave =>
    obtain ⟨relay, hrel, rfl⟩ := Option.map_eq_some_iff.1 hst
    exact .other rfl nofun hrel

theorem stepsTo_of_step (hst : step setup s l = some s') : StepsTo setup s l s' :=
  stepsTo_of_next (Option.ite_none_left_eq_some.1 hst).2

/-! ## The two parts -/

/-- The steps of the subscription in a run. -/
def taskLabels (ls : List Label) : List (Subscription.Label RpcBlock) :=
  ls.filterMap fun
    | .task l => some l
    | .take | .finish | .send | .recv | .leave => none

theorem mem_taskLabels {l : Subscription.Label RpcBlock} : l ∈ taskLabels ls ↔ .task l ∈ ls := by
  rw [taskLabels, List.mem_filterMap]
  constructor
  · rintro ⟨k, hk, he⟩
    cases k <;> cases he
    exact hk
  · exact fun h => ⟨_, h, rfl⟩

theorem taskLabels_task (ls : List Label) (l : Subscription.Label RpcBlock) :
    taskLabels (ls ++ [.task l]) = taskLabels ls ++ [l] := List.filterMap_append

theorem taskLabels_take (ls : List Label) : taskLabels (ls ++ [.take]) = taskLabels ls :=
  List.filterMap_append.trans (List.append_nil _)

theorem taskLabels_of_own (ls : List Label) {k : Relay.Label (SlotUpdate RpcBlock)}
    (h : l.own = some k) : taskLabels (ls ++ [l]) = taskLabels ls := by
  have hnil : taskLabels [l] = [] := by cases l <;> cases h <;> rfl
  rw [taskLabels, List.filterMap_append]
  exact (congrArg _ hnil).trans (List.append_nil _)

theorem item_of_own {k : Relay.Label (SlotUpdate RpcBlock)} (h : l.own = some k) :
    k.item = none := by
  cases l <;> cases h <;> rfl

/-- The subscription and the relay have taken runs of their own, the relay with the first of the
    updates that have been sent. The handler drops the subscription when it ends, and it ends of
    itself only if there is no endpoint, and the panic of the subscription aborts no process. -/
structure Parts (setup : Setup) (ls : List Label) (s : Stream)
    (ks : List (Relay.Label (SlotUpdate RpcBlock))) : Prop where
  task : (Subscription.machine setup.config
    (Subscription.start setup.config setup.activeSubscriptions)).Run (taskLabels ls) s.task
  relay : (Relay.machine 100 setup.respond).Run ks s.relay
  taken : Relay.taken ks = s.task.sent.take s.taken
  le : s.taken ≤ s.task.sent.length
  closed : s.task.closed = true → s.relay.pc.ended = true
  ended : s.task.pc.running = false → s.relay.pc.ended = true ∨ setup.config.wsEndpoints = []
  finish : .finish ∈ ks → setup.config.wsEndpoints = [] ∧ setup.config.blockOn = .completes

/-- A relay that has ended stays so. -/
theorem ended_of_step {relay relay' : Relay.State Item 100}
    {k : Relay.Label (SlotUpdate RpcBlock)}
    (hst : Relay.step setup.respond relay k = some relay') (he : relay.pc.ended = true) :
    relay'.pc.ended = true := by
  cases Relay.stepsTo_of_step hst with
  | take update hpc => rw [hpc] at he; cases he
  | finish hpc => rw [hpc] at he; cases he
  | sent hpc => rw [hpc] at he; cases he
  | unsent hpc => rw [hpc] at he; cases he
  | recv => exact he
  | leave => exact he

/-- Without an endpoint, the subscription ends only by its panic. -/
theorem Parts.panicked {ks : List (Relay.Label (SlotUpdate RpcBlock))} (h : Parts setup ls s ks)
    (hno : setup.config.wsEndpoints = []) (hr : s.task.pc.running = false) :
    s.task.pc = .panicked := by
  rcases (Subscription.sent_of_no_endpoint hno h.task.reachable).2 with hpc | hpc
  · rw [hpc] at hr
    cases hr
  · exact hpc

theorem completes_of_panicked (hp : s.task.pc = .panicked) (halive : s.aborted setup = false) :
    setup.config.blockOn = .completes := by
  rw [Stream.aborted] at halive
  cases hb : setup.config.blockOn with
  | completes => rfl
  | panics => simp [hb, hp] at halive

theorem Parts.step {ks : List (Relay.Label (SlotUpdate RpcBlock))} (h : Parts setup ls s ks)
    (hst : step setup s l = some s') : ∃ ks', Parts setup (ls ++ [l]) s' ks' := by
  obtain ⟨halive, hst⟩ := Option.ite_none_left_eq_some.1 hst
  rw [Bool.not_eq_true] at halive
  cases stepsTo_of_next hst with
  | @task l t hd ht =>
    obtain ⟨hi, -⟩ := Subscription.active_of_reachable h.task.reachable
    obtain ⟨more, hmore⟩ := Subscription.sent_prefix_of_step ht
    refine ⟨ks, ?_, h.relay, ?_, ?_, fun hc' => ?_, fun hr' => ?_, h.finish⟩
    · rw [taskLabels_task]
      exact .snoc h.task ht
    · rw [h.taken, ← hmore, List.take_append_of_le_length h.le]
    · exact h.le.trans (hmore ▸ by simp)
    · cases hc : s.task.closed with
      | true => exact h.closed hc
      | false =>
        rcases Subscription.sent_of_open ht hc with ⟨-, ho | rfl⟩ | ⟨-, ho, -⟩
        · exact absurd (ho.symm.trans hc') nofun
        · exact hd rfl
        · exact absurd (ho.symm.trans hc') nofun
    · cases hr : s.task.pc.running with
      | false => exact h.ended hr
      | true =>
        cases hc : s.task.closed with
        | true => exact Or.inl (h.closed hc)
        | false =>
          by_cases hne : setup.config.wsEndpoints = []
          · exact Or.inr hne
          · rcases Subscription.running_of_step hi ht hc hne hr with ho | rfl
            · exact absurd (ho.symm.trans hr') nofun
            · exact Or.inl (hd rfl)
  | @take update relay hu hrel =>
    obtain ⟨hlt, hget⟩ := List.getElem?_eq_some_iff.1 hu
    refine ⟨_, taskLabels_take ls ▸ h.task, .snoc h.relay hrel, ?_, hlt,
      fun hc => ended_of_step hrel (h.closed hc), fun hr => ?_, fun hf => ?_⟩
    · rw [Relay.taken_take, h.taken, List.take_add_one, hu]
      rfl
    · exact (h.ended hr).imp_left (ended_of_step hrel)
    · rcases List.mem_append.1 hf with hf | hf
      · exact h.finish hf
      · exact absurd (List.mem_singleton.1 hf) nofun
  | @other l k relay hown hdone hrel =>
    refine ⟨_, taskLabels_of_own ls hown ▸ h.task, .snoc h.relay hrel, ?_, h.le,
      fun hc => ended_of_step hrel (h.closed hc), fun hr => ?_, fun hf => ?_⟩
    · rw [Relay.taken_of_item (item_of_own hown), h.taken]
    · exact (h.ended hr).imp_left (ended_of_step hrel)
    · rcases List.mem_append.1 hf with hf | hf
      · exact h.finish hf
      · -- The handler finds that the subscription has ended, but has not ended itself.
        obtain rfl := List.mem_singleton.1 hf
        have hno : setup.config.wsEndpoints = [] := by
          refine (h.ended (hdone rfl)).resolve_left fun he => ?_
          cases Relay.stepsTo_of_step hrel with
          | finish hpc => rw [hpc] at he; cases he
        exact ⟨hno, completes_of_panicked (h.panicked hno (hdone rfl)) halive⟩

theorem exists_parts (h : (machine setup).Run ls s) : ∃ ks, Parts setup ls s ks := by
  refine h.invariant (P := fun ls s => ∃ ks, Parts setup ls s ks) ?_
    fun _ _ _ _ _ ⟨_, hp⟩ hst => hp.step hst
  exact ⟨[], .nil, .nil, rfl, Nat.zero_le _, nofun, nofun, nofun⟩

/-! ## What is received -/

/-- What the service makes of what the subscription has learnt. -/
def Setup.items (setup : Setup) (ls : List Label) : List Item :=
  Relay.emitted setup.respond ((taskLabels ls).flatMap Subscription.updates)

/-- The reader has received the first of the items; and as long as there are a reader and a handler,
    the others are still to come. -/
theorem received_items (setup : Setup) (ls : List Label) (s : Stream)
    (h : (machine setup).Run ls s) : s.relay.received <+: setup.items ls ∧
      (setup.config.wsEndpoints ≠ [] → s.relay.chan.closed = false → s.relay.pc.ended = false →
        s.relay.received ++ s.relay.chan.buf ++ s.relay.pc.pending ++
          Relay.emitted setup.respond (s.task.sent.drop s.taken) = setup.items ls) := by
  obtain ⟨ks, hp⟩ := exists_parts h
  have hsent := Subscription.sends_of_run hp.task
  have hrec := Relay.conserves_of_run hp.relay
  rw [hp.taken] at hrec
  constructor
  · exact hrec.received.trans (((List.take_prefix _ _).trans hsent.isPrefix).filterMap _)
  · intro hne ho he
    have hrun : s.task.pc.running = true := by
      rw [← Bool.not_eq_false]
      intro hr
      rcases hp.ended hr with he' | he'
      · exact absurd (he.symm.trans he') nofun
      · exact hne he'
    have hopen : s.task.closed = false := by
      rw [← Bool.not_eq_true]
      exact fun hc => absurd (he.symm.trans (hp.closed hc)) nofun
    rw [hrec.all ho, ← Relay.emitted_append, List.take_append_drop, hsent.all hrun hopen,
      Setup.items]

/-- A handler with a local endpoint. -/
def localSetup : Setup := ⟨RangeStream.documented, 0, Subscription.localConfig, ∅⟩

/-- The reader receives that the endpoint has refused the connection. -/
def refused : List Label := [.task (.connect (.error "refused")), .take, .send, .recv]

theorem received_items_refused : ∃ s, (machine localSetup).Run refused s ∧
    s.relay.received <+: localSetup.items refused := by
  obtain ⟨s, he⟩ : ∃ s, (machine localSetup).exec refused = some s := ⟨_, rfl⟩
  have hrun := Machine.run_of_exec he
  exact ⟨s, hrun, (received_items localSetup refused s hrun).1⟩

/-- The errors for what the subscription learns of an endpoint that fails. -/
def failures : Subscription.Label RpcBlock → List Item
  | .connect (.error err) =>
    [.error ("Invalid response: " ++ ("Failed to connect to WebSocket: " ++ err))]
  | .subscribe (.error err) => [.error ("Invalid response: " ++ ("Failed to subscribe: " ++ err))]
  | .connect (.ok _) | .subscribe (.ok _) | .notify _ | .streamEnd | .shutdown | .close => []

/-- A notification whose root is not its slot yields nothing. -/
theorem emitted_updates {l : Subscription.Label RpcBlock}
    (h : ∀ n, l = .notify n → n.info.root ≠ n.info.slot) :
    Relay.emitted setup.respond (Subscription.updates l) = failures l := by
  cases l with
  | connect result => cases result <;> rfl
  | subscribe result => cases result <;> rfl
  | notify n =>
    rw [Subscription.updates, if_neg (h n rfl)]
    rfl
  | streamEnd => rfl
  | shutdown => rfl
  | close => rfl

/-- Nor does it make the service panic. -/
theorem respond_ne_panic {l : Subscription.Label RpcBlock}
    (h : ∀ n, l = .notify n → n.info.root ≠ n.info.slot) :
    ∀ update ∈ Subscription.updates l, setup.respond update ≠ .panic := by
  have hnew : ∀ info, setup.respond (.newSlot info) ≠ .panic := fun info => nofun
  have herr : ∀ e, setup.respond (.error e) ≠ .panic := fun e => nofun
  cases l with
  | connect result => cases result <;> simp [Subscription.updates, herr]
  | subscribe result => cases result <;> simp [Subscription.updates, herr]
  | notify n => simp [Subscription.updates, h n rfl, hnew]
  | streamEnd => exact List.forall_mem_nil _
  | shutdown => exact List.forall_mem_nil _
  | close => exact List.forall_mem_nil _

/-- While the root of each notification is before its slot, the reader only receives that the
    endpoints have failed, and the service does not panic. -/
theorem received_prefix_failures (setup : Setup) (ls : List Label) (s : Stream)
    (h : (machine setup).Run ls s)
    (hroot : ∀ n, .task (.notify n) ∈ ls → n.info.root < n.info.slot) :
    s.relay.received <+: (taskLabels ls).flatMap failures ∧ s.relay.pc ≠ .panicked := by
  obtain ⟨ks, hp⟩ := exists_parts h
  have hsent := Subscription.sends_of_run hp.task
  have hne : ∀ l ∈ taskLabels ls, ∀ n, l = .notify n → n.info.root ≠ n.info.slot := by
    rintro _ hl n rfl
    exact UInt64.ne_of_lt (hroot n (mem_taskLabels.1 hl))
  constructor
  · have hitems : Relay.emitted setup.respond ((taskLabels ls).flatMap Subscription.updates) =
        (taskLabels ls).flatMap failures := by
      rw [Relay.emitted, List.filterMap_flatMap]
      exact List.flatMap_congr fun l hl => emitted_updates (hne l hl)
    have hrec := (Relay.conserves_of_run hp.relay).received
    rw [hp.taken] at hrec
    rw [← hitems]
    exact hrec.trans (((List.take_prefix _ _).trans hsent.isPrefix).filterMap _)
  · intro hpc
    obtain ⟨as, update, hks, hpanic, -⟩ := (Relay.ending_of_run hp.relay).panics hpc
    have hmem : update ∈ s.task.sent :=
      List.mem_of_mem_take (hp.taken ▸ hks ▸ List.mem_concat_self)
    obtain ⟨l, hl, hu⟩ := List.mem_flatMap.1 (hsent.isPrefix.subset hmem)
    exact respond_ne_panic (hne l hl) update hu hpanic

/-- The cluster is one slot ahead of its root. -/
def ahead : List Label :=
  [.task (.connect (.ok ())), .task (.subscribe (.ok ())),
    .task (.notify ⟨⟨2, 1, 1⟩, fun _ => .error .rateLimitExceeded⟩), .leave, .take,
    .task .streamEnd]

theorem root_lt_slot_ahead : ∀ n, .task (.notify n) ∈ ahead → n.info.root < n.info.slot := by
  intro n hn
  simp only [ahead, List.mem_cons, Label.task.injEq, Subscription.Label.notify.injEq, reduceCtorEq,
    List.not_mem_nil, or_false, false_or] at hn
  subst hn
  decide

theorem received_prefix_failures_ahead : ∃ s, (machine localSetup).Run ahead s ∧
    s.relay.received <+: (taskLabels ahead).flatMap failures ∧ s.relay.pc ≠ .panicked := by
  obtain ⟨s, he⟩ : ∃ s, (machine localSetup).exec ahead = some s := ⟨_, rfl⟩
  have hrun := Machine.run_of_exec he
  exact ⟨s, hrun, received_prefix_failures localSetup ahead s hrun root_lt_slot_ahead⟩

/-! ## The end of the stream -/

/-- What happens gives the handler nothing to send. -/
def Label.Quiet : Label → Prop
  | task (.connect result) => result = .ok ()
  | task (.subscribe result) => result = .ok ()
  | task (.notify n) => n.info.root ≠ n.info.slot
  | task .streamEnd | task .shutdown | task .close | take | finish | send | recv | leave => True

/-- What the subscription sends without a failure, or a root, are slots. -/
theorem respond_eq_skip {l : Subscription.Label RpcBlock} (h : (Label.task l).Quiet) :
    ∀ update ∈ Subscription.updates l, setup.respond update = .skip := by
  cases l with
  | connect result =>
    obtain rfl : result = .ok () := h
    exact List.forall_mem_nil _
  | subscribe result =>
    obtain rfl : result = .ok () := h
    exact List.forall_mem_nil _
  | notify n =>
    rw [Subscription.updates, if_neg h]
    exact List.forall_mem_singleton.2 rfl
  | streamEnd => exact List.forall_mem_nil _
  | shutdown => exact List.forall_mem_nil _
  | close => exact List.forall_mem_nil _

/-- As long as nothing is to be sent, the handler goes on, and its subscription is active, even if
    the reader has left. -/
theorem leaks (setup : Setup) (ls : List Label) (s : Stream) (h : (machine setup).Run ls s)
    (hne : setup.config.wsEndpoints ≠ []) (hq : ∀ l ∈ ls, l.Quiet) :
    s.relay.pc = .taking ∧ s.task.pc.running = true ∧
      setup.config.subscriptionId ∈ s.task.activeSubscriptions := by
  obtain ⟨ks, hp⟩ := exists_parts h
  have hsent := Subscription.sends_of_run hp.task
  have hpc : s.relay.pc = .taking := by
    refine Relay.taking_of_skip hp.relay (fun update hu => ?_) fun hf => hne (hp.finish hf).1
    obtain ⟨l, hl, hu⟩ := List.mem_flatMap.1
      (hsent.isPrefix.subset (List.mem_of_mem_take (hp.taken ▸ hu)))
    exact respond_eq_skip (hq _ (mem_taskLabels.1 hl)) update hu
  have hrun : s.task.pc.running = true := by
    rw [← Bool.not_eq_false]
    intro hr
    rcases hp.ended hr with he | he
    · rw [hpc] at he
      cases he
    · exact hne he
  exact ⟨hpc, hrun, (Subscription.active_of_reachable hp.task.reachable).2 hrun⟩

theorem leaks_ahead : ∃ s, (machine localSetup).Run ahead s ∧ s.relay.chan.closed = true ∧
    s.relay.pc = .taking ∧ s.task.pc.running = true ∧
      "slot-0" ∈ s.task.activeSubscriptions := by
  obtain ⟨s, he, hc⟩ : ∃ s, (machine localSetup).exec ahead = some s ∧
      s.relay.chan.closed = true := ⟨_, rfl, rfl⟩
  have hrun := Machine.run_of_exec he
  have hq : ∀ l ∈ ahead, l.Quiet := by
    simp [ahead, Label.Quiet]
  exact ⟨s, hrun, hc, leaks localSetup ahead s hrun (List.cons_ne_nil _ _) hq⟩

/-- The reader, who has not left, has come to the end of the stream. -/
structure Stream.AtEnd (setup : Setup) (s : Stream) : Prop where
  alive : s.aborted setup = false
  relay : s.relay.AtEnd

theorem aborted_iff_panicked (hb : setup.config.blockOn = .panics) :
    s.aborted setup = true ↔ s.task.pc = .panicked ∨ s.relay.pc = .panicked := by
  rw [Stream.aborted, hb, ← Relay.Pc.hasPanicked_iff]
  simp

/-- A reader who stays never comes to the end of the stream. The process is aborted only if there is
    no endpoint, before anything is received, or if the service panics at a block. -/
theorem not_atEnd (setup : Setup) (ls : List Label) (s : Stream) (h : (machine setup).Run ls s)
    (hb : setup.config.blockOn = .panics) : ¬s.AtEnd setup ∧ (s.aborted setup = true →
      (setup.config.wsEndpoints = [] ∧ s.relay.received = []) ∨
        ∃ block : RpcBlock, setup.startSlot ≤ block.slot.toInt64 ∧
          .newBlock block ∈ (taskLabels ls).flatMap Subscription.updates ∧
          setup.service.respond (.ok block) = .panic) := by
  obtain ⟨ks, hp⟩ := exists_parts h
  have hend := Relay.ending_of_run hp.relay
  have hsent := Subscription.sends_of_run hp.task
  constructor
  · rintro ⟨halive, he⟩
    rcases he.cases with hpc | hret
    · exact absurd (halive.symm.trans ((aborted_iff_panicked hb).2 (Or.inr hpc))) nofun
    · rcases hend.returns hret with hc | hf
      · exact absurd (he.stays.symm.trans hc) nofun
      · exact absurd (hb.symm.trans (hp.finish hf).2) nofun
  · intro hab
    rcases (aborted_iff_panicked hb).1 hab with hpc | hpc
    · have hno := Subscription.no_endpoint_of_panicked hp.task.reachable hpc
      have hnil := (Subscription.sent_of_no_endpoint hno hp.task.reachable).1
      have hrec := (Relay.conserves_of_run hp.relay).received
      rw [hp.taken, hnil, List.take_nil] at hrec
      exact Or.inl ⟨hno, List.prefix_nil.1 hrec⟩
    · obtain ⟨as, update, hks, hpanic, -⟩ := hend.panics hpc
      have hmem : update ∈ s.task.sent :=
        List.mem_of_mem_take (hp.taken ▸ hks ▸ List.mem_concat_self)
      refine Or.inr ?_
      cases update with
      | newSlot info => cases hpanic
      | error e => cases hpanic
      | newBlock block =>
        rw [Setup.respond] at hpanic
        split at hpanic
        next hle => exact ⟨block, hle, hsent.isPrefix.subset hmem, hpanic⟩
        next => cases hpanic

/-- A handler without an endpoint. -/
def noEndpoint : Setup := ⟨RangeStream.documented, 0, ⟨"slot-0", [], .panics⟩, ∅⟩

/-- A block with a transfer that is without its accounts, announced as a root. -/
def shortRoot : List Label :=
  [.task (.connect (.ok ())), .task (.subscribe (.ok ())),
    .task (.notify ⟨⟨1, 0, 1⟩, fun _ => .ok (singletonBlock transferWithoutAccounts)⟩),
    .take, .take]

theorem respond_transferWithoutAccounts :
    localSetup.respond (.newBlock (singletonBlock transferWithoutAccounts)) = .panic := by
  have hle : localSetup.startSlot ≤ (singletonBlock transferWithoutAccounts).slot.toInt64 := by
    decide
  rw [Setup.respond, if_pos hle]
  exact RangeStream.respond_eq_panic_of_short rfl rfl

theorem not_atEnd_aborted :
    (∃ s, (machine noEndpoint).Run [.task (.connect (.ok ()))] s ∧ ¬s.AtEnd noEndpoint ∧
      s.aborted noEndpoint = true ∧ s.relay.received = []) ∧
    ∃ s, (machine localSetup).Run shortRoot s ∧ ¬s.AtEnd localSetup ∧
      s.aborted localSetup = true ∧ ∃ block : RpcBlock,
        localSetup.service.respond (.ok block) = .panic := by
  constructor
  · obtain ⟨s, he, hab⟩ : ∃ s, (machine noEndpoint).exec [.task (.connect (.ok ()))] = some s ∧
        s.aborted noEndpoint = true := ⟨_, rfl, rfl⟩
    obtain ⟨hend, hcases⟩ := not_atEnd noEndpoint _ s (Machine.run_of_exec he) rfl
    refine ⟨s, Machine.run_of_exec he, hend, hab, ?_⟩
    rcases hcases hab with ⟨-, hrec⟩ | ⟨block, -, hb, -⟩
    · exact hrec
    · cases hb
  · obtain ⟨s, hr, hab⟩ : ∃ s, (machine localSetup).Run shortRoot s ∧
        s.aborted localSetup = true := by
      refine ⟨_, .snoc (.snoc (.snoc (.snoc (.snoc .nil rfl) rfl) rfl) rfl) rfl, ?_⟩
      exact (aborted_iff_panicked rfl).2
        (Or.inr (congrArg Relay.Outcome.pc respond_transferWithoutAccounts))
    obtain ⟨hend, hcases⟩ := not_atEnd localSetup _ s hr rfl
    refine ⟨s, hr, hend, hab, ?_⟩
    rcases hcases hab with ⟨hno, -⟩ | ⟨block, -, -, hp⟩
    · cases hno
    · exact ⟨block, hp⟩

end Sylph.Solana.NewBlocks

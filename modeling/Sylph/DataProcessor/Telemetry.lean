import Sylph.DataProcessor.System

/-!
# Where telemetry goes

The handler of the monitor sends what it is told to the process it runs in, which
is the process that executes the event. So an event never reaches the monitor from
the pool or a worker, and comes back to them instead.

* `Evolves`: what a step adds to the mailboxes and to the record of events, in terms
  of what the process that takes the step does (`evolves_of_stepsTo`);
* `local_of_reachable`: in every run, events are delivered to the process that
  executes them and to no other;
* `quiet_of_reachable`: as long as the pool has accepted no task, no process executes
  an event the monitor is subscribed to;
* `telemetry_reaches_monitor_iff`: hence telemetry does what it is for in those runs
  only in which it has nothing to do.
-/

namespace Sylph.DataProcessor

open Lib Elixir

/-- An event does what it is executed for: it reaches the monitor, once, and not the
    process that executes it. -/
def Emission.ReachesMonitor (e : Emission) : Prop :=
  e.delivered.filter (fun d => d.1 = .monitor) = [(.monitor, .telemetryEvent e.event)] ∧
    ∀ d ∈ e.delivered, d.1 ≠ e.self

/-- The message of a task for a worker. -/
def Msg.isProcessTask {γ : Type} : Msg γ → Bool
  | .processTask _ => true
  | _ => false

/-- `M` and `E` hold of all messages but tasks for workers, and of all events but those
    the monitor is subscribed to. -/
structure Permits (M : Msg Unit → Prop) (E : Event → Prop) : Prop where
  msg : ∀ m, m.isProcessTask = false → M m
  event : ∀ e : Event, e.name ∉ Monitor.subscribed → E e

/-- The messages sent by an effect are in `M`, and the events executed in `E`. -/
def Effect.Within (M : Msg Unit → Prop) (E : Event → Prop) : Effect Unit → Prop
  | .execute e => E e
  | .send _ m => M m
  | _ => True

theorem Effect.within_true (e : Effect Unit) : e.Within (fun _ => True) fun _ => True := by
  rcases e with _ | _ | _ | _ | _ <;> trivial

/-! ## The pool without tasks -/

namespace WorkerPool

variable {γ : Type}

/-- The pool has no task, queued or held by a worker. -/
def Idle (p : WorkerPool γ) : Prop := p.tasks = [] ∧ p.processing = ∅

theorem Idle.grows {p p' : WorkerPool γ} (h : p.Idle) (hg : p.Grows p') : p'.Idle :=
  ⟨hg.tasks.trans h.1, hg.processing.trans h.2⟩

/-- What the pool does with a message is no news to the monitor, or a worker. -/
def Silent (e : Effect γ) : Prop :=
  (∃ event, e = .execute event ∧ event.name ∉ Monitor.subscribed) ∨
    (∃ ref, e = .demonitor ref) ∨ ∃ pid ref, e = .startLink pid ref

theorem silent_handleWorkerExit {env : Env} {pid : Pid} {reason : ExitReason} {p : WorkerPool γ}
    (hp : p.processing.lookup pid = none) {e : Effect γ}
    (h : e ∈ (handleWorkerExit env pid reason p).out) : Silent e := by
  have hx : Event.named "worker_pool" "worker_exit" ∉ Monitor.subscribed := by decide
  have hexit : ∀ ref, ∀ e ∈ (exitEffects env pid ref reason : List (Effect γ)), Silent e := by
    intro ref e h
    rcases List.mem_pair.1 h with rfl | rfl
    · exact .inr (.inl ⟨ref, rfl⟩)
    · exact .inl ⟨_, rfl, hx⟩
  rcases hw : p.workers.lookup pid with _ | ref
  · rw [handleWorkerExit, hw] at h
    exact absurd h List.not_mem_nil
  · obtain ⟨events, hev, he⟩ := handleWorkerExit_eq env reason hw
    rw [he, hev hp] at h
    split at h
    · simp only [Outcome.out, List.map_nil, List.append_nil, List.mem_append] at h
      rcases h with h | h
      · exact hexit ref e h
      · exact .inr (.inr (mem_maybeRestartWorker h))
    · exact hexit ref e h

/-- An idle pool is silent, and stays idle, on any message but a valid task. -/
theorem Idle.handle {env : Env} {msg : Msg γ} {p : WorkerPool γ} (hp : p.Idle)
    (hv : ∀ t, msg = .submitTask t → validateTask t ≠ .ok ()) :
    (∀ e ∈ (handle env msg p).out, Silent e) ∧
      ∀ p', (WorkerPool.handle env msg p).next = some p' → p'.Idle := by
  have hl : ∀ pid, p.processing.lookup pid = none := fun pid => by rw [hp.2]; rfl
  rcases msg with t | _ | _ | ⟨pid, reason⟩ | _ | _ | _ | _ | _
  · rw [WorkerPool.handle, handleCall]
    rcases ht : validateTask t with reason | ⟨⟩
    · exact ⟨fun _ h => absurd h List.not_mem_nil, fun p' h => Option.some_inj.1 h ▸ hp⟩
    · exact absurd ht (hv t rfl)
  · exact ⟨fun _ h => absurd h List.not_mem_nil, fun p' h => Option.some_inj.1 h ▸ hp⟩
  · exact ⟨fun e h => .inr (.inr (mem_startWorkers h)),
      fun p' h => Option.some_inj.1 h ▸ hp.grows (grows_startWorkers env p)⟩
  · refine ⟨fun e h => silent_handleWorkerExit (hl pid) h, fun p' h => ?_⟩
    have hi : Idle (p.afterExit pid reason) := by
      refine ⟨?_, (Dict.erase_of_lookup_none (hl pid)).trans hp.2⟩
      rw [afterExit, hl pid, hp.1]
      rcases reason with _ | _ | _ | _ <;> rfl
    exact hi.grows (grows_handleWorkerExit h)
  all_goals exact ⟨fun _ h => absurd h List.not_mem_nil,
    fun p' h => absurd h.symm (Option.some_ne_none p')⟩

/-- The pool announces a valid task. -/
theorem task_submitted_mem_handle (env : Env) {t : Task γ} (p : WorkerPool γ)
    (ht : validateTask t = .ok ()) :
    ∃ event : Event, event.name = Event.named "worker_pool" "task_submitted" ∧
      .execute event ∈ (handle env (.submitTask t) p).out := by
  simp only [handle, handleCall, ht]
  exact ⟨_, rfl, List.mem_cons_self⟩

end WorkerPool

/-! ## What a step adds -/

namespace System

variable {M : Msg Unit → Prop} {E : Event → Prop} {s s' s₁ s₂ s₃ : System}

/-- From `s` to `s'`, the messages that arrive are in `M`, and the events executed are
    in `E` and handled where they are executed. -/
structure Evolves (M : Msg Unit → Prop) (E : Event → Prop) (s s' : System) : Prop where
  mailbox : ∀ q, ∀ m ∈ s'.mailbox q, m ∈ s.mailbox q ∨ M m
  emitted : ∃ new, s'.emitted = s.emitted ++ new ∧ ∀ e ∈ new, E e.event ∧
    ∃ handlers, e.delivered = Monitor.execute handlers e.self e.event

namespace Evolves

theorem refl (s : System) : Evolves M E s s :=
  ⟨fun _ _ => .inl, [], by rw [List.append_nil], fun _ h => absurd h List.not_mem_nil⟩

theorem trans (h : Evolves M E s₁ s₂) (h' : Evolves M E s₂ s₃) : Evolves M E s₁ s₃ where
  mailbox q m hm := (h'.mailbox q m hm).elim (h.mailbox q m) .inr
  emitted := by
    obtain ⟨new, he, hn⟩ := h.emitted
    obtain ⟨new', he', hn'⟩ := h'.emitted
    refine ⟨new ++ new', by rw [he', he, List.append_assoc], fun e hm => ?_⟩
    rcases List.mem_append.1 hm with hm | hm
    · exact hn e hm
    · exact hn' e hm

/-- Only messages are taken out of mailboxes. -/
theorem of_subset (hm : ∀ q, ∀ m ∈ s'.mailbox q, m ∈ s.mailbox q) (he : s'.emitted = s.emitted) :
    Evolves M E s s' :=
  ⟨fun q m h => .inl (hm q m h), [], by rw [he, List.append_nil],
    fun _ h => absurd h List.not_mem_nil⟩

end Evolves

theorem evolves_setMailbox {p : Proc} {msgs : List (Msg Unit)}
    (h : ∀ m ∈ msgs, m ∈ s.mailbox p ∨ M m) : Evolves M E s (s.setMailbox p msgs) := by
  refine ⟨fun q m hm => ?_, [], (List.append_nil _).symm, fun _ h => absurd h List.not_mem_nil⟩
  change m ∈ Function.update s.mailbox p msgs q at hm
  by_cases hq : q = p
  · subst hq
    rw [Function.update_self] at hm
    exact h m hm
  · rw [Function.update_of_ne hq] at hm
    exact .inl hm

theorem evolves_deliver {d : Proc × Msg Unit} (hd : M d.2) : Evolves M E s (s.deliver d) := by
  refine evolves_setMailbox fun m hm => ?_
  rw [List.mem_append, List.mem_singleton] at hm
  exact hm.imp_right fun h : m = d.2 => h ▸ hd

theorem evolves_deliverAll {ds : List (Proc × Msg Unit)} (hd : ∀ d ∈ ds, M d.2) :
    Evolves M E s (s.deliverAll ds) :=
  List.foldlRecOn ds deliver (.refl s) fun _ h d hm => h.trans (evolves_deliver (hd d hm))

theorem evolves_emit (hP : Permits M E) (self : Proc) {event : Event} (he : E event) :
    Evolves M E s (s.emit self event) := by
  -- What the handlers send is no task for a worker.
  have hd : ∀ d ∈ (Monitor.execute s.handlers self event : List (Proc × Msg Unit)), M d.2 := by
    intro d hd
    rw [Monitor.eq_self_of_mem_execute hd]
    exact hP.msg _ rfl
  refine ⟨(evolves_deliverAll (E := E) hd).mailbox,
    [⟨self, event, Monitor.execute s.handlers self event⟩], rfl, fun e h => ?_⟩
  rw [List.mem_singleton.1 h]
  exact ⟨he, s.handlers, rfl⟩

theorem evolves_spawn (pid : Pid) (ref : Ref) : Evolves M E s (s.spawn pid ref) :=
  (evolves_setMailbox fun _ h => absurd h List.not_mem_nil).trans
    (.of_subset (s := s.setMailbox (.worker pid) []) (fun _ _ h => h) rfl)

theorem evolves_demonitor (ref : Ref) : Evolves M E s (s.demonitor ref) := by
  have h : Evolves M E s (s.setMailbox .pool ((s.mailbox .pool).filter fun m => !isDown ref m)) :=
    evolves_setMailbox fun _ h => .inl (List.mem_filter.1 h).1
  exact h.trans (.of_subset (fun _ _ h => h) rfl)

theorem evolves_take (p : Proc) (i : ℕ) : Evolves M E s (s.take p i) :=
  evolves_setMailbox fun _ h => .inl (List.mem_of_mem_eraseIdx h)

theorem evolves_perform (hP : Permits M E) (now : ℤ) (self : Proc) {e : Effect Unit}
    (he : e.Within M E) : Evolves M E s (s.perform now self e) := by
  rcases e with event | ⟨dest, msg⟩ | ⟨pid, ref⟩ | ref | msg
  · exact evolves_emit hP self he
  · exact evolves_deliver he
  · have hn : Event.named "worker" "start" ∉ Monitor.subscribed := by decide
    exact (evolves_spawn pid ref).trans (evolves_emit hP (.worker pid) (hP.event _ hn))
  · exact evolves_demonitor ref
  · exact .of_subset (fun _ _ h => h) rfl

theorem evolves_performAll (hP : Permits M E) (now : ℤ) (self : Proc) {out : List (Effect Unit)}
    (ho : ∀ e ∈ out, e.Within M E) : Evolves M E s (s.performAll now self out) :=
  List.foldlRecOn out (perform now self) (.refl s) fun _ h e he =>
    h.trans (evolves_perform hP now self (ho e he))

theorem evolves_exitWorker (hP : Permits M E) (pid : Pid) (reason : ExitReason)
    (downFirst : Bool) : Evolves M E s (s.exitWorker pid reason downFirst) := by
  have hd : ∀ d ∈ s.exitSignals pid reason downFirst, M d.2 := by
    intro d hd
    rw [exitSignals] at hd
    split at hd <;> simp only [List.mem_append, List.mem_cons, List.mem_map] at hd
    · rcases hd with ⟨m, -, rfl⟩ | rfl | hd
      · exact hP.msg _ rfl
      · exact hP.msg _ rfl
      · exact absurd hd List.not_mem_nil
    · rcases hd with rfl | ⟨m, -, rfl⟩
      · exact hP.msg _ rfl
      · exact hP.msg _ rfl
  exact (evolves_deliverAll hd).trans (.of_subset (fun _ _ h => h) rfl)

theorem evolves_workerHandles (hP : Permits M E) {env : Worker.Env} {pid : Pid} {downFirst : Bool}
    {msg : Msg Unit} {w : Worker Unit}
    (ho : ∀ e ∈ (Worker.handleInfo env pid msg w).out, e.Within M E) :
    Evolves M E s (s.workerHandles env pid downFirst msg w) := by
  have h := evolves_performAll (s := s) hP env.now (.worker pid) ho
  rw [workerHandles]
  rcases (Worker.handleInfo env pid msg w).next with _ | w'
  · exact h.trans (evolves_exitWorker hP pid _ downFirst)
  · exact h.trans (.of_subset (fun _ _ h => h) rfl)

theorem evolves_monitorHandles (hP : Permits M E) (reports : List Monitor.Report) :
    Evolves M E s (s.monitorHandles reports) :=
  List.foldlRecOn reports _ (.refl s) fun _ h r _ =>
    h.trans (evolves_emit hP .monitor (hP.event r.event r.kind.not_subscribed))

/-! ## The pool in a step -/

theorem deliverAll_frame (ds : List (Proc × Msg Unit)) :
    s.deliverAll ds = { s with mailbox := (s.deliverAll ds).mailbox } := by
  induction ds generalizing s with
  | nil => rfl
  | cons d ds ih => exact ih (s := s.deliver d)

/-- Effects leave the state of the pool and its record to the pool. -/
theorem perform_frame (now : ℤ) (self : Proc) (e : Effect Unit) :
    (s.perform now self e).pool = s.pool ∧ (s.perform now self e).received = s.received := by
  rcases e with event | ⟨dest, msg⟩ | ⟨pid, ref⟩ | ref | msg
  · rw [perform, emit, deliverAll_frame]
    exact ⟨rfl, rfl⟩
  · exact ⟨rfl, rfl⟩
  · rw [perform, emit, deliverAll_frame]
    exact ⟨rfl, rfl⟩
  · exact ⟨rfl, rfl⟩
  · exact ⟨rfl, rfl⟩

theorem performAll_frame (now : ℤ) (self : Proc) (out : List (Effect Unit)) :
    (s.performAll now self out).pool = s.pool ∧
      (s.performAll now self out).received = s.received :=
  List.foldlRecOn (motive := fun s' => s'.pool = s.pool ∧ s'.received = s.received) out
    (perform now self) ⟨rfl, rfl⟩ fun _ h e _ =>
      ⟨(perform_frame now self e).1.trans h.1, (perform_frame now self e).2.trans h.2⟩

theorem workerHandles_frame (env : Worker.Env) (pid : Pid) (downFirst : Bool) (msg : Msg Unit)
    (w : Worker Unit) : (s.workerHandles env pid downFirst msg w).pool = s.pool ∧
      (s.workerHandles env pid downFirst msg w).received = s.received := by
  rw [workerHandles]
  rcases (Worker.handleInfo env pid msg w).next with _ | w'
  · simp only [exitWorker]
    rw [deliverAll_frame]
    exact performAll_frame _ _ _
  · exact performAll_frame _ _ _

theorem monitorHandles_frame (reports : List Monitor.Report) :
    (s.monitorHandles reports).pool = s.pool ∧
      (s.monitorHandles reports).received = s.received := by
  induction reports generalizing s with
  | nil => exact ⟨rfl, rfl⟩
  | cons r reports ih =>
    obtain ⟨h₁, h₂⟩ := perform_frame (s := s) 0 .monitor (.execute r.event)
    obtain ⟨h₃, h₄⟩ := ih (s := s.emit .monitor r.event)
    exact ⟨h₃.trans h₁, h₄.trans h₂⟩

/-- An event executed on the way is on record in the end. -/
theorem emitted_performAll (now : ℤ) (self : Proc) {out : List (Effect Unit)} {event : Event}
    (h : .execute event ∈ out) :
    ∃ e ∈ (s.performAll now self out).emitted, e.self = self ∧ e.event = event := by
  obtain ⟨out₁, out₂, rfl⟩ := List.append_of_mem h
  have hP : Permits (fun _ => True) fun _ => True := ⟨fun _ _ => trivial, fun _ _ => trivial⟩
  -- It is recorded when it is executed, and what follows only adds to the record.
  obtain ⟨new, he, -⟩ := (evolves_performAll (s := (s.performAll now self out₁).emit self event)
    hP now self fun e _ => e.within_true).emitted
  have hs : s.performAll now self (out₁ ++ .execute event :: out₂) =
      ((s.performAll now self out₁).emit self event).performAll now self out₂ := by
    rw [performAll, List.foldl_append]
    rfl
  rw [hs, he]
  exact ⟨⟨self, event, _⟩, List.mem_append_left _ (List.mem_append_right _
    (List.mem_singleton_self _)), rfl, rfl⟩

/-- The pool in a step: it handles a message, with its events on record, or it does not
    take part, or starts. -/
theorem pool_of_stepsTo {l : Label} (h : s.StepsTo l s') :
    (s'.received = s.received ∧
      (s'.pool = s.pool ∨ ∃ name size, s'.pool = some (.initial name size))) ∨
    ∃ env p msg, s.pool = some p ∧ msg ∈ s.mailbox .pool ∧
      s'.pool = (WorkerPool.handle env msg p).next ∧ s'.received = s.received ++ [msg] ∧
      ∀ event, .execute event ∈ (WorkerPool.handle env msg p).out →
        ∃ e ∈ s'.emitted, e.self = .pool ∧ e.event = event := by
  rcases h with _ | _ | hp | _ | _ | _ | ⟨hp, hm⟩ | ⟨hw, hm⟩ | _ | _
  · exact .inl ⟨rfl, .inl rfl⟩
  · exact .inl ⟨rfl, .inl rfl⟩
  · exact .inl ⟨(performAll_frame _ _ _).2, .inr ⟨_, _, rfl⟩⟩
  · exact .inl ⟨rfl, .inl rfl⟩
  · exact .inl ⟨rfl, .inl rfl⟩
  · exact .inl ⟨rfl, .inl rfl⟩
  · exact .inr ⟨_, _, _, hp, hm, rfl, rfl, fun _ => emitted_performAll _ _⟩
  · obtain ⟨h₁, h₂⟩ := workerHandles_frame (s := s.take _ _) _ _ _ _ _
    exact .inl ⟨h₂, .inl h₁⟩
  · obtain ⟨h₁, h₂⟩ := monitorHandles_frame (s := s.take _ _) _
    exact .inl ⟨h₂, .inl h₁⟩
  · rw [exitWorker, deliverAll_frame]
    exact .inl ⟨rfl, .inl rfl⟩

/-- A step adds what the process that takes it sends and executes, if it is the pool or
    a worker, and otherwise neither a task for a worker nor an event the monitor is
    subscribed to. -/
theorem evolves_of_stepsTo (hP : Permits M E) {l : Label} (h : s.StepsTo l s')
    (hpool : ∀ env p msg, s.pool = some p → s'.received = s.received ++ [msg] →
      ∀ e ∈ (WorkerPool.handle env msg p).out, e.Within M E)
    (hworker : ∀ env pid w msg, msg ∈ s.mailbox (.worker pid) →
      ∀ e ∈ (Worker.handleInfo env pid msg w).out, e.Within M E) : Evolves M E s s' := by
  rcases h with _ | _ | hp | _ | _ | _ | ⟨hp, hm⟩ | ⟨hw, hm⟩ | _ | _
  · exact evolves_deliver (hP.msg _ rfl)
  · exact evolves_deliver (hP.msg _ rfl)
  · have hs : Event.named "worker_pool" "start" ∉ Monitor.subscribed := by decide
    have he : ∀ env name size, ∀ e ∈ WorkerPool.startEffects env name size, e.Within M E := by
      intro env name size e he
      rw [WorkerPool.startEffects, List.mem_pair] at he
      rcases he with rfl | rfl
      · exact hP.event _ hs
      · exact hP.msg _ rfl
    have h₀ : Evolves M E s (s.setMailbox .pool []) :=
      evolves_setMailbox fun _ h => absurd h List.not_mem_nil
    exact (h₀.trans (evolves_performAll hP _ .pool (he _ _ _))).trans
      (.of_subset (fun _ _ h => h) rfl)
  · have h₀ : Evolves M E s (s.setMailbox .monitor []) :=
      evolves_setMailbox fun _ h => absurd h List.not_mem_nil
    exact h₀.trans (.of_subset (fun _ _ h => h) rfl)
  · exact .of_subset (fun _ _ h => h) rfl
  · exact evolves_deliver (hP.msg _ rfl)
  · exact ((evolves_take .pool _).trans (evolves_performAll hP _ .pool (hpool _ _ _ hp rfl))).trans
      (.of_subset (fun _ _ h => h) rfl)
  · exact (evolves_take _ _).trans (evolves_workerHandles hP (hworker _ _ _ _ hm))
  · exact (evolves_take .monitor _).trans (evolves_monitorHandles hP _)
  · exact evolves_exitWorker hP _ _ _

/-- In every run, an event is delivered to the process that executes it, if at all. -/
theorem local_of_reachable (hs : machine.Reachable s) :
    ∀ e ∈ s.emitted, ∀ d ∈ e.delivered, d = (e.self, .telemetryEvent e.event) := by
  refine hs.invariant (P := fun s => ∀ e ∈ s.emitted, ∀ d ∈ e.delivered,
    d = (e.self, .telemetryEvent e.event)) (fun _ h => absurd h List.not_mem_nil) ?_
  intro s l s' ih hst e he d hd
  obtain ⟨new, hn, h⟩ := (evolves_of_stepsTo ⟨fun _ _ => trivial, fun _ _ => trivial⟩
    (stepsTo_of_step hst) (fun _ _ _ _ _ e _ => e.within_true)
    fun _ _ _ _ _ e _ => e.within_true).emitted
  rw [hn, List.mem_append] at he
  rcases he with he | he
  · exact ih e he d hd
  · obtain ⟨-, handlers, hh⟩ := h e he
    exact Monitor.eq_self_of_mem_execute (hh ▸ hd)

/-! ## Runs without a task -/

/-- No process has had to do with a task, or executed an event the monitor is
    subscribed to. -/
structure Quiet (s : System) : Prop where
  pool : ∀ p, s.pool = some p → p.Idle
  mailbox : ∀ q, ∀ m ∈ s.mailbox q, m.isProcessTask = false
  emitted : ∀ e ∈ s.emitted, e.event.name ∉ Monitor.subscribed

/-- The pool has handled no task that it accepts. -/
def NoTask (s : System) : Prop :=
  ∀ t, .submitTask t ∈ s.received → WorkerPool.validateTask t ≠ .ok ()

/-- A silent effect brings no task to a worker, and no news to the monitor. -/
theorem within_of_silent {e : Effect Unit} (h : WorkerPool.Silent e) :
    e.Within (fun m => m.isProcessTask = false) fun event => event.name ∉ Monitor.subscribed := by
  rcases h with ⟨event, rfl, h⟩ | ⟨ref, rfl⟩ | ⟨pid, ref, rfl⟩
  · exact h
  · trivial
  · trivial

theorem Quiet.step (h : Quiet s) {l : Label} (hst : s.StepsTo l s') (hn : NoTask s') :
    Quiet s' := by
  have hmsg : ∀ msg, s'.received = s.received ++ [msg] →
      ∀ t, msg = .submitTask t → WorkerPool.validateTask t ≠ .ok () := by
    rintro msg hr t rfl
    exact hn t (hr ▸ List.mem_append_right _ (List.mem_singleton_self _))
  have he : Evolves (fun m => m.isProcessTask = false)
      (fun event => event.name ∉ Monitor.subscribed) s s' := by
    refine evolves_of_stepsTo ⟨fun _ h => h, fun _ h => h⟩ hst ?_ ?_
    · intro env p msg hp hr e he
      exact within_of_silent (((h.pool p hp).handle (hmsg msg hr)).1 e he)
    · -- Without a task, a worker only has its clients to care for.
      intro env pid w msg hm e he
      have hm := h.mailbox _ msg hm
      rcases msg with _ | _ | _ | _ | _ | _ | _ | _ | _
      case processTask => exact absurd hm nofun
      all_goals exact absurd he List.not_mem_nil
  refine ⟨fun p' hp' => ?_, fun q m hm => (he.mailbox q m hm).elim (h.mailbox q m) id, ?_⟩
  · rcases pool_of_stepsTo hst with ⟨-, hp | ⟨name, size, hp⟩⟩ | ⟨env, p, msg, hp, -, hp'', hr, -⟩
    · exact h.pool p' (hp ▸ hp')
    · obtain rfl : WorkerPool.initial name size = p' := Option.some_inj.1 (hp.symm.trans hp')
      exact ⟨rfl, rfl⟩
    · exact ((h.pool p hp).handle (hmsg msg hr)).2 p' (hp'' ▸ hp')
  · obtain ⟨new, hnew, h'⟩ := he.emitted
    intro e hm
    rw [hnew, List.mem_append] at hm
    rcases hm with hm | hm
    · exact h.emitted e hm
    · exact (h' e hm).1

theorem received_of_stepsTo {l : Label} (h : s.StepsTo l s') {m : Msg Unit}
    (hm : m ∈ s.received) : m ∈ s'.received := by
  rcases pool_of_stepsTo h with ⟨hr, -⟩ | ⟨_, _, _, -, -, -, hr, -⟩ <;> rw [hr]
  · exact hm
  · exact List.mem_append_left _ hm

/-- In every run, all is quiet as long as the pool has handled no task that it accepts. -/
theorem quiet_of_reachable (hs : machine.Reachable s) : NoTask s → Quiet s := by
  refine hs.invariant (P := fun s => NoTask s → Quiet s) (fun _ => ?_) fun s l s' ih hst hn => ?_
  · exact ⟨nofun, fun _ _ h => absurd h List.not_mem_nil, fun _ h => absurd h List.not_mem_nil⟩
  · have hst := stepsTo_of_step hst
    exact (ih fun t ht => hn t (received_of_stepsTo hst ht)).step hst hn

/-- In every run, a task that the pool has accepted is announced on record. -/
theorem announced_of_reachable (hs : machine.Reachable s) : ∀ t, .submitTask t ∈ s.received →
    WorkerPool.validateTask t = .ok () → ∃ e ∈ s.emitted, e.self = .pool ∧
      e.event.name = Event.named "worker_pool" "task_submitted" := by
  refine hs.invariant (P := fun s => ∀ t, .submitTask t ∈ s.received →
    WorkerPool.validateTask t = .ok () → ∃ e ∈ s.emitted, e.self = .pool ∧
      e.event.name = Event.named "worker_pool" "task_submitted")
    (fun _ h => absurd h List.not_mem_nil) fun s l s' ih hst t ht hv => ?_
  have hst := stepsTo_of_step hst
  obtain ⟨new, hnew, -⟩ := (evolves_of_stepsTo (M := fun _ => True) (E := fun _ => True)
    ⟨fun _ _ => trivial, fun _ _ => trivial⟩ hst (fun _ _ _ _ _ e _ => e.within_true)
    fun _ _ _ _ _ e _ => e.within_true).emitted
  have hold : .submitTask t ∈ s.received → ∃ e ∈ s'.emitted, e.self = .pool ∧
      e.event.name = Event.named "worker_pool" "task_submitted" := fun ht => by
    obtain ⟨e, he, h⟩ := ih t ht hv
    exact ⟨e, hnew ▸ List.mem_append_left _ he, h⟩
  rcases pool_of_stepsTo hst with ⟨hr, -⟩ | ⟨env, p, msg, -, -, -, hr, hex⟩ <;> rw [hr] at ht
  · exact hold ht
  · rcases List.mem_append.1 ht with ht | ht
    · exact hold ht
    · obtain rfl := List.mem_singleton.1 ht
      obtain ⟨event, hname, hevent⟩ := WorkerPool.task_submitted_mem_handle env p hv
      obtain ⟨e, he, hself, rfl⟩ := hex event hevent
      exact ⟨e, he, hself, hname⟩

/-- What the pool executes does not reach the monitor. -/
theorem not_reachesMonitor (hs : machine.Reachable s) {e : Emission} (he : e ∈ s.emitted)
    (hself : e.self = .pool) : ¬e.ReachesMonitor := by
  rintro ⟨hmon, -⟩
  have hd : (Proc.monitor, Msg.telemetryEvent e.event) ∈ e.delivered :=
    (List.mem_filter.1 (hmon ▸ List.mem_singleton_self _)).1
  -- What the monitor receives here is for the process that executes the event.
  have := congrArg Prod.fst (local_of_reachable hs e he _ hd)
  rw [hself] at this
  exact absurd this nofun

/-- In every run, the events the monitor is subscribed to reach it, once, and not the
    process that executes them, if and only if there are none, the pool having accepted
    no task. -/
theorem telemetry_reaches_monitor_iff (hs : machine.Reachable s) :
    (∀ e ∈ s.emitted, e.event.name ∈ Monitor.subscribed → e.ReachesMonitor) ↔
      ∀ t, .submitTask t ∈ s.received → WorkerPool.validateTask t ≠ .ok () := by
  constructor
  · intro h t ht hv
    obtain ⟨e, he, hself, hname⟩ := announced_of_reachable hs t ht hv
    have hsub : e.event.name ∈ Monitor.subscribed := by rw [hname]; decide
    exact not_reachesMonitor hs he hself (h e he hsub)
  · intro h e he hsub
    exact absurd hsub ((quiet_of_reachable hs h).emitted e he)

/-- The monitor runs, and the pool accepts a task. -/
def announcing : List Label := [
  .startMonitor, .startPool (.starting 0) "pool" 1, .pool (.starting 0) 0,
  .submit 0 "ethereum" "block" (.map []), .pool (.starting 0) 0]

theorem telemetry_announcing : ∃ s, machine.exec announcing = some s ∧ s.emitted.length = 3 ∧
    ((∀ e ∈ s.emitted, e.event.name ∈ Monitor.subscribed → e.ReachesMonitor) ↔
      ∀ t, .submitTask t ∈ s.received → WorkerPool.validateTask t ≠ .ok ()) :=
  have h : machine.exec announcing = some _ := rfl
  ⟨_, h, rfl, telemetry_reaches_monitor_iff (Machine.reachable_of_exec h)⟩

/-- Telemetry does not always reach the monitor. -/
theorem not_forall_reachesMonitor : ¬∀ s, machine.Reachable s →
    ∀ e ∈ s.emitted, e.event.name ∈ Monitor.subscribed → e.ReachesMonitor := fun h => by
  have hx : machine.exec announcing = some _ := rfl
  have hs := Machine.reachable_of_exec hx
  obtain ⟨e, he, hself, hname⟩ := announced_of_reachable hs _ (.tail _ (.head _)) rfl
  have hsub : e.event.name ∈ Monitor.subscribed := by rw [hname]; decide
  exact not_reachesMonitor hs he hself (h _ hs e he hsub)

end System

end Sylph.DataProcessor

import Mathlib.Data.Fintype.Card
import Sylph.DataProcessor.Telemetry

/-!
# How many tasks a life of the pool accepts

The pool with its clients and its mailbox. It handles the messages in the order in which
they arrive, and `Core.DataProcessor.Supervisor` starts it again when it is dead. A client
waits for the answer to its call before it makes another one, and no call runs into its
timeout; all other messages may arrive at any time (`Lives.step`).

The handler of the monitor runs in the pool when the pool executes an event. So the event
of an accepted task comes back as a message, which joins the mailbox, and which the pool
has no clause for. Before it handles this message, the pool handles the calls that have
arrived earlier, one of each client at most.

* `Doomed`: the message is in the mailbox, and with the calls before it the pool cannot
  accept more tasks than there are clients; handling a message keeps it (`Doomed.handled`);
* `accepted_le_clients`: in every run, a life of the pool accepts no more tasks than there
  are clients, once the monitor has attached its handler; and after the first one, the
  message the pool dies of is in the mailbox until it is dead.
-/

namespace Sylph.DataProcessor

open Lib Elixir

/-- The pool, its mailbox, and the calls of its clients of the type `κ`. -/
structure Lives (κ : Type) where
  handlers : Monitor.Handlers
  /-- The pool, when it runs. -/
  pool : Option (WorkerPool Unit)
  /-- The messages with the clients that wait for an answer to them, if they are calls. -/
  mailbox : List (Option κ × Msg Unit)
  /-- The tasks that the pool has accepted since it started, while the handler of the monitor
      was attached. -/
  accepted : List (Task Unit)

namespace Lives

variable {κ : Type}

/-- Nothing runs, and no handler is attached. -/
def initial : Lives κ where
  handlers := []
  pool := none
  mailbox := []
  accepted := []

/-- Whether the handler of the monitor is attached. -/
def Attached (handlers : Monitor.Handlers) : Prop :=
  ("data-processor-monitor", Monitor.subscribed) ∈ handlers

instance (handlers : Monitor.Handlers) : Decidable (Attached handlers) :=
  inferInstanceAs (Decidable (_ ∈ _))

/-- The clients whose calls are in the mailbox. -/
def callers (mailbox : List (Option κ × Msg Unit)) : List κ := mailbox.filterMap Prod.fst

/-- Messages that a client waits for an answer to. -/
def isCall : Msg Unit → Bool
  | .submitTask _ | .getStats => true
  | _ => false

/-! ## Steps -/

/-- What the pool does, as far as its own mailbox is concerned. -/
def perform (handlers : Monitor.Handlers) (mailbox : List (Option κ × Msg Unit)) :
    Effect Unit → List (Option κ × Msg Unit)
  | .execute event =>
    mailbox ++ (Monitor.execute handlers .pool event).map fun d => (none, d.2)
  | .send dest msg => if dest = .pool then mailbox ++ [(none, msg)] else mailbox
  | .demonitor ref => mailbox.filter fun m => !System.isDown ref m.2
  -- The event of a worker that starts is executed by the worker.
  | .startLink .. | .cast _ => mailbox

/-- The effects of a callback of the pool, in their order. -/
def performAll (handlers : Monitor.Handlers) (mailbox : List (Option κ × Msg Unit))
    (out : List (Effect Unit)) : List (Option κ × Msg Unit) :=
  out.foldl (perform handlers) mailbox

/-- The task accepted by the answer to a message. -/
def acceptance : Msg Unit → Option Reply → List (Task Unit)
  | .submitTask task, some (.submitted (.ok ())) => [task]
  | _, _ => []

/-- What happens next. -/
inductive Label (κ : Type)
  | startMonitor
  | startPool (env : WorkerPool.Env) (name : Atom) (size : ℕ)
  /-- A client calls `submit_task`. -/
  | submit (client : κ) (now : ℤ) (chain type : Atom) (data : Term)
  | getStats (client : κ)
  /-- Another message arrives: a worker exits, or the like. -/
  | arrive (msg : Msg Unit)
  /-- The pool handles the first message of its mailbox. -/
  | handle (env : WorkerPool.Env)

/-- A client calls the pool, if it runs and the client does not wait for it already. -/
def call [DecidableEq κ] (client : κ) (msg : Msg Unit) (s : Lives κ) : Option (Lives κ) :=
  if s.pool.isSome ∧ client ∉ callers s.mailbox then
    some { s with mailbox := s.mailbox ++ [(some client, msg)] }
  else none

/-- The pool starts; nothing is left of the messages of the one before it. -/
def started (env : WorkerPool.Env) (name : Atom) (size : ℕ) (s : Lives κ) : Lives κ :=
  { s with
    pool := some (.initial name size)
    mailbox := performAll s.handlers [] (WorkerPool.startEffects env name size)
    accepted := [] }

/-- The pool handles the message `msg`, with the others left in its mailbox. -/
def handled (env : WorkerPool.Env) (p : WorkerPool Unit) (msg : Msg Unit)
    (rest : List (Option κ × Msg Unit)) (s : Lives κ) : Lives κ :=
  let o := WorkerPool.handle env msg p
  { s with
    pool := o.next
    mailbox := performAll s.handlers rest o.out
    accepted := s.accepted ++ if Attached s.handlers then acceptance msg o.answer else [] }

/-- The steps of the pool, its clients and the monitor. -/
def step [DecidableEq κ] (s : Lives κ) : Label κ → Option (Lives κ)
  | .startMonitor => some { s with handlers := Monitor.subscribeToEvents s.handlers }
  | .startPool env name size =>
    match s.pool with
    | none => some (s.started env name size)
    | some _ => none
  | .submit client now chain type data =>
    s.call client (WorkerPool.submitTask now () chain type data)
  | .getStats client => s.call client .getStats
  | .arrive msg =>
    if s.pool.isSome ∧ isCall msg = false then
      some { s with mailbox := s.mailbox ++ [(none, msg)] }
    else none
  | .handle env =>
    match s.pool, s.mailbox with
    | some p, m :: rest => some (s.handled env p m.2 rest)
    | _, _ => none

/-- The lives of the pool, one after the other. -/
def machine [DecidableEq κ] : Machine (Lives κ) (Label κ) := ⟨initial, step⟩

/-! ## The mailbox -/

/-- The calls in a mailbox are those of different clients, who wait for their answers. -/
structure Orderly (mailbox : List (Option κ × Msg Unit)) : Prop where
  nodup : (callers mailbox).Nodup
  called : ∀ m ∈ mailbox, isCall m.2 = true → ∃ client, m.1 = some client

section Mailbox

variable {handlers : Monitor.Handlers} {mailbox mailbox' : List (Option κ × Msg Unit)}
  {out : List (Effect Unit)}

@[simp] theorem callers_append :
    callers (mailbox ++ mailbox') = callers mailbox ++ callers mailbox' :=
  List.filterMap_append

@[simp] theorem callers_cons (m : Option κ × Msg Unit) :
    callers (m :: mailbox) = m.1.toList ++ callers mailbox := by
  rcases m with ⟨_ | client, msg⟩ <;> rfl

/-- Messages that no client waits for join the mailbox, and others are taken out. -/
structure Moves (mailbox mailbox' : List (Option κ × Msg Unit)) : Prop where
  callers : (callers mailbox').Sublist (callers mailbox)
  mem : ∀ m ∈ mailbox', m ∈ mailbox ∨ isCall m.2 = false

theorem Moves.refl (mailbox : List (Option κ × Msg Unit)) : Moves mailbox mailbox :=
  ⟨.refl _, fun _ => .inl⟩

theorem Moves.trans {mailbox'' : List (Option κ × Msg Unit)} (h : Moves mailbox mailbox')
    (h' : Moves mailbox' mailbox'') : Moves mailbox mailbox'' :=
  ⟨h'.callers.trans h.callers, fun m hm => (h'.mem m hm).elim (h.mem m) .inr⟩

theorem Orderly.moves (h : Orderly mailbox) (hm : Moves mailbox mailbox') : Orderly mailbox' where
  nodup := h.nodup.sublist hm.callers
  called m hm' hc := by
    rcases hm.mem m hm' with hm' | hm'
    · exact h.called m hm' hc
    · exact absurd hc (Bool.eq_false_iff.1 hm')

/-- No client waits for the messages that handlers send. -/
theorem callers_execute (event : Event) :
    callers ((Monitor.execute handlers .pool event).map fun d =>
      ((none, d.2) : Option κ × Msg Unit)) = [] := by
  simp [callers, List.filterMap_map]

theorem moves_perform {e : Effect Unit} (he : ∀ dest msg, e = .send dest msg → isCall msg = false) :
    Moves mailbox (perform handlers mailbox e) := by
  rcases e with event | ⟨dest, msg⟩ | ⟨pid, ref⟩ | ref | msg
  · refine ⟨by simp [perform, callers_execute], fun m hm => ?_⟩
    rcases List.mem_append.1 hm with hm | hm
    · exact .inl hm
    · obtain ⟨d, hd, rfl⟩ := List.mem_map.1 hm
      rw [Monitor.eq_self_of_mem_execute hd]
      exact .inr rfl
  · rw [perform]
    split
    · refine ⟨by simp [callers], fun m hm => ?_⟩
      rcases List.mem_append.1 hm with hm | hm
      · exact .inl hm
      · exact .inr (List.mem_singleton.1 hm ▸ he dest msg rfl)
    · exact .refl mailbox
  · exact .refl mailbox
  · exact ⟨List.filter_sublist.filterMap _, fun m hm => .inl (List.mem_filter.1 hm).1⟩
  · exact .refl mailbox

/-- When a worker exits, the pool sends nothing. -/
theorem send_notMem_handleWorkerExit {env : WorkerPool.Env} {p : WorkerPool Unit} {pid : Pid}
    {reason : ExitReason} {dest : Proc} {m : Msg Unit} :
    .send dest m ∉ (WorkerPool.handleWorkerExit env pid reason p).out := by
  intro h
  rcases hw : p.workers.lookup pid with _ | ref
  · rw [WorkerPool.handleWorkerExit, hw] at h
    exact absurd h List.not_mem_nil
  · obtain ⟨events, -, he⟩ := WorkerPool.handleWorkerExit_eq env reason hw
    have hexit : .send dest m ∉ (WorkerPool.exitEffects env pid ref reason : List (Effect Unit)) :=
      fun h => by rcases List.mem_pair.1 h with h | h <;> cases h
    rw [he] at h
    split at h
    · simp only [Outcome.out, List.mem_append, List.mem_map] at h
      rcases h with (h | h) | ⟨_, -, h⟩
      · exact hexit h
      · obtain ⟨_, _, he⟩ := WorkerPool.mem_maybeRestartWorker h
        cases he
      · cases h
    · exact hexit h

/-- The pool sends tasks to its workers, and nothing else. -/
theorem send_mem_handle {env : WorkerPool.Env} {p : WorkerPool Unit} {msg m : Msg Unit}
    {dest : Proc} (h : .send dest m ∈ (WorkerPool.handle env msg p).out) :
    ∃ pid t, dest = .worker pid ∧ m = .processTask t := by
  rcases msg with t | _ | _ | ⟨pid, reason⟩ | _ | _ | _ | _ | _
  · rcases WorkerPool.handle_submitTask env t p with ⟨_, -, he⟩ | ⟨-, event, he⟩ <;> rw [he] at h
    · exact absurd h List.not_mem_nil
    · rcases WorkerPool.assignPendingTasks_cases env (p.enqueue t) with
        ⟨ha, -⟩ | ⟨w, t', ts, -, -, -, ha⟩ <;> rw [ha] at h
      · cases List.mem_singleton.1 h
      · rcases List.mem_pair.1 h with h | h <;> cases h
        exact ⟨w, t', rfl, rfl⟩
  · exact absurd h List.not_mem_nil
  · obtain ⟨pid, ref, he⟩ := WorkerPool.mem_startWorkers h
    cases he
  · exact absurd h send_notMem_handleWorkerExit
  all_goals exact absurd h List.not_mem_nil

theorem moves_performAll (ho : ∀ dest msg, .send dest msg ∈ out → isCall msg = false) :
    Moves mailbox (performAll handlers mailbox out) :=
  List.foldlRecOn out (perform handlers) (.refl mailbox) fun _ h _ he =>
    h.trans (moves_perform fun dest msg hs => ho dest msg (hs ▸ he))

theorem moves_handle (env : WorkerPool.Env) (p : WorkerPool Unit) (msg : Msg Unit) :
    Moves mailbox (performAll handlers mailbox (WorkerPool.handle env msg p).out) :=
  moves_performAll fun dest m h => by
    obtain ⟨_, _, -, rfl⟩ := send_mem_handle h
    rfl

/-! ## The message the pool dies of -/

/-- Among the messages is one of telemetry, and the calls before it are few enough for the
    pool that has accepted `n` tasks to accept `bound` of them at most. -/
def Doomed (bound n : ℕ) (mailbox : List (Option κ × Msg Unit)) : Prop :=
  ∃ pre event post, mailbox = pre ++ (none, .telemetryEvent event) :: post ∧
    n + (callers pre).length ≤ bound

variable {bound n : ℕ}

theorem Doomed.mem (h : Doomed bound n mailbox) :
    ∃ event, (none, .telemetryEvent event) ∈ mailbox :=
  let ⟨_, event, _, he, _⟩ := h
  ⟨event, he ▸ List.mem_append_right _ List.mem_cons_self⟩

theorem Doomed.le (h : Doomed bound n mailbox) : n ≤ bound :=
  let ⟨_, _, _, _, hn⟩ := h
  (Nat.le_add_right _ _).trans hn

theorem Doomed.mono {n' : ℕ} (h : Doomed bound n mailbox) (hn : n' ≤ n) :
    Doomed bound n' mailbox :=
  let ⟨pre, event, post, he, hb⟩ := h
  ⟨pre, event, post, he, (Nat.add_le_add_right hn _).trans hb⟩

theorem Doomed.append (h : Doomed bound n mailbox) : Doomed bound n (mailbox ++ mailbox') := by
  obtain ⟨pre, event, post, rfl, hn⟩ := h
  exact ⟨pre, event, post ++ mailbox', by simp, hn⟩

/-- Once the first message is handled, it was this one, or there is one call less. -/
theorem Doomed.tail {m : Option κ × Msg Unit} (h : Doomed bound n (m :: mailbox)) :
    (∃ event, m = (none, .telemetryEvent event)) ∨
      Doomed bound (n + m.1.toList.length) mailbox := by
  obtain ⟨pre, event, post, he, hn⟩ := h
  rcases pre with _ | ⟨m', pre⟩
  · exact .inl ⟨event, (List.cons.inj he).1⟩
  · obtain ⟨rfl, hpost⟩ := List.cons.inj he
    rw [callers_cons, List.length_append] at hn
    exact .inr ⟨pre, event, post, hpost, by omega⟩

theorem Doomed.perform (h : Doomed bound n mailbox) (e : Effect Unit) :
    Doomed bound n (perform handlers mailbox e) := by
  rcases e with event | ⟨dest, msg⟩ | ⟨pid, ref⟩ | ref | msg
  · exact h.append
  · rw [Lives.perform]
    split
    · exact h.append
    · exact h
  · exact h
  · -- Only messages of monitors are flushed.
    obtain ⟨pre, event, post, rfl, hn⟩ := h
    have hl : (callers (pre.filter fun m => !System.isDown ref m.2)).length ≤
        (callers pre).length := (List.filter_sublist.filterMap Prod.fst).length_le
    exact ⟨pre.filter fun m => !System.isDown ref m.2, event,
      post.filter fun m => !System.isDown ref m.2,
      by simp [Lives.perform, System.isDown], (Nat.add_le_add_left hl n).trans hn⟩
  · exact h

theorem Doomed.performAll (h : Doomed bound n mailbox) (out : List (Effect Unit)) :
    Doomed bound n (performAll handlers mailbox out) :=
  List.foldlRecOn out (Lives.perform handlers) h fun _ h e _ => h.perform e

/-- The event of an accepted task comes back. -/
theorem doomed_execute (ha : Attached handlers) {event : Event}
    (he : event.name ∈ Monitor.subscribed) (hn : n + (callers mailbox).length ≤ bound) :
    Doomed bound n (perform handlers mailbox (.execute event)) := by
  have hm : ((none, .telemetryEvent event) : Option κ × Msg Unit) ∈
      (Monitor.execute handlers .pool event).map fun d => (none, d.2) := by
    refine List.mem_map.2 ⟨(.pool, .telemetryEvent event), List.mem_flatMap.2 ⟨_, ha, ?_⟩, rfl⟩
    rw [if_pos he]
    exact List.mem_singleton_self _
  have hc : callers ((Monitor.execute handlers .pool event).map fun d =>
      ((none, d.2) : Option κ × Msg Unit)) = [] := callers_execute event
  obtain ⟨pre, post, hl⟩ := List.append_of_mem hm
  rw [hl, callers_append] at hc
  refine ⟨mailbox ++ pre, event, post, by rw [perform, hl, List.append_assoc], ?_⟩
  rw [callers_append, (List.append_eq_nil_iff.1 hc).1, List.append_nil]
  exact hn

/-- What the pool does when it accepts a task. -/
theorem doomed_handle (ha : Attached handlers) {env : WorkerPool.Env} {t : Task Unit}
    {p : WorkerPool Unit} (ht : WorkerPool.validateTask t = .ok ())
    (hn : n + (callers mailbox).length ≤ bound) :
    Doomed bound n
      (performAll handlers mailbox (WorkerPool.handle env (.submitTask t) p).out) := by
  obtain ⟨event, hname, hevent⟩ := WorkerPool.task_submitted_mem_handle env p ht
  have hsub : event.name ∈ Monitor.subscribed := by rw [hname]; decide
  obtain ⟨out₁, out₂, ho⟩ := List.append_of_mem hevent
  have hm : Moves mailbox (performAll handlers mailbox out₁) := moves_performAll fun dest m h => by
    obtain ⟨_, _, -, rfl⟩ := send_mem_handle (ho ▸ List.mem_append_left _ h)
    rfl
  rw [ho, Lives.performAll, List.foldl_append]
  exact (doomed_execute ha hsub ((Nat.add_le_add_left hm.callers.length_le n).trans hn)).performAll
    out₂

end Mailbox

/-! ## Runs -/

/-- A message handled: no task is accepted, as far as the handler of the monitor goes, or
    its own. -/
theorem accepted_handled (env : WorkerPool.Env) (p : WorkerPool Unit) (msg : Msg Unit)
    (rest : List (Option κ × Msg Unit)) (s : Lives κ) :
    (s.handled env p msg rest).accepted = s.accepted ∨
      ∃ t, msg = .submitTask t ∧ WorkerPool.validateTask t = .ok () ∧ Attached s.handlers ∧
        (s.handled env p msg rest).accepted = s.accepted ++ [t] := by
  by_cases ha : Attached s.handlers
  · rcases msg with t | _ | _ | _ | _ | _ | _ | _ | _
    · rcases WorkerPool.handle_submitTask env t p with ⟨_, -, he⟩ | ⟨ht, _, he⟩
      · exact .inl (by simp [handled, he, Outcome.answer, acceptance])
      · exact .inr ⟨t, rfl, ht, ha, by simp [handled, he, Outcome.answer, acceptance, ha]⟩
    all_goals exact .inl (by simp [handled, acceptance])
  · exact .inl (by simp [handled, ha])

section Runs

variable [Fintype κ] {s s' : Lives κ}

/-- What holds in every run. -/
structure Bounded (s : Lives κ) : Prop where
  orderly : Orderly s.mailbox
  accepted : s.accepted.length ≤ Fintype.card κ
  doomed : s.pool.isSome → s.accepted ≠ [] →
    Doomed (Fintype.card κ) s.accepted.length s.mailbox

theorem bounded_initial : Bounded (initial : Lives κ) :=
  ⟨⟨List.nodup_nil, fun _ h => absurd h List.not_mem_nil⟩, Nat.zero_le _, nofun⟩

theorem Bounded.arrive (h : Bounded s) {msg : Msg Unit} (hc : isCall msg = false) :
    Bounded { s with mailbox := s.mailbox ++ [(none, msg)] } := by
  refine ⟨⟨?_, fun m hm hcall => ?_⟩, h.accepted, fun hp ha => (h.doomed hp ha).append⟩
  · simpa [callers] using h.orderly.nodup
  · rcases List.mem_append.1 hm with hm | hm
    · exact h.orderly.called m hm hcall
    · rw [List.mem_singleton.1 hm, hc] at hcall
      exact absurd hcall nofun

/-- The pool handles a message: the one it dies of, or one more call before that one. -/
theorem Bounded.handled (h : Bounded s) {env : WorkerPool.Env} {p : WorkerPool Unit}
    {m : Option κ × Msg Unit} {rest : List (Option κ × Msg Unit)} (hp : s.pool = some p)
    (hm : s.mailbox = m :: rest) : Bounded (s.handled env p m.2 rest) := by
  have ho := h.orderly
  have hd := h.doomed (hp ▸ rfl)
  rw [hm] at ho hd
  have hrest : Orderly rest :=
    ⟨(callers_cons m ▸ ho.nodup).of_append_right, fun m' hm' => ho.called m' (.tail _ hm')⟩
  have hmoves : Orderly (performAll s.handlers rest (WorkerPool.handle env m.2 p).out) :=
    hrest.moves (moves_handle env p m.2)
  rcases accepted_handled env p m.2 rest s with ha | ⟨t, ht, hv, ha, hacc⟩
  · refine ⟨hmoves, ha ▸ h.accepted, fun hp' hne => ?_⟩
    rw [ha] at hne ⊢
    rcases (hd hne).tail with ⟨event, rfl⟩ | hb
    · -- The pool has no clause for the message.
      exact absurd hp' nofun
    · exact (hb.mono (Nat.le_add_right _ _)).performAll _
  · -- The message is the call of a client, which waits no longer.
    obtain ⟨client, hclient⟩ := ho.called m List.mem_cons_self (by rw [ht]; rfl)
    have hbound : s.accepted.length + 1 + (callers rest).length ≤ Fintype.card κ ∨
        Doomed (Fintype.card κ) (s.accepted.length + 1) rest := by
      by_cases hne : s.accepted = []
      · have hcard := ho.nodup.length_le_card
        rw [callers_cons, hclient] at hcard
        exact .inl (by simpa [hne, Nat.add_comm] using hcard)
      · rcases (hd hne).tail with ⟨event, rfl⟩ | hb
        · exact absurd hclient nofun
        · rw [hclient] at hb
          exact .inr hb
    have hdoomed : Doomed (Fintype.card κ) (s.accepted.length + 1)
        (performAll s.handlers rest (WorkerPool.handle env m.2 p).out) := by
      rcases hbound with hn | hb
      · rw [ht]
        exact doomed_handle ha hv hn
      · exact hb.performAll _
    refine ⟨hmoves, ?_, fun _ _ => ?_⟩ <;> rw [hacc, List.length_append]
    · exact hdoomed.le
    · exact hdoomed

theorem bounded_started (env : WorkerPool.Env) (name : Atom) (size : ℕ) (s : Lives κ) :
    Bounded (s.started env name size) := by
  have hm : Moves [] (s.started env name size).mailbox := moves_performAll fun dest msg hs => by
    rcases List.mem_pair.1 hs with hs | hs <;> cases hs
    rfl
  exact ⟨bounded_initial.orderly.moves hm, Nat.zero_le _, fun _ ha => absurd rfl ha⟩

variable [DecidableEq κ]

theorem Bounded.call (h : Bounded s) {client : κ} {msg : Msg Unit}
    (hs : s.call client msg = some s') : Bounded s' := by
  rw [Lives.call] at hs
  split at hs
  · next hc =>
    obtain rfl := Option.some_inj.1 hs
    refine ⟨⟨?_, fun m hm hcall => ?_⟩, h.accepted, fun hp ha => (h.doomed hp ha).append⟩
    · rw [callers_append]
      exact h.orderly.nodup.append (List.nodup_singleton client) (by simpa [callers] using hc.2)
    · rcases List.mem_append.1 hm with hm | hm
      · exact h.orderly.called m hm hcall
      · exact ⟨client, List.mem_singleton.1 hm ▸ rfl⟩
  · exact absurd hs nofun

theorem Bounded.step (h : Bounded s) {l : Label κ} (hs : s.step l = some s') : Bounded s' := by
  rcases l with _ | ⟨env, name, size⟩ | ⟨client, now, chain, type, data⟩ | client | msg | env
  · exact Option.some_inj.1 hs ▸ ⟨h.orderly, h.accepted, h.doomed⟩
  · rcases hp : s.pool with _ | p <;> rw [Lives.step, hp] at hs
    · exact Option.some_inj.1 hs ▸ bounded_started env name size s
    · exact absurd hs nofun
  · exact h.call hs
  · exact h.call hs
  · rw [Lives.step] at hs
    split at hs
    · next hc => exact Option.some_inj.1 hs ▸ h.arrive hc.2
    · exact absurd hs nofun
  · rcases hp : s.pool with _ | p <;> rcases hm : s.mailbox with _ | ⟨m, rest⟩ <;>
      rw [Lives.step, hp, hm] at hs
    · exact absurd hs nofun
    · exact absurd hs nofun
    · exact absurd hs nofun
    · exact Option.some_inj.1 hs ▸ h.handled hp hm

/-- In every run, a life of the pool accepts no more tasks than there are clients, once the
    handler of the monitor is attached; and from the first one on, a message that the pool
    has no clause for is in its mailbox until it is dead. -/
theorem accepted_le_clients (h : machine.Reachable s) :
    s.accepted.length ≤ Fintype.card κ ∧ (s.pool.isSome → s.accepted ≠ [] →
      ∃ event, (none, .telemetryEvent event) ∈ s.mailbox) := by
  have hb : Bounded s := h.invariant bounded_initial fun _ _ _ h => h.step
  exact ⟨hb.accepted, fun hp ha => (hb.doomed hp ha).mem⟩

/-- Two clients call the pool while it starts its worker. -/
def twoCalls : List (Label (Fin 2)) := [
  .startMonitor, .startPool (.starting 0) "pool" 1,
  .submit 0 0 "ethereum" "block" (.map []), .submit 1 0 "ethereum" "block" (.map []),
  .handle (.starting 0), .handle (.starting 0), .handle (.starting 0)]

/-- The tasks of both are accepted, and the next message is the last one. -/
theorem accepted_twoCalls : ∃ s, (machine : Machine (Lives (Fin 2)) _).exec twoCalls = some s ∧
    s.accepted.length = 2 ∧ (s.step (.handle (.starting 0))).map (·.pool.isSome) = some false ∧
    (s.accepted.length ≤ Fintype.card (Fin 2) ∧ (s.pool.isSome → s.accepted ≠ [] →
      ∃ event, (none, .telemetryEvent event) ∈ s.mailbox)) :=
  have h : (machine : Machine (Lives (Fin 2)) _).exec twoCalls = some _ := rfl
  ⟨_, h, rfl, rfl, accepted_le_clients (Machine.reachable_of_exec h)⟩

end Runs

end Lives

end Sylph.DataProcessor

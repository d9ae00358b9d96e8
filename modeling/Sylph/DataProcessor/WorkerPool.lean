import Sylph.DataProcessor.Basic

/-!
# The worker pool

`Core.DataProcessor.WorkerPool`: a process that queues the submitted tasks and
hands them to its workers, which it starts, links and monitors.

* A valid task is queued, and the head of the queue goes to the first worker
  without a task, if there is one (`enqueueAndProcess`).
* A worker that exits is forgotten and replaced; unless it exits with reason
  `:normal`, the task it was on is queued again, up to `maxAttempts` attempts
  (`handleWorkerExit`). When no worker remains, the pool stops.
* `handleInfo` has two clauses; any other message raises.

What the runtime answers while a message is handled is in `Env`: the clock, the
order in which the keys of a map are listed, and the processes started by the
worker module. Logging is left out.
-/

namespace Sylph.DataProcessor

open Lib Elixir

/-- The state of the pool. -/
structure WorkerPool (γ : Type) where
  name : Atom
  size : ℕ
  workers : Dict Pid Ref
  tasks : List (Task γ)
  processing : Dict Pid (Task γ)

namespace WorkerPool

variable {γ : Type}

/-- The answers of the runtime while a message is handled. -/
structure Env where
  /-- `System.system_time()` -/
  now : ℤ
  /-- The order of `Map.keys`. -/
  order : KeyOrder Pid
  /-- The answers of `start_link`, in turn, with the monitor set up. -/
  start : ℕ → Except ExitReason (Pid × Ref)

/-- A runtime whose clock stands still, and that starts the processes `pid`, `pid + 1`,
    and so on. -/
def Env.starting (pid : Pid) : Env where
  now := 0
  order := .stored
  start n := .ok (pid + n, pid + n)

/-- `@max_attempts` -/
def maxAttempts : ℕ := 3

/-- The events of the pool, stamped with the time. -/
def event (env : Env) (name : Atom) (metadata : List (Atom × Term)) : Effect γ :=
  .execute ⟨Event.named "worker_pool" name, [("timestamp", .int env.now)], metadata⟩

/-! ## Client -/

/-- The call made by a client to submit a task. -/
def submitTask (now : ℤ) (ghost : γ) (chain type : Atom) (data : Term) : Msg γ :=
  .submitTask {
    chain := chain
    type := type
    data := data
    attempt := 1
    startedAt := now
    ghost := ghost }

/-! ## Server -/

/-- The pool before it has started its workers. -/
def initial (name : Atom) (size : ℕ) : WorkerPool γ where
  name := name
  size := size
  workers := ∅
  tasks := []
  processing := ∅

/-- What the pool does while it starts. -/
def startEffects (env : Env) (name : Atom) (size : ℕ) : List (Effect γ) :=
  [event env "start" [("name", .atom name), ("size", .int size)], .send .pool .startWorkers]

/-- The start of the pool, with the effects it begins with. -/
def init (env : Env) (name : Atom) (size : ℕ) : Outcome (WorkerPool γ) Reply (Effect γ) :=
  .noreply (initial name size) (startEffects env name size)

/-- A task is accepted by its chain, its type and the shape of its data. -/
def validateTask (task : Task γ) : Result Atom :=
  if task.chain ∈ (["ethereum", "solana"] : List Atom) ∧
      task.type ∈ (["block", "transaction", "token"] : List Atom) ∧ task.data.isMap then
    .ok ()
  else
    .error "invalid_task_format"

/-- The first worker without a task, in the order of the map. -/
def findAvailableWorker (env : Env) (state : WorkerPool γ) : Option Pid :=
  (env.order.list state.workers.keys).find? fun pid =>
    pid ∉ env.order.list state.processing.keys

/-- A task is sent to a worker, and kept until the worker exits. -/
def assignTask (workerPid : Pid) (task : Task γ) (state : WorkerPool γ) :
    WorkerPool γ × List (Effect γ) :=
  ({ state with processing := state.processing.insert workerPid task },
    [.send (.worker workerPid) (.processTask task)])

/-- The first task that waits goes to a free worker, if there are both. -/
def assignPendingTasks (env : Env) (state : WorkerPool γ) : WorkerPool γ × List (Effect γ) :=
  match findAvailableWorker env state with
  | none => (state, [])
  | some workerPid =>
    match state.tasks with
    | task :: remainingTasks => assignTask workerPid task { state with tasks := remainingTasks }
    | [] => (state, [])

/-- A task that is accepted is put at the end of the queue; then one task may be assigned. -/
def enqueueAndProcess (env : Env) (task : Task γ) (state : WorkerPool γ) :
    WorkerPool γ × List (Effect γ) :=
  let submitted := event env "task_submitted"
    [("chain", .atom task.chain), ("type", .atom task.type), ("attempt", .int task.attempt)]
  let state := { state with tasks := state.tasks ++ [task] }
  let (state, out) := assignPendingTasks env state
  (state, submitted :: out)

/-- The calls: tasks are submitted, or the stats asked for. -/
def handleCall (env : Env) (msg : Msg γ) (state : WorkerPool γ) :
    Outcome (WorkerPool γ) Reply (Effect γ) :=
  match msg with
  | .submitTask task =>
    match validateTask task with
    | .ok () =>
      let (state, out) := enqueueAndProcess env task state
      .reply (.submitted (.ok ())) state out
    | .error reason => .reply (.submitted (.error reason)) state []
  | .getStats =>
    .reply (.stats (Dict.size state.workers) state.tasks.length (Dict.size state.processing))
      state []
  | _ => .raise .functionClause []

/-- Start a worker, with the `n`-th answer of the worker module. -/
def startWorker (env : Env) (n : ℕ) (state : WorkerPool γ) : WorkerPool γ × List (Effect γ) :=
  match env.start n with
  | .ok (pid, ref) =>
    ({ state with workers := state.workers.insert pid ref }, [.startLink pid ref])
  | .error _ => (state, [])

/-- `Enum.each(1..size, ...)`: one worker after the other is started. -/
def startWorkers (env : Env) (state : WorkerPool γ) : WorkerPool γ × List (Effect γ) :=
  (List.range (rangeLength 1 state.size)).foldl
    (fun (state, out) n =>
      let (state, started) := startWorker env n state
      (state, out ++ started))
    (state, [])

/-- A worker is started in place of the one that has exited. -/
def maybeRestartWorker (env : Env) (state : WorkerPool γ) : WorkerPool γ × List (Effect γ) :=
  if Dict.size state.workers < state.size then startWorker env 0 state else (state, [])

/-- The task of a worker that has exited is queued again, up to `maxAttempts` times. -/
def maybeRetryTask (env : Env) (task : Option (Task γ)) (state : WorkerPool γ) :
    WorkerPool γ × List (Effect γ) :=
  match task with
  | none => (state, [])
  | some task =>
    if task.attempt < maxAttempts then
      let retriedTask := { task with attempt := task.attempt + 1 }
      ({ state with tasks := state.tasks ++ [retriedTask] },
        [event env "task_retry" [("chain", .atom task.chain), ("type", .atom task.type),
          ("attempt", .int retriedTask.attempt)]])
    else
      (state,
        [event env "task_failed" [("chain", .atom task.chain), ("type", .atom task.type),
          ("attempts", .int task.attempt)]])

/-- The pool once an exited worker is forgotten. -/
def forget (pid : Pid) (state : WorkerPool γ) : WorkerPool γ :=
  { state with workers := state.workers.erase pid, processing := state.processing.erase pid }

/-- The exit of a worker, by its reason and by whether it is the last one. -/
def handleWorkerExit (env : Env) (pid : Pid) (reason : ExitReason) (state : WorkerPool γ) :
    Outcome (WorkerPool γ) Reply (Effect γ) :=
  match state.workers.lookup pid with
  -- `Process.demonitor(nil, [:flush])` raises.
  | none => .raise .argument []
  | some ref =>
    let failedTask := state.processing.lookup pid
    let state := state.forget pid
    let exited := [.demonitor ref,
      event env "worker_exit" [("reason", reason.toTerm), ("worker", .pid pid)]]
    if 0 < Dict.size state.workers then
      match reason with
      | .normal =>
        let (state, started) := maybeRestartWorker env state
        .noreply state (exited ++ started)
      | _ =>
        let (state, started) := maybeRestartWorker env state
        let (state, retried) := maybeRetryTask env failedTask state
        .noreply state (exited ++ started ++ retried)
    else
      .stop .shutdown state exited

/-- The other messages: the start of the workers, and their exits. -/
def handleInfo (env : Env) (msg : Msg γ) (state : WorkerPool γ) :
    Outcome (WorkerPool γ) Reply (Effect γ) :=
  match msg with
  | .startWorkers =>
    let (state, started) := startWorkers env state
    .noreply state started
  | .exit pid reason => handleWorkerExit env pid reason state
  | _ => .raise .functionClause []

/-- The message at the head of the mailbox, dispatched to its callback. -/
def handle (env : Env) (msg : Msg γ) (state : WorkerPool γ) :
    Outcome (WorkerPool γ) Reply (Effect γ) :=
  match msg with
  | .submitTask _ | .getStats => handleCall env msg state
  | _ => handleInfo env msg state

/-! ## What the functions do

A dispatch moves the head of the queue to a worker without a task; a start only
adds workers; an exit forgets the worker, and queues its task again if it is to
be retried. -/

theorem findAvailableWorker_eq_some {env : Env} {s : WorkerPool γ} {w : Pid}
    (h : findAvailableWorker env s = some w) : w ∈ s.workers ∧ w ∉ s.processing := by
  have hw := List.mem_of_find?_eq_some h
  have hp := List.find?_some h
  simp only [KeyOrder.mem_list, decide_eq_true_eq] at hw hp
  exact ⟨AList.mem_keys.2 hw, fun hm => hp (AList.mem_keys.1 hm)⟩

theorem findAvailableWorker_eq_none {env : Env} {s : WorkerPool γ} :
    findAvailableWorker env s = none ↔ ∀ w ∈ s.workers, w ∈ s.processing := by
  simp [findAvailableWorker, AList.mem_keys]

/-- A dispatch: none is possible, or the head of the queue is sent to a worker
    without a task. -/
theorem assignPendingTasks_cases (env : Env) (s : WorkerPool γ) :
    (assignPendingTasks env s = (s, []) ∧ (s.tasks = [] ∨ ∀ w ∈ s.workers, w ∈ s.processing)) ∨
    ∃ w t ts, w ∈ s.workers ∧ w ∉ s.processing ∧ s.tasks = t :: ts ∧
      assignPendingTasks env s =
        ({ s with tasks := ts, processing := s.processing.insert w t },
          [.send (.worker w) (.processTask t)]) := by
  unfold assignPendingTasks
  cases hw : findAvailableWorker env s with
  | none => exact .inl ⟨rfl, .inr (findAvailableWorker_eq_none.1 hw)⟩
  | some w =>
    obtain ⟨hw₁, hw₂⟩ := findAvailableWorker_eq_some hw
    cases ht : s.tasks with
    | nil => exact .inl ⟨rfl, .inl rfl⟩
    | cons t ts => exact .inr ⟨w, t, ts, hw₁, hw₂, rfl, rfl⟩

/-- The pool with one more task in its queue. -/
def enqueue (s : WorkerPool γ) (t : Task γ) : WorkerPool γ := { s with tasks := s.tasks ++ [t] }

/-- A submission: it is rejected, or queued before a dispatch. -/
theorem handle_submitTask (env : Env) (t : Task γ) (s : WorkerPool γ) :
    (∃ reason, validateTask t = .error reason ∧
      handle env (.submitTask t) s = .reply (.submitted (.error reason)) s []) ∨
    (validateTask t = .ok () ∧ ∃ event, handle env (.submitTask t) s =
      .reply (.submitted (.ok ())) (assignPendingTasks env (s.enqueue t)).1
        (.execute event :: (assignPendingTasks env (s.enqueue t)).2)) := by
  rw [handle, handleCall]
  rcases validateTask t with reason | ⟨⟩
  · exact .inl ⟨reason, rfl, rfl⟩
  · exact .inr ⟨rfl, _, rfl⟩

theorem next_submitTask {env : Env} {t : Task γ} {s s' : WorkerPool γ}
    (h : (handle env (.submitTask t) s).next = some s') :
    s' = s ∨ s' = (assignPendingTasks env (s.enqueue t)).1 := by
  rcases handle_submitTask env t s with ⟨_, -, he⟩ | ⟨-, _, he⟩ <;> rw [he] at h
  · exact .inl (Option.some_inj.1 h).symm
  · exact .inr (Option.some_inj.1 h).symm

/-- The tasks that are queued or held by a worker. -/
def live (s : WorkerPool γ) : List (Task γ) := s.tasks ++ Dict.values s.processing

/-- A dispatch moves a task from the queue to a worker. -/
theorem live_assignPendingTasks (env : Env) (s : WorkerPool γ) :
    (assignPendingTasks env s).1.live.Perm s.live := by
  rcases assignPendingTasks_cases env s with ⟨he, -⟩ | ⟨w, t, ts, -, hw, ht, he⟩ <;> rw [he]
  change (ts ++ Dict.values (s.processing.insert w t)).Perm (s.tasks ++ Dict.values s.processing)
  rw [Dict.values_insert_of_notMem t hw, ht]
  exact List.perm_middle

/-- `s'` is `s` with more workers, and nothing else changed. -/
structure Grows (s s' : WorkerPool γ) : Prop where
  name : s'.name = s.name
  size : s'.size = s.size
  tasks : s'.tasks = s.tasks
  processing : s'.processing = s.processing
  workers : ∀ w ∈ s.workers, w ∈ s'.workers

theorem Grows.live {s s' : WorkerPool γ} (h : Grows s s') : s'.live = s.live := by
  rw [WorkerPool.live, h.tasks, h.processing]
  rfl

theorem Grows.refl (s : WorkerPool γ) : Grows s s := ⟨rfl, rfl, rfl, rfl, fun _ h => h⟩

theorem Grows.trans {s₁ s₂ s₃ : WorkerPool γ} (h : Grows s₁ s₂) (h' : Grows s₂ s₃) :
    Grows s₁ s₃ where
  name := h'.name.trans h.name
  size := h'.size.trans h.size
  tasks := h'.tasks.trans h.tasks
  processing := h'.processing.trans h.processing
  workers w hw := h'.workers w (h.workers w hw)

theorem grows_startWorker (env : Env) (n : ℕ) (s : WorkerPool γ) :
    Grows s (startWorker env n s).1 := by
  unfold startWorker
  split
  · exact ⟨rfl, rfl, rfl, rfl, fun w hw => (AList.mem_insert _).2 (.inr hw)⟩
  · exact .refl s

theorem grows_startWorkers (env : Env) (s : WorkerPool γ) : Grows s (startWorkers env s).1 := by
  unfold startWorkers
  generalize rangeLength 1 s.size = n
  induction n with
  | zero => exact .refl s
  | succ n ih =>
    rw [List.range_succ, List.foldl_append]
    exact ih.trans (grows_startWorker env n _)

theorem grows_maybeRestartWorker (env : Env) (s : WorkerPool γ) :
    Grows s (maybeRestartWorker env s).1 := by
  unfold maybeRestartWorker
  split
  · exact grows_startWorker env 0 s
  · exact .refl s

theorem mem_startWorker {env : Env} {n : ℕ} {p : WorkerPool γ} {e : Effect γ}
    (h : e ∈ (startWorker env n p).2) : ∃ pid ref, e = .startLink pid ref := by
  rw [startWorker] at h
  split at h
  · exact ⟨_, _, List.mem_singleton.1 h⟩
  · exact absurd h List.not_mem_nil

theorem mem_startWorkers {env : Env} {p : WorkerPool γ} {e : Effect γ}
    (h : e ∈ (startWorkers env p).2) : ∃ pid ref, e = .startLink pid ref := by
  rw [startWorkers] at h
  generalize rangeLength 1 p.size = n at h
  induction n with
  | zero => exact absurd h List.not_mem_nil
  | succ n ih =>
    rw [List.range_succ, List.foldl_append] at h
    rcases List.mem_append.1 h with h | h
    · exact ih h
    · exact mem_startWorker h

theorem mem_maybeRestartWorker {env : Env} {p : WorkerPool γ} {e : Effect γ}
    (h : e ∈ (maybeRestartWorker env p).2) : ∃ pid ref, e = .startLink pid ref := by
  rw [maybeRestartWorker] at h
  split at h
  · exact mem_startWorker h
  · exact absurd h List.not_mem_nil

/-- The tasks queued again when a worker holding `task` exits. -/
def requeued (reason : ExitReason) (task : Option (Task γ)) : List (Task γ) :=
  match reason, task with
  | .normal, _ | _, none => []
  | _, some task =>
    if task.attempt < maxAttempts then [{ task with attempt := task.attempt + 1 }] else []

@[simp] theorem requeued_none (reason : ExitReason) :
    requeued reason (none : Option (Task γ)) = [] := by
  rcases reason with _ | _ | _ | _ <;> rfl

theorem requeued_some {reason : ExitReason} (hr : reason ≠ .normal) (task : Task γ) :
    requeued reason (some task) = if task.attempt < maxAttempts then
      [{ task with attempt := task.attempt + 1 }] else [] := by
  rcases reason with _ | _ | _ | _
  · exact absurd rfl hr
  all_goals rfl

/-- A task held is given up, or queued again for its next attempt. -/
theorem requeued_cases (reason : ExitReason) (task : Task γ) :
    requeued reason (some task) = [] ∨ (task.attempt < maxAttempts ∧
      requeued reason (some task) = [{ task with attempt := task.attempt + 1 }]) := by
  by_cases hr : reason = .normal
  · subst hr
    exact .inl rfl
  · rw [requeued_some hr]
    split
    · next h => exact .inr ⟨h, rfl⟩
    · exact .inl rfl

/-- A task is queued again, or given up, with an event that says so. -/
theorem maybeRetryTask_eq (env : Env) {reason : ExitReason} (hr : reason ≠ .normal)
    (task : Option (Task γ)) (s : WorkerPool γ) :
    ∃ events : List Event, (task = none → events = []) ∧ maybeRetryTask env task s =
      ({ s with tasks := s.tasks ++ requeued reason task }, events.map .execute) := by
  rcases task with _ | task
  · refine ⟨[], fun _ => rfl, ?_⟩
    rw [requeued_none, List.append_nil]
    rfl
  · rw [requeued_some hr]
    by_cases h : task.attempt < maxAttempts
    · exact ⟨[_], fun hn => absurd hn (Option.some_ne_none task), by simp [maybeRetryTask, h]; rfl⟩
    · exact ⟨[_], fun hn => absurd hn (Option.some_ne_none task), by simp [maybeRetryTask, h]; rfl⟩

/-- More tasks in the queue do not matter for a start. -/
theorem maybeRestartWorker_append (env : Env) (s : WorkerPool γ) (ts : List (Task γ)) :
    maybeRestartWorker env { s with tasks := s.tasks ++ ts } =
      ({ (maybeRestartWorker env s).1 with tasks := (maybeRestartWorker env s).1.tasks ++ ts },
        (maybeRestartWorker env s).2) := by
  unfold maybeRestartWorker startWorker
  by_cases h : Dict.size s.workers < s.size
  · simp only [h, if_true]
    rcases env.start 0 with _ | ⟨w, ref⟩ <;> rfl
  · simp only [h, if_false]

/-- The pool once it has forgotten an exited worker and dealt with its task. -/
def afterExit (pid : Pid) (reason : ExitReason) (s : WorkerPool γ) : WorkerPool γ :=
  { s.forget pid with tasks := s.tasks ++ requeued reason (s.processing.lookup pid) }

/-- The task of an exited worker is taken out. -/
theorem live_forget (pid : Pid) (s : WorkerPool γ) :
    s.live.Perm ((s.processing.lookup pid).toList ++ (s.forget pid).live) := by
  rcases h : s.processing.lookup pid with _ | t
  · have he : (s.forget pid).processing = s.processing := Dict.erase_of_lookup_none h
    rw [live, live, he]
    exact .refl _
  · exact ((Dict.values_perm_of_lookup h).append_left _).trans List.perm_middle

theorem live_afterExit (pid : Pid) (reason : ExitReason) (s : WorkerPool γ) :
    (s.afterExit pid reason).live.Perm
      (requeued reason (s.processing.lookup pid) ++ (s.forget pid).live) := by
  change (s.tasks ++ _ ++ Dict.values _).Perm (_ ++ (s.tasks ++ Dict.values _))
  rw [← List.append_assoc]
  exact List.perm_append_comm.append_right _

/-- What the pool does first when the worker with the monitor `ref` exits. -/
def exitEffects (env : Env) (pid : Pid) (ref : Ref) (reason : ExitReason) : List (Effect γ) :=
  [.demonitor ref, event env "worker_exit" [("reason", reason.toTerm), ("worker", .pid pid)]]

/-- The exit of a worker of the pool: the pool stops if it was the last one, and
    otherwise may start another worker and queues the task again if it is to be retried. -/
theorem handleWorkerExit_eq (env : Env) {pid : Pid} (reason : ExitReason) {s : WorkerPool γ}
    {ref : Ref} (h : s.workers.lookup pid = some ref) :
    ∃ events : List Event, (s.processing.lookup pid = none → events = []) ∧
      handleWorkerExit env pid reason s =
        if 0 < Dict.size (s.forget pid).workers then
          .noreply (maybeRestartWorker env (s.afterExit pid reason)).1
            (exitEffects env pid ref reason ++
              (maybeRestartWorker env (s.afterExit pid reason)).2 ++ events.map .execute)
        else .stop .shutdown (s.forget pid) (exitEffects env pid ref reason) := by
  have hm :=
    maybeRestartWorker_append env (s.forget pid) (requeued reason (s.processing.lookup pid))
  change maybeRestartWorker env (s.afterExit pid reason) = _ at hm
  rw [handleWorkerExit, h, hm]
  by_cases hr : reason = .normal
  · subst hr
    refine ⟨[], fun _ => rfl, ?_⟩
    rw [requeued, List.append_nil, List.map_nil, List.append_nil]
    rfl
  · obtain ⟨events, he, hq⟩ := maybeRetryTask_eq env hr (s.processing.lookup pid)
      (maybeRestartWorker env (s.forget pid)).1
    refine ⟨events, he, ?_⟩
    rcases reason with _ | _ | _ | _
    · exact absurd rfl hr
    all_goals
      dsimp only
      rw [hq]
      rfl

/-- The pool survives the exit of one of its workers if others remain. -/
theorem next_handleWorkerExit {env : Env} {pid : Pid} {reason : ExitReason}
    {s s' : WorkerPool γ} (h : (handleWorkerExit env pid reason s).next = some s') :
    pid ∈ s.workers ∧ 0 < Dict.size (s.forget pid).workers ∧
      s' = (maybeRestartWorker env (s.afterExit pid reason)).1 := by
  rcases hp : s.workers.lookup pid with _ | ref
  · rw [handleWorkerExit, hp] at h
    exact absurd h.symm (Option.some_ne_none s')
  · obtain ⟨events, -, he⟩ := handleWorkerExit_eq env reason hp
    rw [he] at h
    split at h
    · next hn => exact ⟨Dict.mem_of_lookup hp, hn, (Option.some_inj.1 h).symm⟩
    · exact absurd h.symm (Option.some_ne_none s')

/-- It forgets the worker, may start another one, and queues its task again if it is to
    be retried. -/
theorem grows_handleWorkerExit {env : Env} {pid : Pid} {reason : ExitReason}
    {s s' : WorkerPool γ} (h : (handleWorkerExit env pid reason s).next = some s') :
    Grows (s.afterExit pid reason) s' := by
  obtain ⟨-, -, rfl⟩ := next_handleWorkerExit h
  exact grows_maybeRestartWorker env _

/-! ## Annotations

No function of the pool depends on the annotations of the tasks: all commute with
changing them. -/

section Map

variable {δ : Type} (f : γ → δ)

/-- The pool with the annotations of its tasks changed by `f`. -/
def map (s : WorkerPool γ) : WorkerPool δ where
  name := s.name
  size := s.size
  workers := s.workers
  tasks := s.tasks.map (Task.map f)
  processing := Dict.mapVal (Task.map f) s.processing

/-- A pool and effects with the annotations changed by `f`. -/
abbrev mapBoth : WorkerPool γ × List (Effect γ) → WorkerPool δ × List (Effect δ) :=
  Prod.map (map f) (List.map (Effect.map f))

theorem event_map (env : Env) (name : Atom) (metadata : List (Atom × Term)) :
    (event env name metadata : Effect γ).map f = event env name metadata := rfl

theorem validateTask_map (t : Task γ) : validateTask (t.map f) = validateTask t := rfl

theorem forget_map (s : WorkerPool γ) (pid : Pid) :
    (s.map f).forget pid = (s.forget pid).map f := by
  simp [forget, map]

theorem assignPendingTasks_map (env : Env) (s : WorkerPool γ) :
    assignPendingTasks env (s.map f) = mapBoth f (assignPendingTasks env s) := by
  have hw : findAvailableWorker env (s.map f) = findAvailableWorker env s := by
    simp [findAvailableWorker, map]
  unfold assignPendingTasks
  rw [hw]
  cases findAvailableWorker env s with
  | none => rfl
  | some w =>
    cases ht : s.tasks with
    | nil => simp [map, ht]
    | cons t ts => simp [map, ht, assignTask, Msg.map]

theorem startWorker_map (env : Env) (n : ℕ) (s : WorkerPool γ) :
    startWorker env n (s.map f) = mapBoth f (startWorker env n s) := by
  unfold startWorker
  cases env.start n <;> rfl

theorem startWorkers_map (env : Env) (s : WorkerPool γ) :
    startWorkers env (s.map f) = mapBoth f (startWorkers env s) := by
  unfold startWorkers
  rw [show (s.map f).size = s.size from rfl]
  generalize rangeLength 1 s.size = n
  induction n with
  | zero => rfl
  | succ n ih =>
    rw [List.range_succ, List.foldl_append, List.foldl_append, ih]
    simp [startWorker_map]

theorem maybeRestartWorker_map (env : Env) (s : WorkerPool γ) :
    maybeRestartWorker env (s.map f) = mapBoth f (maybeRestartWorker env s) := by
  unfold maybeRestartWorker
  rw [show (s.map f).workers = s.workers from rfl, show (s.map f).size = s.size from rfl]
  split
  · exact startWorker_map f env 0 s
  · rfl

theorem maybeRetryTask_map (env : Env) (task : Option (Task γ)) (s : WorkerPool γ) :
    maybeRetryTask env (task.map (Task.map f)) (s.map f) =
      mapBoth f (maybeRetryTask env task s) := by
  cases task with
  | none => rfl
  | some task =>
    by_cases h : task.attempt < maxAttempts
    · simp [maybeRetryTask, h, map, Task.map, event_map]
    · simp [maybeRetryTask, h, event_map]

theorem handleWorkerExit_map (env : Env) (pid : Pid) (reason : ExitReason) (s : WorkerPool γ) :
    handleWorkerExit env pid reason (s.map f) =
      (handleWorkerExit env pid reason s).map (map f) (Effect.map f) := by
  unfold handleWorkerExit
  rw [show (s.map f).workers = s.workers from rfl]
  cases s.workers.lookup pid with
  | none => rfl
  | some ref =>
    have hl : (s.map f).processing.lookup pid = (s.processing.lookup pid).map (Task.map f) :=
      Dict.lookup_mapVal _ _ _
    simp only [hl, forget_map,
      show ((s.forget pid).map f).workers = (s.forget pid).workers from rfl,
      maybeRestartWorker_map, Prod.map_fst, Prod.map_snd, maybeRetryTask_map]
    split
    · cases reason <;> simp [Outcome.map, event_map]
    · simp [Outcome.map, event_map]

/-- The pool handles an annotated message as it handles the message. -/
theorem handle_map (env : Env) (msg : Msg γ) (s : WorkerPool γ) :
    handle env (msg.map f) (s.map f) = (handle env msg s).map (map f) (Effect.map f) := by
  cases msg with
  | submitTask t =>
    simp only [handle, handleCall, Msg.map, validateTask_map]
    cases validateTask t with
    | error reason => rfl
    | ok =>
      have hq : ({ s.map f with tasks := (s.map f).tasks ++ [t.map f] } : WorkerPool δ) =
          map f { s with tasks := s.tasks ++ [t] } := by simp [map]
      simp only [enqueueAndProcess, hq, assignPendingTasks_map, Outcome.map, Prod.map_fst,
        Prod.map_snd, List.map_cons, event_map, Task.map_chain, Task.map_type, Task.map_attempt]
  | getStats => simp [handle, handleCall, Msg.map, Outcome.map, map]
  | startWorkers =>
    simp only [handle, handleInfo, Msg.map, startWorkers_map, Outcome.map, Prod.map_fst,
      Prod.map_snd]
  | exit pid reason => exact handleWorkerExit_map f env pid reason s
  | down | taskComplete | processTask | telemetryEvent | checkHealth => rfl

end Map

end WorkerPool

end Sylph.DataProcessor

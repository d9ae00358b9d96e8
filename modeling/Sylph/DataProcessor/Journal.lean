import Sylph.DataProcessor.Accounting

/-!
# The journal of the pool

The runs of the pool with a record of what goes through its queue (`Journal.machine`):
every task sent to a worker, and every task put in the queue, in order. The tasks are
annotated by what tells submissions apart; the journal refines the pool and follows
all its runs (`refines_pool`, `exists_journal`).

* `sent_append_tasks`: the queue is first-in first-out; the tasks sent, followed by
  those in the queue, are the tasks enqueued.
* `Tracked`: the invariant of the attempts. Each submission has at most one copy, in the
  queue or held by a worker, whose attempt counts the times it was enqueued.
* `attempts_bounded`: hence a submission is sent at most `maxAttempts` times.
-/

namespace Sylph.DataProcessor

open Lib Elixir

namespace WorkerPool

variable {γ : Type}

/-- The tasks sent to workers, in order. -/
def sentTasks (out : List (Effect γ)) : List (Pid × Task γ) :=
  out.filterMap fun
    | .send (.worker w) (.processTask t) => some (w, t)
    | _ => none

/-- The tasks put in the queue by the pool `p` when it handles a message: a valid task
    that is submitted, and the task of an exited worker that is retried, if the pool
    does not stop. -/
def enqueued (p : WorkerPool γ) : Msg γ → List (Task γ)
  | .submitTask task =>
    match validateTask task with
    | .ok () => [task]
    | .error _ => []
  | .exit pid reason =>
    if pid ∈ p.workers ∧ 0 < Dict.size (p.forget pid).workers then
      requeued reason (p.processing.lookup pid)
    else []
  | _ => []

/-! ## The queue in a step -/

/-- An exit sends nothing to workers. -/
theorem sentTasks_handleWorkerExit (env : Env) (pid : Pid) (reason : ExitReason)
    (p : WorkerPool γ) : sentTasks (handleWorkerExit env pid reason p).out = [] := by
  have hs : sentTasks (maybeRestartWorker env (p.afterExit pid reason)).2 = [] :=
    List.filterMap_eq_nil_iff.2 fun e he => by
      obtain ⟨w, ref, rfl⟩ := mem_maybeRestartWorker he
      rfl
  have he : ∀ events : List Event,
      sentTasks (events.map Effect.execute : List (Effect γ)) = [] := by
    intro events
    refine List.filterMap_eq_nil_iff.2 fun e he => ?_
    obtain ⟨event, -, rfl⟩ := List.mem_map.1 he
    rfl
  rcases hw : p.workers.lookup pid with _ | ref
  · rw [handleWorkerExit, hw]
    rfl
  · obtain ⟨events, -, heq⟩ := handleWorkerExit_eq env reason hw
    rw [heq]
    split
    · rw [Outcome.out, sentTasks, List.filterMap_append, List.filterMap_append]
      change _ ++ sentTasks _ ++ sentTasks _ = _
      rw [hs, he]
      rfl
    · rfl

theorem sentTasks_startWorkers (env : Env) (p : WorkerPool γ) :
    sentTasks (startWorkers env p).2 = [] :=
  List.filterMap_eq_nil_iff.2 fun e he => by
    obtain ⟨w, ref, rfl⟩ := mem_startWorkers he
    rfl

/-- A dispatch sends the head of the queue. -/
theorem tasks_assignPendingTasks (env : Env) (p : WorkerPool γ) :
    p.tasks = (sentTasks (assignPendingTasks env p).2).map Prod.snd ++
      (assignPendingTasks env p).1.tasks := by
  rcases assignPendingTasks_cases env p with ⟨he, -⟩ | ⟨w, t, ts, -, -, ht, he⟩ <;> rw [he]
  · rfl
  · exact ht

theorem enqueued_exit {env : Env} {pid : Pid} {reason : ExitReason} {p p' : WorkerPool γ}
    (h : (handleWorkerExit env pid reason p).next = some p') :
    enqueued p (.exit pid reason) = requeued reason (p.processing.lookup pid) := by
  obtain ⟨hw, hn, -⟩ := next_handleWorkerExit h
  exact if_pos ⟨hw, hn⟩

/-- What is in the queue and what is put in it is what is sent and what remains. -/
theorem tasks_handle {l : Input} {g : γ} {p p' : WorkerPool γ}
    (h : (handle l.env (l.msg g) p).next = some p') : p.tasks ++ enqueued p (l.msg g) =
      (sentTasks (handle l.env (l.msg g) p).out).map Prod.snd ++ p'.tasks := by
  rcases l with ⟨env, chain, type, data⟩ | env | ⟨env, pid, reason⟩
  · change (handle env (.submitTask _) p).next = some p' at h
    change p.tasks ++ enqueued p (.submitTask _) =
      (sentTasks (handle env (.submitTask _) p).out).map Prod.snd ++ p'.tasks
    generalize (⟨chain, type, data, 1, env.now, g⟩ : Task γ) = t at h ⊢
    rcases handle_submitTask env t p with ⟨_, hv, he⟩ | ⟨hv, _, he⟩ <;> rw [he] at h ⊢ <;>
      rw [enqueued, hv] <;> cases h
    · exact List.append_nil _
    · exact tasks_assignPendingTasks env (p.enqueue t)
  · have hp : (startWorkers env p).1 = p' := Option.some_inj.1 h
    change p.tasks ++ [] = (sentTasks (startWorkers env p).2).map Prod.snd ++ _
    rw [sentTasks_startWorkers, List.append_nil, ← hp, (grows_startWorkers env p).tasks]
    rfl
  · change p.tasks ++ enqueued p (.exit pid reason) =
      (sentTasks (handleWorkerExit env pid reason p).out).map Prod.snd ++ p'.tasks
    rw [enqueued_exit h, sentTasks_handleWorkerExit, (grows_handleWorkerExit h).tasks]
    rfl

/-- The pool that stops sends nothing, and queues nothing. -/
theorem tasks_handle_none {l : Input} {g : γ} {p : WorkerPool γ}
    (h : (handle l.env (l.msg g) p).next = none) :
    enqueued p (l.msg g) = [] ∧ sentTasks (handle l.env (l.msg g) p).out = [] := by
  rcases l with ⟨env, chain, type, data⟩ | env | ⟨env, pid, reason⟩
  · change (handle env (.submitTask _) p).next = none at h
    rcases handle_submitTask env _ p with ⟨_, -, he⟩ | ⟨-, _, he⟩ <;> rw [he] at h <;>
      exact absurd h (Option.some_ne_none _)
  · exact absurd h (Option.some_ne_none _)
  · refine ⟨if_neg ?_, sentTasks_handleWorkerExit env pid reason p⟩
    rintro ⟨hw, hn⟩
    obtain ⟨ref, hr⟩ := Option.isSome_iff_exists.1 (AList.lookup_isSome.2 hw)
    obtain ⟨events, -, he⟩ := handleWorkerExit_eq env reason hr
    change (handleWorkerExit env pid reason p).next = none at h
    rw [he, if_pos hn] at h
    exact absurd h (Option.some_ne_none _)

end WorkerPool

/-- The pool, with the number of submissions so far, the tasks sent to workers and the
    tasks put in the queue. -/
structure Journal (γ : Type) where
  pool : Option (WorkerPool γ)
  submitted : ℕ
  sent : List (Pid × Task γ)
  enqueued : List (Task γ)

/-- The submissions made by a message. -/
def Input.submissions : Input → ℕ
  | submit .. => 1
  | _ => 0

namespace Journal

variable {γ : Type}

/-- The journal after the pool `p` has handled a message; the `n`-th submission is
    annotated by `ghost n`. -/
def handled (ghost : ℕ → γ) (j : Journal γ) (p : WorkerPool γ) (l : Input) : Journal γ :=
  let msg := l.msg (ghost j.submitted)
  let o := WorkerPool.handle l.env msg p
  { pool := o.next
    submitted := j.submitted + l.submissions
    sent := j.sent ++ WorkerPool.sentTasks o.out
    enqueued := j.enqueued ++ p.enqueued msg }

/-- The runs of the pool, with what it has done to its tasks. -/
def machine (ghost : ℕ → γ) (name : Atom) (size : ℕ) : Machine (Journal γ) Input where
  init := ⟨some (.initial name size), 0, [], []⟩
  step j l := j.pool.map fun p => j.handled ghost p l

theorem step_eq {ghost : ℕ → γ} {name : Atom} {size : ℕ} {j : Journal γ} {p : WorkerPool γ}
    (hp : j.pool = some p) (l : Input) :
    (machine ghost name size).step j l = some (j.handled ghost p l) := by
  change j.pool.map _ = _
  rw [hp, Option.map_some]

/-! ## The journal and the pool -/

section Pool

variable (ghost : ℕ → γ) (name : Atom) (size : ℕ)

/-- Forgetting annotations and records, the journal is the pool. -/
theorem refines_pool : Machine.Refines (machine ghost name size) (WorkerPool.machine name size)
    (fun j => j.pool.map (WorkerPool.map fun _ => ())) id where
  init := rfl
  step j l j' h := by
    obtain ⟨p, hp, rfl⟩ := Option.map_eq_some_iff.1 h
    simp only [WorkerPool.machine, handled, hp, Option.map_some, id_eq, Option.some.injEq]
    rw [← Input.msg_map (fun _ : γ => ()) (ghost j.submitted) l, WorkerPool.handle_map,
      Outcome.next_map]

/-- The journal follows every run of the pool. -/
theorem exists_journal {ls : List Input} {s : Option (WorkerPool Unit)}
    (h : (WorkerPool.machine name size).Run ls s) :
    ∃ j, j.pool.map (WorkerPool.map fun _ => ()) = s ∧ (machine ghost name size).Run ls j := by
  obtain ⟨ls', j, rfl, hj, hr⟩ := (refines_pool ghost name size).lift (fun j l t ht => by
    rcases hp : j.pool with _ | p
    · rw [hp] at ht
      exact absurd ht.symm (Option.some_ne_none t)
    · have ht' := (refines_pool ghost name size).step j l _ (step_eq hp l)
      exact ⟨l, j.handled ghost p l, rfl, Option.some_inj.1 (ht'.symm.trans ht), step_eq hp l⟩) h
  exact ⟨j, hj, by simpa using hr⟩

end Pool

/-! ## First in, first out -/

variable {ghost : ℕ → γ} {name : Atom} {size : ℕ} {j : Journal γ}

/-- In every run, what was sent and what is in the queue is what was put in it. -/
def InOrder (j : Journal γ) : Prop :=
  ∀ p, j.pool = some p → j.sent.map Prod.snd ++ p.tasks = j.enqueued

theorem inOrder_handled {p : WorkerPool γ} (h : j.sent.map Prod.snd ++ p.tasks = j.enqueued)
    (l : Input) : InOrder (j.handled ghost p l) := by
  intro p' hp'
  have ht := WorkerPool.tasks_handle hp'
  calc
    _ = j.sent.map Prod.snd ++ ((WorkerPool.sentTasks _).map Prod.snd ++ p'.tasks) := by
      rw [handled, List.map_append, List.append_assoc]
    _ = j.sent.map Prod.snd ++ (p.tasks ++ p.enqueued _) := by rw [ht]
    _ = _ := by rw [← List.append_assoc, h]; rfl

/-- In every run, the tasks sent to workers so far, followed by those in the queue, are
    the tasks enqueued so far: the queue is first-in first-out, and loses nothing. -/
theorem sent_append_tasks (h : (machine ghost name size).Reachable j) {p : WorkerPool γ}
    (hp : j.pool = some p) : j.sent.map Prod.snd ++ p.tasks = j.enqueued := by
  refine h.invariant (P := InOrder) ?_ ?_ p hp
  · rintro _ ⟨⟩
    rfl
  · intro j l j' ih hs
    obtain ⟨p, hp, rfl⟩ := Option.map_eq_some_iff.1 hs
    exact inOrder_handled (ih p hp) l

/-- Two workers start, three tasks are submitted, and the worker on the first one dies. -/
def retrying : List Input :=
  [.startWorkers (.starting 0), .submit (.starting 0) "ethereum" "block" (.map []),
    .submit (.starting 0) "solana" "block" (.map []),
    .submit (.starting 0) "ethereum" "token" (.map []), .exit (.starting 2) 1 .shutdown]

theorem sent_append_tasks_retrying : ∃ (j : Journal ℕ) (p : WorkerPool ℕ),
    (machine id "pool" 2).exec retrying = some j ∧ j.pool = some p ∧ p.tasks.length = 2 ∧
      j.sent.map Prod.snd ++ p.tasks = j.enqueued :=
  have h : (machine id "pool" 2).exec retrying = some _ := rfl
  ⟨_, _, h, rfl, rfl, sent_append_tasks (Machine.reachable_of_exec h) rfl⟩

/-! ## Attempts

From here on, tasks are annotated by the number of their submission. -/

/-- The attempts of the copies of the submission `n` among `ts`, in order. -/
def attempts (n : ℕ) (ts : List (Task ℕ)) : List ℕ := (ts.filter (·.ghost = n)).map Task.attempt

theorem attempts_append (n : ℕ) (ts us : List (Task ℕ)) :
    attempts n (ts ++ us) = attempts n ts ++ attempts n us := by
  rw [attempts, List.filter_append, List.map_append]
  rfl

theorem attempts_singleton_self (t : Task ℕ) : attempts t.ghost [t] = [t.attempt] := by
  simp [attempts]

theorem attempts_singleton_of_ne {n : ℕ} {t : Task ℕ} (h : t.ghost ≠ n) : attempts n [t] = [] := by
  simp [attempts, h]

/-- `live` are copies of some of the first `n` submissions, at most one of each, which
    have been enqueued (`enq`) for their first attempt, their second one, and so on, up to
    the attempt of the copy. -/
structure Tracked (enq : List (Task ℕ)) (n : ℕ) (live : List (Task ℕ)) : Prop where
  nodup : (live.map Task.ghost).Nodup
  live : ∀ t ∈ live, attempts t.ghost enq = List.range' 1 t.attempt ∧ 1 ≤ t.attempt ∧
    t.attempt ≤ WorkerPool.maxAttempts
  bounded : ∀ m, ∃ k ≤ WorkerPool.maxAttempts, attempts m enq = List.range' 1 k
  fresh : ∀ m, n ≤ m → attempts m enq = []

namespace Tracked

variable {enq live live' : List (Task ℕ)} {n : ℕ} {t : Task ℕ}

theorem perm (h : Tracked enq n live) (hp : live'.Perm live) : Tracked enq n live' where
  nodup := (hp.map _).nodup_iff.2 h.nodup
  live t ht := h.live t (hp.subset ht)
  bounded := h.bounded
  fresh := h.fresh

/-- A copy is given up. -/
theorem tail (h : Tracked enq n (t :: live)) : Tracked enq n live where
  nodup := (List.nodup_cons.1 h.nodup).2
  live u hu := h.live u (List.mem_cons_of_mem t hu)
  bounded := h.bounded
  fresh := h.fresh

/-- A submission is rejected. -/
theorem reject (h : Tracked enq n live) : Tracked enq (n + 1) live where
  nodup := h.nodup
  live := h.live
  bounded := h.bounded
  fresh m hm := h.fresh m (Nat.le_of_succ_le hm)

/-- A submission without copies is enqueued for an attempt. -/
theorem enqueue (h : Tracked enq n live) {k : ℕ} (hk : k < WorkerPool.maxAttempts)
    (ha : attempts t.ghost enq = List.range' 1 k) (ht : t.attempt = k + 1) (hn : t.ghost < n)
    (hl : t.ghost ∉ live.map Task.ghost) : Tracked (enq ++ [t]) n (t :: live) := by
  have hself : attempts t.ghost (enq ++ [t]) = List.range' 1 t.attempt := by
    rw [attempts_append, ha, attempts_singleton_self, ht, List.range'_1_concat, Nat.add_comm k 1]
  have hother : ∀ m, t.ghost ≠ m → attempts m (enq ++ [t]) = attempts m enq := fun m hm => by
    rw [attempts_append, attempts_singleton_of_ne hm, List.append_nil]
  refine ⟨?_, ?_, ?_, ?_⟩
  · rw [List.map_cons]
    exact List.nodup_cons.2 ⟨hl, h.nodup⟩
  · intro u hu
    rcases List.mem_cons.1 hu with rfl | hu
    · exact ⟨hself, ht ▸ Nat.succ_pos k, ht ▸ hk⟩
    · rw [hother u.ghost fun he => hl (he ▸ List.mem_map_of_mem hu)]
      exact h.live u hu
  · intro m
    by_cases hm : t.ghost = m
    · subst hm
      exact ⟨t.attempt, ht ▸ hk, hself⟩
    · rw [hother m hm]
      exact h.bounded m
  · intro m hm
    rw [hother m (Nat.ne_of_lt (Nat.lt_of_lt_of_le hn hm))]
    exact h.fresh m hm

/-- A submission is accepted. -/
theorem submit (h : Tracked enq n live) (ht : t.ghost = n) (ha : t.attempt = 1) :
    Tracked (enq ++ [t]) (n + 1) (t :: live) := by
  have hfresh := h.fresh n (Nat.le_refl n)
  refine h.reject.enqueue (k := 0) (Nat.succ_pos 2) (ht ▸ hfresh) ha (ht ▸ Nat.lt_succ_self n) ?_
  intro hm
  obtain ⟨u, hu, hg⟩ := List.mem_map.1 hm
  -- A copy of the submission would have been enqueued before.
  obtain ⟨hat, h₁, -⟩ := h.live u hu
  rw [hg, ht, hfresh] at hat
  have := congrArg List.length hat
  rw [List.length_nil, List.length_range'] at this
  omega

/-- A copy is enqueued again, for its next attempt. -/
theorem retry (h : Tracked enq n (t :: live)) (ht : t.attempt < WorkerPool.maxAttempts) :
    Tracked (enq ++ [{ t with attempt := t.attempt + 1 }]) n
      ({ t with attempt := t.attempt + 1 } :: live) := by
  obtain ⟨hat, h₁, -⟩ := h.live t List.mem_cons_self
  have hn : t.ghost < n := by
    by_contra hn
    rw [h.fresh t.ghost (Nat.le_of_not_lt hn)] at hat
    have := congrArg List.length hat
    rw [List.length_nil, List.length_range'] at this
    omega
  exact h.tail.enqueue ht hat rfl hn (List.nodup_cons.1 h.nodup).1

end Tracked

/-- The task of an exited worker is enqueued for its next attempt, or given up. -/
theorem tracked_exit {enq : List (Task ℕ)} {n : ℕ} {p : WorkerPool ℕ}
    (h : Tracked enq n p.live) (pid : Pid) (reason : ExitReason) :
    Tracked (enq ++ WorkerPool.requeued reason (p.processing.lookup pid)) n
      (p.afterExit pid reason).live := by
  refine .perm ?_ (p.live_afterExit pid reason)
  have hf := h.perm (p.live_forget pid).symm
  revert hf
  rcases p.processing.lookup pid with _ | t
  · intro hf
    rw [WorkerPool.requeued_none, List.append_nil]
    exact hf
  · intro hf
    rcases WorkerPool.requeued_cases reason t with hr | ⟨ht, hr⟩ <;> rw [hr]
    · rw [List.append_nil]
      exact hf.tail
    · exact hf.retry ht

/-- Handling a message keeps track of the submissions. -/
theorem tracked_handled {j : Journal ℕ} {p p' : WorkerPool ℕ} {l : Input}
    (h : Tracked j.enqueued j.submitted p.live) (hp : (j.handled id p l).pool = some p') :
    Tracked (j.handled id p l).enqueued (j.handled id p l).submitted p'.live := by
  rcases l with ⟨env, chain, type, data⟩ | env | ⟨env, pid, reason⟩
  · change (WorkerPool.handle env (.submitTask _) p).next = some p' at hp
    change Tracked (j.enqueued ++ p.enqueued (.submitTask _)) (j.submitted + 1) _
    generalize ht : (⟨chain, type, data, 1, env.now, id j.submitted⟩ : Task ℕ) = t at hp ⊢
    rcases WorkerPool.handle_submitTask env t p with ⟨_, hv, he⟩ | ⟨hv, _, he⟩ <;> rw [he] at hp <;>
      rw [WorkerPool.enqueued, hv] <;> cases hp
    · rw [List.append_nil]
      exact h.reject
    · have hs : Tracked (j.enqueued ++ [t]) (j.submitted + 1) (t :: p.live) :=
        h.submit (ht ▸ rfl) (ht ▸ rfl)
      refine hs.perm ((WorkerPool.live_assignPendingTasks env _).trans ?_)
      change (p.tasks ++ [t] ++ Dict.values p.processing).Perm (t :: (p.tasks ++ _))
      rw [List.append_assoc]
      exact List.perm_middle
  · have hs : (p.startWorkers env).1 = p' := Option.some_inj.1 hp
    rw [← hs, (WorkerPool.grows_startWorkers env p).live]
    change Tracked (j.enqueued ++ []) j.submitted p.live
    rw [List.append_nil]
    exact h
  · rw [(WorkerPool.grows_handleWorkerExit hp).live]
    change Tracked (j.enqueued ++ p.enqueued (.exit pid reason)) j.submitted _
    rw [WorkerPool.enqueued_exit hp]
    exact tracked_exit h pid reason

/-- In every run, the tasks of the pool are tracked; the submissions are enqueued at most
    `maxAttempts` times, the attempts in order; and only what is enqueued is sent. -/
structure Bounded (j : Journal ℕ) : Prop where
  tracked : ∀ p, j.pool = some p → Tracked j.enqueued j.submitted p.live
  bounded : ∀ n, ∃ k ≤ WorkerPool.maxAttempts, attempts n j.enqueued = List.range' 1 k
  sent : j.sent.map Prod.snd <+: j.enqueued

theorem Bounded.handled {j : Journal ℕ} {p : WorkerPool ℕ} {l : Input} (h : Bounded j)
    (hp : j.pool = some p) (hr : (machine id name size).Reachable (j.handled id p l)) :
    Bounded (j.handled id p l) := by
  have ht : ∀ p', (j.handled id p l).pool = some p' →
      Tracked (j.handled id p l).enqueued (j.handled id p l).submitted p'.live :=
    fun p' hp' => tracked_handled (h.tracked p hp) hp'
  rcases hp' : (j.handled id p l).pool with _ | p'
  · -- The pool stops, without a further record.
    obtain ⟨he, hs⟩ := WorkerPool.tasks_handle_none hp'
    have he' : (j.handled id p l).enqueued = j.enqueued := by
      rw [Journal.handled]
      exact (congrArg _ he).trans (List.append_nil _)
    have hs' : (j.handled id p l).sent = j.sent := by
      rw [Journal.handled]
      exact (congrArg _ hs).trans (List.append_nil _)
    refine ⟨ht, ?_, ?_⟩
    · rw [he']
      exact h.bounded
    · rw [he', hs']
      exact h.sent
  · exact ⟨ht, (ht p' hp').bounded, ⟨p'.tasks, sent_append_tasks hr hp'⟩⟩

theorem bounded_of_reachable {j : Journal ℕ} (h : (machine id name size).Reachable j) :
    Bounded j := by
  obtain ⟨ls, h⟩ := h
  refine h.invariant (P := fun _ j => Bounded j) ?_ ?_
  · refine ⟨?_, fun n => ⟨0, Nat.zero_le _, rfl⟩, List.nil_prefix⟩
    rintro _ ⟨⟩
    exact ⟨List.nodup_nil, fun t ht => absurd ht List.not_mem_nil,
      fun m => ⟨0, Nat.zero_le _, rfl⟩, fun m _ => rfl⟩
  · intro ls j l j' hr hb hs
    have hr' := (Machine.Run.snoc hr hs).reachable
    obtain ⟨p, hp, rfl⟩ := Option.map_eq_some_iff.1 hs
    exact hb.handled hp hr'

/-- What is enqueued for an attempt but the first one is the task of the worker that
    exits, at its next attempt. -/
theorem eq_exit_of_mem_enqueued {n : ℕ} {p : WorkerPool ℕ} {l : Input} {t : Task ℕ}
    (h : t ∈ p.enqueued (l.msg n)) (ht : t.attempt ≠ 1) : ∃ env pid reason u,
      l = .exit env pid reason ∧ p.processing.lookup pid = some u ∧ u.ghost = t.ghost ∧
      t.attempt = u.attempt + 1 := by
  rcases l with ⟨env, chain, type, data⟩ | env | ⟨env, pid, reason⟩
  · rw [Input.msg, WorkerPool.submitTask, WorkerPool.enqueued] at h
    split at h
    · rw [List.mem_singleton.1 h] at ht
      exact absurd rfl ht
    · exact absurd h List.not_mem_nil
  · exact absurd h List.not_mem_nil
  · rw [Input.msg, WorkerPool.enqueued] at h
    split at h
    · rcases hu : p.processing.lookup pid with _ | u <;> rw [hu] at h
      · rw [WorkerPool.requeued_none] at h
        exact absurd h List.not_mem_nil
      · obtain ⟨-, rfl⟩ := Account.mem_requeued h
        exact ⟨env, pid, reason, u, rfl, hu, rfl, rfl⟩
    · exact absurd h List.not_mem_nil

/-- In every run, a submission is sent to workers at most three times, as its first, its
    second and its third attempt; the tasks queued and held are on one of these attempts;
    and another attempt is enqueued only when the worker that holds the one before exits. -/
theorem attempts_bounded {j : Journal ℕ} (h : (machine id name size).Reachable j) :
    (∀ n, ∃ k ≤ 3, attempts n (j.sent.map Prod.snd) = List.range' 1 k) ∧
    (∀ p, j.pool = some p → ∀ t ∈ p.tasks ++ Dict.values p.processing,
      1 ≤ t.attempt ∧ t.attempt ≤ 3) ∧
    ∀ l j', (machine id name size).step j l = some j' →
      ∃ new, j'.enqueued = j.enqueued ++ new ∧ ∀ t ∈ new, t.attempt ≠ 1 →
        ∃ env pid reason p u, l = .exit env pid reason ∧ j.pool = some p ∧
          p.processing.lookup pid = some u ∧ u.ghost = t.ghost ∧ t.attempt = u.attempt + 1 := by
  have hb := bounded_of_reachable h
  refine ⟨fun n => ?_, fun p hp t ht => ((hb.tracked p hp).live t ht).2, fun l j' hs => ?_⟩
  · obtain ⟨k, hk, he⟩ := hb.bounded n
    have hpre : attempts n (j.sent.map Prod.snd) <+: List.range' 1 k :=
      he ▸ (hb.sent.filter _).map _
    obtain ⟨m, hm⟩ : ∃ m, attempts n (j.sent.map Prod.snd) = (List.range' 1 k).take m :=
      ⟨_, List.prefix_iff_eq_take.1 hpre⟩
    rw [hm]
    rcases Nat.le_total m k with hmk | hkm
    · exact ⟨m, hmk.trans hk, List.take_range'_of_length_ge hmk⟩
    · exact ⟨k, hk, List.take_range'_of_length_le hkm⟩
  · obtain ⟨p, hp, rfl⟩ := Option.map_eq_some_iff.1 hs
    refine ⟨_, rfl, fun t ht h₁ => ?_⟩
    obtain ⟨env, pid, reason, u, rfl, hu⟩ := eq_exit_of_mem_enqueued ht h₁
    exact ⟨env, pid, reason, p, u, rfl, hp, hu⟩

theorem attempts_bounded_retrying : ∃ j : Journal ℕ, (machine id "pool" 2).exec retrying = some j ∧
    j.submitted = 3 ∧
    (∀ n, ∃ k ≤ 3, attempts n (j.sent.map Prod.snd) = List.range' 1 k) ∧
    (∀ p, j.pool = some p → ∀ t ∈ p.tasks ++ Dict.values p.processing,
      1 ≤ t.attempt ∧ t.attempt ≤ 3) ∧
    ∀ l j', (machine id "pool" 2).step j l = some j' →
      ∃ new, j'.enqueued = j.enqueued ++ new ∧ ∀ t ∈ new, t.attempt ≠ 1 →
        ∃ env pid reason p u, l = .exit env pid reason ∧ j.pool = some p ∧
          p.processing.lookup pid = some u ∧ u.ghost = t.ghost ∧ t.attempt = u.attempt + 1 :=
  have h : (machine id "pool" 2).exec retrying = some _ := rfl
  ⟨_, h, rfl, attempts_bounded (Machine.reachable_of_exec h)⟩

end Journal

end Sylph.DataProcessor

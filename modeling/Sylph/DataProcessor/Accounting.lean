import Sylph.DataProcessor.WorkerPool
import Sylph.Lib.Machine

/-!
# Where the accepted tasks are

The runs of the pool under any interleaving of submissions, exits of workers and
its own message to start them, with any answers of the runtime
(`WorkerPool.machine`), and the account of its tasks (`Account.machine`): the same
runs, with every task annotated by the number of the submission it comes from, and
a record of the tasks given up. The account refines the pool and follows all its
runs (`refines_pool`, `exists_account`).

The invariant (`Balanced`): the submissions of the tasks queued, held by workers
and given up are, together, the accepted ones, each once. Hence an accepted
submission is in exactly one place (`places_eq_singleton`). One of the places is
not a failure: the task of a worker that exits with reason `:normal` is given up
without another attempt.
-/

namespace Sylph.DataProcessor

open Lib Elixir

/-- The messages the pool handles, with the answers of the runtime meanwhile: a
    client submits a task, the pool starts its workers, a worker exits. -/
inductive Input
  | submit (env : WorkerPool.Env) (chain type : Atom) (data : Term)
  | startWorkers (env : WorkerPool.Env)
  | exit (env : WorkerPool.Env) (pid : Pid) (reason : ExitReason)

namespace Input

/-- What the pool finds while it handles an input. -/
def env : Input → WorkerPool.Env
  | submit env .. | startWorkers env | exit env .. => env

/-- The message, the annotation of a submitted task being `ghost`. -/
def msg {γ : Type} (ghost : γ) : Input → Msg γ
  | submit env chain type data => WorkerPool.submitTask env.now ghost chain type data
  | startWorkers _ => .startWorkers
  | exit _ pid reason => .exit pid reason

theorem msg_map {γ δ : Type} (f : γ → δ) (g : γ) (l : Input) : (l.msg g).map f = l.msg (f g) := by
  cases l <;> rfl

/-- The task given up because the worker on its last attempt died. -/
def failed {γ : Type} (p : WorkerPool γ) : Input → List (Task γ)
  | exit _ pid reason =>
    match reason, p.processing.lookup pid with
    | .normal, _ | _, none => []
    | _, some task => if task.attempt = WorkerPool.maxAttempts then [task] else []
  | _ => []

/-- The task given up because the worker on it exited normally. -/
def left {γ : Type} (p : WorkerPool γ) : Input → List (Task γ)
  | exit _ pid .normal => (p.processing.lookup pid).toList
  | _ => []

end Input

/-- The pool; `none` once it has stopped. -/
def WorkerPool.machine (name : Atom) (size : ℕ) : Machine (Option (WorkerPool Unit)) Input where
  init := some (initial name size)
  step s l := s.map fun p => (handle l.env (l.msg ()) p).next

/-- The pool on annotated tasks, with the number of submissions accepted so far (the
    annotation of the next one) and the submissions given up. -/
structure Account where
  pool : Option (WorkerPool ℕ)
  accepted : ℕ
  failed : List ℕ
  left : List ℕ

/-- Where an accepted submission may be. -/
inductive Place
  | queued
  | held (worker : Pid)
  /-- Given up: the worker on its last attempt died. -/
  | failed
  /-- Given up: the worker on it exited normally. -/
  | left
  deriving DecidableEq

namespace Account

/-- The submissions accepted with an outcome. -/
def taken : Outcome (WorkerPool ℕ) Reply (Effect ℕ) → ℕ
  | .reply (.submitted (.ok ())) _ _ => 1
  | _ => 0

/-- The account after the pool `p` has handled a message. -/
def handled (a : Account) (p : WorkerPool ℕ) (l : Input) : Account :=
  let o := WorkerPool.handle l.env (l.msg a.accepted) p
  { pool := o.next
    accepted := a.accepted + taken o
    failed := a.failed ++ (l.failed p).map Task.ghost
    left := a.left ++ (l.left p).map Task.ghost }

/-- The runs of the pool, with its inputs counted. -/
def machine (name : Atom) (size : ℕ) : Machine Account Input where
  init := ⟨some (.initial name size), 0, [], []⟩
  step a l := a.pool.map fun p => a.handled p l

/-- All the places in which the submission `n` is found. -/
def places (a : Account) (p : WorkerPool ℕ) (n : ℕ) : List Place :=
  (p.tasks.filter (·.ghost = n)).map (fun _ => .queued) ++
    (p.processing.entries.filter (·.2.ghost = n)).map (fun e => .held e.1) ++
    (a.failed.filter (· = n)).map (fun _ => .failed) ++
    (a.left.filter (· = n)).map (fun _ => .left)

/-! ## The account and the pool -/

/-- Forgetting annotations and records, the account is the pool. -/
theorem refines_pool (name : Atom) (size : ℕ) :
    Machine.Refines (machine name size) (WorkerPool.machine name size)
      (fun a => a.pool.map (WorkerPool.map fun _ => ())) id where
  init := rfl
  step a l a' h := by
    obtain ⟨p, hp, rfl⟩ := Option.map_eq_some_iff.1 h
    simp only [WorkerPool.machine, handled, hp, Option.map_some, id_eq, Option.some.injEq]
    rw [← Input.msg_map (fun _ : ℕ => ()) a.accepted l, WorkerPool.handle_map, Outcome.next_map]

/-- The account follows every run of the pool. -/
theorem exists_account {name : Atom} {size : ℕ} {ls : List Input} {s : Option (WorkerPool Unit)}
    (h : (WorkerPool.machine name size).Run ls s) :
    ∃ a, a.pool.map (WorkerPool.map fun _ => ()) = s ∧ (machine name size).Run ls a := by
  obtain ⟨ls', a, rfl, ha, hr⟩ := (refines_pool name size).lift (fun a l t ht => by
    cases hp : a.pool with
    | none => simp [WorkerPool.machine, hp] at ht
    | some p =>
      have hs : (machine name size).step a l = some (a.handled p l) := by simp [machine, hp]
      have ht' := (refines_pool name size).step a l _ hs
      exact ⟨l, a.handled p l, rfl, Option.some_inj.1 (ht'.symm.trans ht), hs⟩) h
  exact ⟨a, ha, by simpa using hr⟩

/-! ## The invariant -/

/-- The submissions of the tasks of `p` and those given up, `d`, are the first `n`
    ones, each once; attempts are counted from `1` to the bound; and only workers of
    the pool hold tasks. -/
structure Balanced (d : List ℕ) (n : ℕ) (p : WorkerPool ℕ) : Prop where
  perm : ((p.tasks ++ Dict.values p.processing).map Task.ghost ++ d).Perm (List.range n)
  attempt : ∀ t ∈ p.tasks ++ Dict.values p.processing,
    1 ≤ t.attempt ∧ t.attempt ≤ WorkerPool.maxAttempts
  worker : ∀ w ∈ p.processing, w ∈ p.workers

variable {d : List ℕ} {n : ℕ} {p p' : WorkerPool ℕ}

theorem Balanced.grows (h : Balanced d n p) (hg : p.Grows p') : Balanced d n p' where
  perm := by rw [hg.tasks, hg.processing]; exact h.perm
  attempt := by rw [hg.tasks, hg.processing]; exact h.attempt
  worker w hw := hg.workers w (h.worker w (hg.processing ▸ hw))

/-- A dispatch moves a task from the queue to a worker. -/
theorem Balanced.assignPendingTasks (h : Balanced d n p) (env : WorkerPool.Env) :
    Balanced d n (p.assignPendingTasks env).1 where
  perm := (((p.live_assignPendingTasks env).map _).append_right d).trans h.perm
  attempt t ht := h.attempt t ((p.live_assignPendingTasks env).subset ht)
  worker v hv := by
    rcases p.assignPendingTasks_cases env with ⟨he, -⟩ | ⟨w, t, ts, hw, -, -, he⟩ <;>
      rw [he] at hv ⊢
    · exact h.worker v hv
    · rcases (AList.mem_insert _).1 hv with rfl | hv
      exacts [hw, h.worker v hv]

/-- A submission is queued under the next number. -/
theorem Balanced.submit (h : Balanced d n p) {t : Task ℕ} (hg : t.ghost = n)
    (ha : t.attempt = 1) : Balanced d (n + 1) { p with tasks := p.tasks ++ [t] } where
  perm := by
    refine List.perm_iff_count.2 fun m => ?_
    have := List.perm_iff_count.1 h.perm m
    simp only [List.map_append, List.count_append, List.map_singleton, List.range_succ, hg]
      at this ⊢
    omega
  attempt u hu := by
    simp only [List.mem_append, List.mem_singleton] at hu
    rcases hu with (hu | rfl) | hu
    · exact h.attempt u (List.mem_append_left _ hu)
    · rw [ha]; decide
    · exact h.attempt u (List.mem_append_right _ hu)
  worker := h.worker

/-- The task of an exited worker is queued again, or given up for one of two reasons. -/
theorem requeued_or_given_up {γ : Type} {p : WorkerPool γ} {pid : Pid} {t : Task γ}
    (ht : p.processing.lookup pid = some t) (ha : t.attempt ≤ WorkerPool.maxAttempts)
    (env : WorkerPool.Env) (reason : ExitReason) :
    (WorkerPool.requeued reason (some t)).map Task.ghost ++
      (((Input.exit env pid reason).failed p).map Task.ghost ++
        ((Input.exit env pid reason).left p).map Task.ghost) = [t.ghost] := by
  cases reason with
  | normal => simp [WorkerPool.requeued, Input.failed, Input.left, ht]
  | shutdown | raised | other =>
    rcases Nat.lt_or_eq_of_le ha with hlt | heq
    · simp [WorkerPool.requeued, Input.failed, Input.left, ht, hlt, Nat.ne_of_lt hlt]
    · simp [WorkerPool.requeued, Input.failed, Input.left, ht, heq]

/-- What is queued again is one of the tasks held, at its next attempt. -/
theorem mem_requeued {γ : Type} {reason : ExitReason} {t u : Task γ}
    (h : u ∈ WorkerPool.requeued reason (some t)) :
    t.attempt < WorkerPool.maxAttempts ∧ u = { t with attempt := t.attempt + 1 } := by
  rcases WorkerPool.requeued_cases reason t with he | ⟨hlt, he⟩ <;> rw [he] at h
  · exact absurd h List.not_mem_nil
  · exact ⟨hlt, List.mem_singleton.1 h⟩

/-- A worker exits: its task is queued again, or given up. -/
theorem Balanced.exit (h : Balanced d n p) (env : WorkerPool.Env) (pid : Pid)
    (reason : ExitReason) :
    Balanced (d ++ (((Input.exit env pid reason).failed p).map Task.ghost ++
        ((Input.exit env pid reason).left p).map Task.ghost)) n (p.afterExit pid reason) := by
  have hw : ∀ w ∈ (p.forget pid).processing, w ∈ (p.forget pid).workers := fun w hw =>
    AList.mem_erase.2 ((AList.mem_erase.1 hw).imp_right (h.worker w))
  rw [WorkerPool.afterExit]
  cases ht : p.processing.lookup pid with
  -- The worker had no task.
  | none =>
    have he : (p.forget pid).processing = p.processing := Dict.erase_of_lookup_none ht
    have hd : (Input.exit env pid reason).failed p = [] ∧ (Input.exit env pid reason).left p = [] ∧
        WorkerPool.requeued reason (none : Option (Task ℕ)) = [] := by
      cases reason <;> simp [Input.failed, Input.left, WorkerPool.requeued, ht]
    refine ⟨?_, ?_, hw⟩ <;> simp only [hd, he, List.append_nil, List.map_nil]
    exacts [h.perm, h.attempt]
  | some t =>
    have hv := Dict.values_perm_of_lookup ht
    obtain ⟨ha₁, ha₃⟩ := h.attempt t (List.mem_append_right _ (Dict.mem_values_of_lookup ht))
    refine ⟨?_, fun u hu => ?_, hw⟩
    · -- Its task is queued again or given up, and each task is counted once.
      refine List.perm_iff_count.2 fun m => ?_
      have h₀ := List.perm_iff_count.1 h.perm m
      have h₁ := List.perm_iff_count.1 (hv.map Task.ghost) m
      have h₂ := congrArg (List.count m) (requeued_or_given_up ht ha₃ env reason)
      simp only [List.map_append, List.map_cons, List.count_append, List.count_cons,
        List.count_nil, WorkerPool.forget] at h₀ h₁ h₂ ⊢
      omega
    · simp only [List.mem_append] at hu
      rcases hu with (hu | hu) | hu
      · exact h.attempt u (List.mem_append_left _ hu)
      · obtain ⟨hlt, rfl⟩ := mem_requeued hu
        exact ⟨by simp, hlt⟩
      · exact h.attempt u (List.mem_append_right _ (hv.symm.subset (List.mem_cons_of_mem _ hu)))

/-! ## Runs -/

/-- An exit is not a submission. -/
theorem taken_handleWorkerExit (env : WorkerPool.Env) (pid : Pid) (reason : ExitReason)
    (p : WorkerPool ℕ) : taken (WorkerPool.handleWorkerExit env pid reason p) = 0 := by
  unfold WorkerPool.handleWorkerExit
  split
  · rfl
  · dsimp only
    split
    · cases reason <;> rfl
    · rfl

/-- Handling a message keeps the balance. -/
theorem balanced_handled {a : Account} {l : Input} (h : Balanced (a.failed ++ a.left) a.accepted p)
    (hn : (a.handled p l).pool = some p') :
    Balanced ((a.handled p l).failed ++ (a.handled p l).left) (a.handled p l).accepted p' := by
  cases l with
  | submit env chain type data =>
    change (WorkerPool.handle env (.submitTask _) p).next = some p' at hn
    change Balanced (a.failed ++ [] ++ (a.left ++ []))
      (a.accepted + taken (WorkerPool.handle env (.submitTask _) p)) p'
    rw [List.append_nil, List.append_nil]
    generalize ht : (⟨chain, type, data, 1, env.now, a.accepted⟩ : Task ℕ) = t at hn ⊢
    -- A task that is refused is not accounted for.
    rcases WorkerPool.handle_submitTask env t p with ⟨_, -, he⟩ | ⟨-, _, he⟩ <;> rw [he] at hn ⊢ <;>
      cases hn
    · exact h
    · exact (h.submit (ht ▸ rfl) (ht ▸ rfl)).assignPendingTasks env
  | startWorkers env =>
    simp only [handled, Input.failed, Input.left, List.map_nil, List.append_nil] at hn ⊢
    cases hn
    exact h.grows (WorkerPool.grows_startWorkers env p)
  | exit env pid reason =>
    have hb := (h.exit env pid reason).grows (WorkerPool.grows_handleWorkerExit hn)
    have ha : (a.handled p (.exit env pid reason)).accepted = a.accepted :=
      congrArg (a.accepted + ·) (taken_handleWorkerExit env pid reason p)
    rw [ha]
    refine ⟨.trans (.append_left _ ?_) hb.perm, hb.attempt, hb.worker⟩
    refine List.perm_iff_count.2 fun m => ?_
    simp only [handled, List.count_append]
    omega

/-- In every run, the account is balanced. -/
theorem balanced_of_reachable {name : Atom} {size : ℕ} {a : Account}
    (h : (machine name size).Reachable a) (hp : a.pool = some p) :
    Balanced (a.failed ++ a.left) a.accepted p := by
  refine h.invariant (P := fun a => ∀ p, a.pool = some p →
    Balanced (a.failed ++ a.left) a.accepted p) ?_ ?_ p hp
  · rintro _ ⟨⟩
    exact ⟨.refl _, by simp [WorkerPool.initial], by simp [WorkerPool.initial]⟩
  · intro a l a' ih hs p' hp'
    obtain ⟨p, hp, rfl⟩ := Option.map_eq_some_iff.1 hs
    exact balanced_handled (ih p hp) hp'

/-- The number of places of a submission. -/
theorem length_places (a : Account) (p : WorkerPool ℕ) (n : ℕ) :
    (a.places p n).length =
      ((p.tasks ++ Dict.values p.processing).map Task.ghost ++ (a.failed ++ a.left)).count n := by
  simp only [places, Dict.values, List.length_append, List.length_map, List.map_append,
    List.map_map, List.count_eq_countP, List.countP_append, List.countP_map,
    ← List.countP_eq_length_filter, Function.comp_def, beq_eq_decide]
  omega

theorem worker_of_held {a : Account} {w : Pid} (h : .held w ∈ a.places p n) : w ∈ p.processing := by
  simp only [places, List.mem_append, List.mem_map, List.mem_filter, Place.held.injEq,
    reduceCtorEq, and_false, exists_false, or_false, false_or] at h
  obtain ⟨e, ⟨he, -⟩, rfl⟩ := h
  exact AList.mem_keys.2 (List.mem_map_of_mem he)

/-- Every accepted submission is in exactly one place, once: in the queue, held by one
    worker of the pool, or given up because the worker on its last attempt died or the
    worker on it exited normally. -/
theorem places_eq_singleton {name : Atom} {size : ℕ} {a : Account}
    (h : (machine name size).Reachable a) (hp : a.pool = some p) (hn : n < a.accepted) :
    ∃ pl, a.places p n = [pl] ∧ ∀ w, pl = .held w → w ∈ p.workers := by
  have hb := balanced_of_reachable h hp
  have hl : (a.places p n).length = 1 := by
    rw [length_places, hb.perm.count_eq]
    exact List.count_eq_one_of_mem List.nodup_range (List.mem_range.2 hn)
  obtain ⟨pl, hpl⟩ := List.length_eq_one_iff.1 hl
  refine ⟨pl, hpl, ?_⟩
  rintro w rfl
  exact hb.worker w (worker_of_held (hpl ▸ List.mem_singleton_self _))

/-- A pool of two workers starts them, takes a task, and the worker on it exits normally. -/
def leaving : List Input :=
  [.startWorkers (.starting 0), .submit (.starting 0) "ethereum" "block" (.map []),
    .exit (.starting 2) 1 .normal]

theorem places_leaving : ∃ a p, (machine "pool" 2).exec leaving = some a ∧ a.pool = some p ∧
    a.accepted = 1 ∧ ∃ pl, a.places p 0 = [pl] ∧ ∀ w, pl = .held w → w ∈ p.workers :=
  have h : (machine "pool" 2).exec leaving = some _ := rfl
  ⟨_, _, h, rfl, rfl, places_eq_singleton (Machine.reachable_of_exec h) rfl Nat.one_pos⟩

/-- The queue, the workers and the deaths on a last attempt do not account for all
    accepted submissions. -/
theorem not_forall_placed : ¬∀ (name : Atom) (size : ℕ) (a : Account) (p : WorkerPool ℕ) (n : ℕ),
    (machine name size).Reachable a → a.pool = some p → n < a.accepted →
      ∃ pl, a.places p n = [pl] ∧ pl ≠ .left ∧ ∀ w, pl = .held w → w ∈ p.workers := fun h => by
  have hr : (machine "pool" 2).exec leaving = some _ := rfl
  obtain ⟨pl, hpl, hne, -⟩ := h "pool" 2 _ _ 0 (Machine.reachable_of_exec hr) rfl Nat.one_pos
  exact hne (List.singleton_inj.1 hpl).symm

end Account

end Sylph.DataProcessor

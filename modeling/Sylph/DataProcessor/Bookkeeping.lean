import Sylph.DataProcessor.Journal

/-!
# The workers of the pool and their tasks

What the pool records of its workers, over its runs, which start its workers once
(`Input.isStart`).

* `bookkeeping`: only workers of the pool hold tasks, there are no more of them than its
  size, and a task is only sent to a worker that holds none.
* `workConserving_iff`: a task never waits while a worker is idle, in those runs whose
  steps keep the workers busy (`KeepsBusy`): the pool dispatches a task when one is
  submitted, but neither when it starts workers nor when it queues a task again.
* `size_workers_of_exit`: a pool of two workers or more is at its full size again after
  each exit, if all starts succeed. The last worker is not replaced: the pool stops.
-/

namespace Sylph.DataProcessor

open Lib Elixir

/-- Whether the pool starts its workers. -/
def Input.isStart : Input → Bool
  | startWorkers _ => true
  | _ => false

namespace WorkerPool

variable {γ : Type}

/-! ## Starting workers -/

theorem startWorker_workers (env : Env) (n : ℕ) (s : WorkerPool γ) :
    (∃ reason, env.start n = .error reason ∧ startWorker env n s = (s, [])) ∨
    ∃ w ref, env.start n = .ok (w, ref) ∧
      startWorker env n s = ({ s with workers := s.workers.insert w ref }, [.startLink w ref]) := by
  unfold startWorker
  rcases env.start n with reason | ⟨w, ref⟩
  · exact .inl ⟨reason, rfl, rfl⟩
  · exact .inr ⟨w, ref, rfl, rfl⟩

theorem mem_startWorker_workers {env : Env} {n : ℕ} {s : WorkerPool γ} {v : Pid} :
    v ∈ (startWorker env n s).1.workers ↔ v ∈ s.workers ∨ ∃ ref, env.start n = .ok (v, ref) := by
  rcases startWorker_workers env n s with ⟨_, he, h⟩ | ⟨w, ref, he, h⟩ <;> rw [h, he]
  · exact ⟨.inl, fun hv => hv.elim id fun ⟨_, hn⟩ => absurd hn nofun⟩
  · rw [AList.mem_insert, or_comm]
    refine or_congr_right ⟨?_, ?_⟩
    · rintro rfl
      exact ⟨ref, rfl⟩
    · rintro ⟨_, ⟨⟩⟩
      rfl

/-- A start adds at most one worker. -/
theorem size_startWorker_le (env : Env) (n : ℕ) (s : WorkerPool γ) :
    Dict.size (startWorker env n s).1.workers ≤ Dict.size s.workers + 1 := by
  rcases startWorker_workers env n s with ⟨_, -, h⟩ | ⟨w, ref, -, h⟩ <;> rw [h]
  · exact Nat.le_succ _
  · exact Dict.size_insert_le _ _ _

/-- The pool after the first `n` of its starts. -/
def started (env : Env) (n : ℕ) (s : WorkerPool γ) : WorkerPool γ :=
  (List.range n).foldl (fun s i => (startWorker env i s).1) s

theorem started_succ (env : Env) (n : ℕ) (s : WorkerPool γ) :
    started env (n + 1) s = (startWorker env n (started env n s)).1 := by
  rw [started, List.range_succ, List.foldl_append]
  rfl

theorem startWorkers_fst (env : Env) (s : WorkerPool γ) :
    (startWorkers env s).1 = started env (rangeLength 1 s.size) s := by
  rw [startWorkers]
  generalize rangeLength 1 s.size = n
  induction n with
  | zero => rfl
  | succ n ih =>
    rw [List.range_succ, List.foldl_append, started_succ, ← ih]
    rfl

theorem mem_started_workers {env : Env} {n : ℕ} {s : WorkerPool γ} {v : Pid} :
    v ∈ (started env n s).workers ↔
      v ∈ s.workers ∨ ∃ i < n, ∃ ref, env.start i = .ok (v, ref) := by
  induction n with
  | zero => exact ⟨.inl, fun h => h.elim id fun ⟨_, hi, _⟩ => absurd hi (Nat.not_lt_zero _)⟩
  | succ n ih =>
    rw [started_succ, mem_startWorker_workers, ih, or_assoc]
    refine or_congr_right ⟨?_, ?_⟩
    · rintro (⟨i, hi, h⟩ | h)
      · exact ⟨i, Nat.lt_succ_of_lt hi, h⟩
      · exact ⟨n, Nat.lt_succ_self n, h⟩
    · rintro ⟨i, hi, h⟩
      rcases Nat.lt_succ_iff_lt_or_eq.1 hi with hi | rfl
      · exact .inl ⟨i, hi, h⟩
      · exact .inr h

theorem size_started_le (env : Env) (n : ℕ) (s : WorkerPool γ) :
    Dict.size (started env n s).workers ≤ Dict.size s.workers + n := by
  induction n with
  | zero => exact Nat.le_refl _
  | succ n ih =>
    rw [started_succ]
    exact (size_startWorker_le env n _).trans (Nat.succ_le_succ ih)

theorem mem_maybeRestartWorker_workers {env : Env} {s : WorkerPool γ} {v : Pid} :
    v ∈ (maybeRestartWorker env s).1.workers ↔ v ∈ s.workers ∨
      (Dict.size s.workers < s.size ∧ ∃ ref, env.start 0 = .ok (v, ref)) := by
  unfold maybeRestartWorker
  split
  · next h => rw [mem_startWorker_workers, and_iff_right h]
  · next h => exact ⟨.inl, fun hv => hv.elim id fun hn => absurd hn.1 h⟩

/-- A worker is replaced only if there are fewer than the size of the pool. -/
theorem size_maybeRestartWorker_le (env : Env) {s : WorkerPool γ}
    (h : Dict.size s.workers ≤ s.size) :
    Dict.size (maybeRestartWorker env s).1.workers ≤ s.size := by
  unfold maybeRestartWorker
  split
  · next hlt => exact (size_startWorker_le env 0 s).trans hlt
  · exact h

/-- A dispatch leaves the workers alone. -/
theorem assignPendingTasks_frame (env : Env) (s : WorkerPool γ) :
    (assignPendingTasks env s).1.size = s.size ∧
      (assignPendingTasks env s).1.workers = s.workers := by
  rcases s.assignPendingTasks_cases env with ⟨he, -⟩ | ⟨_, _, _, -, -, -, he⟩ <;> rw [he]
  · exact ⟨rfl, rfl⟩
  · exact ⟨rfl, rfl⟩

/-! ## Bookkeeping -/

/-- Only workers of the pool hold tasks, and it has no more of them than its size. -/
structure Kept (size : ℕ) (s : WorkerPool γ) : Prop where
  size_eq : s.size = size
  workers : Dict.size s.workers ≤ size
  processing : ∀ w ∈ s.processing, w ∈ s.workers

namespace Kept

variable {size : ℕ} {s : WorkerPool γ}

theorem grows {s' : WorkerPool γ} (h : Kept size s) (hg : Grows s s')
    (hw : Dict.size s'.workers ≤ size) : Kept size s' where
  size_eq := hg.size.trans h.size_eq
  workers := hw
  processing w hp := hg.workers w (h.processing w (hg.processing ▸ hp))

theorem enqueue (h : Kept size s) (t : Task γ) : Kept size (s.enqueue t) :=
  ⟨h.size_eq, h.workers, h.processing⟩

theorem assignPendingTasks (h : Kept size s) (env : Env) :
    Kept size (s.assignPendingTasks env).1 := by
  rcases s.assignPendingTasks_cases env with ⟨he, -⟩ | ⟨w, t, ts, hw, -, -, he⟩ <;> rw [he]
  · exact h
  · refine ⟨h.size_eq, h.workers, fun v hv => ?_⟩
    rcases (AList.mem_insert _).1 hv with rfl | hv
    · exact hw
    · exact h.processing v hv

theorem afterExit (h : Kept size s) (pid : Pid) (reason : ExitReason) :
    Kept size (s.afterExit pid reason) where
  size_eq := h.size_eq
  workers := (Dict.size_erase_le s.workers pid).trans h.workers
  processing _ hw := AList.mem_erase.2 ((AList.mem_erase.1 hw).imp_right (h.processing _))

theorem exit (h : Kept size s) {env : Env} {pid : Pid} {reason : ExitReason} {s' : WorkerPool γ}
    (hn : (handleWorkerExit env pid reason s).next = some s') : Kept size s' := by
  have hk := h.afterExit pid reason
  obtain ⟨-, -, rfl⟩ := next_handleWorkerExit hn
  have hs : Dict.size (s.afterExit pid reason).workers ≤ (s.afterExit pid reason).size :=
    hk.workers.trans_eq hk.size_eq.symm
  exact hk.grows (grows_maybeRestartWorker env _)
    ((size_maybeRestartWorker_le env hs).trans_eq hk.size_eq)

end Kept

variable {name : Atom} {size : ℕ} {ls : List Input}

/-- The first start of the workers. -/
theorem Kept.startWorkers {s : WorkerPool γ} (h : Kept size s) (hsize : 1 ≤ size)
    (hw : s.workers = ∅) (env : Env) : Kept size (s.startWorkers env).1 := by
  refine h.grows (grows_startWorkers env s) ?_
  rw [startWorkers_fst, h.size_eq, rangeLength_one hsize]
  refine (size_started_le env size s).trans_eq ?_
  rw [hw]
  exact Nat.zero_add size

/-- In every run that starts the workers at most once, the books are kept; before, there
    is no worker. -/
theorem kept_of_run {p : WorkerPool Unit} (hsize : 1 ≤ size)
    (h : (machine name size).Run ls (some p)) (hs : ls.countP Input.isStart ≤ 1) :
    Kept size p ∧ (ls.countP Input.isStart = 0 → p.workers = ∅) := by
  refine h.invariant (P := fun ls s => ∀ p, s = some p → ls.countP Input.isStart ≤ 1 →
    Kept size p ∧ (ls.countP Input.isStart = 0 → p.workers = ∅)) ?_ ?_ p rfl hs
  · rintro _ ⟨⟩ -
    exact ⟨⟨rfl, Nat.zero_le _, fun w hw => absurd hw (AList.notMem_empty w)⟩, fun _ => rfl⟩
  · intro ls s l s' _ ih hst p' hp' hs
    obtain ⟨p, rfl, hn⟩ := Option.map_eq_some_iff.1 hst
    rw [hp'] at hn
    rw [List.countP_append, List.countP_singleton] at hs ⊢
    obtain ⟨hk, hw⟩ := ih p rfl ((Nat.le_add_right _ _).trans hs)
    rcases l with ⟨env, chain, type, data⟩ | env | ⟨env, pid, reason⟩
    · rcases next_submitTask hn with rfl | rfl
      · exact ⟨hk, hw⟩
      · refine ⟨(hk.enqueue _).assignPendingTasks env, fun h₀ => ?_⟩
        exact (assignPendingTasks_frame env _).2.trans (hw h₀)
    · -- The first start: there is no worker yet.
      rw [Input.isStart, if_pos rfl] at hs ⊢
      have hp : (startWorkers env p).1 = p' := Option.some_inj.1 hn
      rw [← hp]
      exact ⟨hk.startWorkers hsize (hw (Nat.le_zero.1 (Nat.le_of_succ_le_succ hs))) env,
        fun h₀ => absurd h₀ (Nat.succ_ne_zero _)⟩
    · refine ⟨hk.exit hn, fun h₀ => ?_⟩
      -- There is no worker to exit.
      have hm := (next_handleWorkerExit hn).1
      rw [hw h₀] at hm
      exact absurd hm (AList.notMem_empty pid)

/-- A message makes the pool send at most one task, to a worker that holds none. -/
theorem sentTasks_handle (l : Input) (g : γ) (p : WorkerPool γ) :
    (sentTasks (handle l.env (l.msg g) p).out).length ≤ 1 ∧
      ∀ wt ∈ sentTasks (handle l.env (l.msg g) p).out, wt.1 ∈ p.workers ∧ wt.1 ∉ p.processing := by
  have hnil : ∀ out : List (Effect γ), sentTasks out = [] → (sentTasks out).length ≤ 1 ∧
      ∀ wt ∈ sentTasks out, wt.1 ∈ p.workers ∧ wt.1 ∉ p.processing := fun out h => by
    rw [h]
    exact ⟨Nat.zero_le 1, fun _ hm => absurd hm List.not_mem_nil⟩
  rcases l with ⟨env, chain, type, data⟩ | env | ⟨env, pid, reason⟩
  · change (sentTasks (handle env (.submitTask _) p).out).length ≤ 1 ∧
      ∀ wt ∈ sentTasks (handle env (.submitTask _) p).out, _
    generalize (⟨chain, type, data, 1, env.now, g⟩ : Task γ) = t
    rcases handle_submitTask env t p with ⟨_, -, he⟩ | ⟨-, _, he⟩ <;> rw [he]
    · exact hnil _ rfl
    · rcases assignPendingTasks_cases env (p.enqueue t) with ⟨ha, -⟩ | ⟨w, u, us, hw, hw', -, ha⟩
      · rw [ha]
        exact hnil _ rfl
      · rw [ha]
        refine ⟨Nat.le_refl 1, fun wt hm => ?_⟩
        rw [List.mem_singleton.1 hm]
        exact ⟨hw, hw'⟩
  · exact hnil _ (sentTasks_startWorkers env p)
  · exact hnil _ (sentTasks_handleWorkerExit env pid reason p)

/-- In every run that starts the workers at most once, only workers of the pool hold
    tasks, there are at most as many as its size, and whatever comes next, no worker is
    sent a task while it holds one. -/
theorem bookkeeping {p : WorkerPool Unit} (hsize : 1 ≤ size)
    (h : (machine name size).Run ls (some p)) (hs : ls.countP Input.isStart ≤ 1) :
    (∀ w ∈ p.processing, w ∈ p.workers) ∧ Dict.size p.workers ≤ size ∧
      ∀ l : Input, ((sentTasks (handle l.env (l.msg ()) p).out).map Prod.fst).Nodup ∧
        ∀ w t, (w, t) ∈ sentTasks (handle l.env (l.msg ()) p).out → w ∉ p.processing := by
  obtain ⟨hk, -⟩ := kept_of_run hsize h hs
  refine ⟨hk.processing, hk.workers, fun l => ?_⟩
  obtain ⟨hl, hm⟩ := sentTasks_handle l () p
  refine ⟨?_, fun w t hwt => (hm _ hwt).2⟩
  rcases he : sentTasks (handle l.env (l.msg ()) p).out with _ | ⟨wt, _ | ⟨wt', rest⟩⟩
  · exact List.nodup_nil
  · exact List.nodup_singleton _
  · rw [he] at hl
    exact absurd (Nat.le_of_succ_le_succ hl) (Nat.not_succ_le_zero _)

/-- The start of two workers, a task, and the death of the worker on it. -/
def dying : List Input :=
  [.startWorkers (.starting 0), .submit (.starting 0) "ethereum" "block" (.map []),
    .exit (.starting 2) 1 .shutdown]

theorem bookkeeping_dying : ∃ p, (machine "pool" 2).exec dying = some (some p) ∧
    p.tasks.length = 1 ∧ (∀ w ∈ p.processing, w ∈ p.workers) ∧ Dict.size p.workers ≤ 2 ∧
      ∀ l : Input, ((sentTasks (handle l.env (l.msg ()) p).out).map Prod.fst).Nodup ∧
        ∀ w t, (w, t) ∈ sentTasks (handle l.env (l.msg ()) p).out → w ∉ p.processing :=
  have h : (machine "pool" 2).exec dying = some (some _) := rfl
  ⟨_, h, rfl, bookkeeping (Nat.le_succ 1) (Machine.run_of_exec h) (Nat.le_refl 1)⟩

/-! ## Work conservation -/

/-- All workers hold a task. -/
def Busy (s : WorkerPool γ) : Prop := ∀ w ∈ s.workers, w ∈ s.processing

/-- No task waits while a worker is idle. -/
def Conserving (s : WorkerPool γ) : Prop := s.tasks ≠ [] → s.Busy

/-- No task waits while a worker is idle, as long as the pool runs. -/
def WorkConserving (s : Option (WorkerPool Unit)) : Prop := ∀ p, s = some p → p.Conserving

/-- The exit of a worker does not make its task wait: it exits normally, or holds no task
    or one on its last attempt. -/
def GivesUp (pid : Pid) (reason : ExitReason) (s : WorkerPool γ) : Prop :=
  reason = .normal ∨ ∀ t, s.processing.lookup pid = some t → maxAttempts ≤ t.attempt

/-- A step that makes no task wait while a worker is idle. Workers are started while the
    queue is empty. An exit stops the pool, or leaves the queue empty, or finds the other
    workers busy and is not followed by the start of a new one. -/
def KeepsBusy (s : Option (WorkerPool Unit)) (l : Input) : Prop :=
  ∀ p, s = some p → match l with
    | .submit .. => True
    | .startWorkers env => p.tasks = [] ∨
        ∀ i < rangeLength 1 p.size, ∀ w ref, env.start i = .ok (w, ref) → w ∈ p.processing
    | .exit env pid reason => pid ∉ p.workers ∨ Dict.size p.workers ≤ 1 ∨
        (p.tasks = [] ∧ p.GivesUp pid reason) ∨
        ((∀ w ∈ p.workers, w ≠ pid → w ∈ p.processing) ∧
          (Dict.size p.workers ≤ p.size → ∀ w ref, env.start 0 = .ok (w, ref) →
            w ≠ pid ∧ w ∈ p.processing))

theorem requeued_eq_nil_iff {pid : Pid} {reason : ExitReason} {s : WorkerPool γ} :
    requeued reason (s.processing.lookup pid) = [] ↔ s.GivesUp pid reason := by
  by_cases hr : reason = .normal
  · subst hr
    exact iff_of_true rfl (.inl rfl)
  · rcases ht : s.processing.lookup pid with _ | t
    · rw [requeued_none]
      exact iff_of_true rfl (.inr fun t h => absurd (ht.symm.trans h).symm (Option.some_ne_none t))
    · rw [requeued_some hr]
      by_cases hlt : t.attempt < maxAttempts
      · rw [if_pos hlt]
        refine iff_of_false (List.cons_ne_nil _ _) ?_
        rintro (h | h)
        · exact hr h
        · exact absurd hlt (Nat.not_lt.2 (h t ht))
      · rw [if_neg hlt]
        refine iff_of_true rfl (.inr fun u hu => ?_)
        obtain rfl := Option.some_inj.1 (ht.symm.trans hu)
        exact Nat.le_of_not_lt hlt

/-- A submission makes no task wait in vain. -/
theorem Conserving.enqueue {s : WorkerPool γ} (h : s.Conserving) (env : Env) (t : Task γ) :
    (assignPendingTasks env (s.enqueue t)).1.Conserving := by
  rcases assignPendingTasks_cases env (s.enqueue t) with ⟨he, hb⟩ | ⟨w, u, us, hw, hw', ht, he⟩ <;>
    rw [he]
  · exact fun hne => hb.resolve_left hne
  · -- A worker was idle, so the task is the only one.
    have hnil : s.tasks = [] := by
      by_contra hne
      exact hw' (h hne w hw)
    rw [WorkerPool.enqueue, hnil] at ht
    obtain rfl : us = [] := (List.cons.inj ht).2.symm
    exact fun hne => absurd rfl hne

theorem conserving_startWorkers {env : Env} {s : WorkerPool γ} (h : s.Conserving) :
    (startWorkers env s).1.Conserving ↔ s.tasks = [] ∨
      ∀ i < rangeLength 1 s.size, ∀ w ref, env.start i = .ok (w, ref) → w ∈ s.processing := by
  have hg := grows_startWorkers env s
  rw [Conserving, Busy, hg.tasks, hg.processing, startWorkers_fst]
  by_cases hnil : s.tasks = []
  · exact iff_of_true (fun hne => absurd hnil hne) (.inl hnil)
  · rw [or_iff_right hnil]
    constructor
    · intro hb i hi w ref he
      exact hb hnil w (mem_started_workers.2 (.inr ⟨i, hi, ref, he⟩))
    · intro hb _ w hw
      rcases mem_started_workers.1 hw with hw | ⟨i, hi, ref, he⟩
      · exact h hnil w hw
      · exact hb i hi w ref he

theorem conserving_exit {env : Env} {pid : Pid} {reason : ExitReason} {s s' : WorkerPool γ}
    (hn : (handleWorkerExit env pid reason s).next = some s') :
    s'.Conserving ↔ (s.tasks = [] ∧ s.GivesUp pid reason) ∨
      ((∀ w ∈ s.workers, w ≠ pid → w ∈ s.processing) ∧
        (Dict.size s.workers ≤ s.size → ∀ w ref, env.start 0 = .ok (w, ref) →
          w ≠ pid ∧ w ∈ s.processing)) := by
  obtain ⟨hpid, -, rfl⟩ := next_handleWorkerExit hn
  have hg := grows_maybeRestartWorker env (s.afterExit pid reason)
  -- There is room for a new worker if there was for the one that has ended.
  have hsize : Dict.size (s.afterExit pid reason).workers < s.size ↔
      Dict.size s.workers ≤ s.size := by
    rw [← Dict.size_erase_of_mem hpid]
    exact Nat.lt_iff_add_one_le
  rw [Conserving, Busy, hg.tasks, hg.processing, ← requeued_eq_nil_iff, ← List.append_eq_nil_iff]
  change (s.tasks ++ _ ≠ [] → ∀ w ∈ _, w ∈ s.processing.erase pid) ↔ _
  -- If nothing waits, there is nothing to show.
  by_cases hnil : s.tasks ++ requeued reason (s.processing.lookup pid) = []
  · exact iff_of_true (fun hne => absurd hnil hne) (.inl hnil)
  · rw [or_iff_right hnil, ← hsize]
    constructor
    · refine fun hb => ⟨fun w hw hne => ?_, fun hlt w ref he => ?_⟩
      · exact (AList.mem_erase.1 (hb hnil w
          (mem_maybeRestartWorker_workers.2 (.inl (AList.mem_erase.2 ⟨hne, hw⟩))))).2
      · exact AList.mem_erase.1 (hb hnil w (mem_maybeRestartWorker_workers.2 (.inr ⟨hlt, ref, he⟩)))
    · rintro ⟨hb, hb'⟩ - w hw
      rcases mem_maybeRestartWorker_workers.1 hw with hw | ⟨hlt, ref, he⟩
      · obtain ⟨hne, hw⟩ := AList.mem_erase.1 hw
        exact AList.mem_erase.2 ⟨hne, hb w hw hne⟩
      · exact AList.mem_erase.2 (hb' hlt w ref he)

/-- The pool does not survive the exit of a process that is none of its workers, or of
    its last worker. -/
theorem next_handleWorkerExit_eq_none {env : Env} {pid : Pid} {reason : ExitReason}
    {s : WorkerPool γ} : (handleWorkerExit env pid reason s).next = none ↔
      pid ∉ s.workers ∨ Dict.size s.workers ≤ 1 := by
  rcases hp : s.workers.lookup pid with _ | ref
  · rw [handleWorkerExit, hp]
    exact iff_of_true rfl (.inl (AList.lookup_eq_none.1 hp))
  · have hm := Dict.mem_of_lookup hp
    obtain ⟨events, -, he⟩ := handleWorkerExit_eq env reason hp
    have hsize : Dict.size (s.forget pid).workers + 1 = Dict.size s.workers :=
      Dict.size_erase_of_mem hm
    rw [he, or_iff_right (not_not_intro hm), ← hsize, Nat.succ_le_succ_iff (b := 0), Nat.le_zero]
    split
    · next hn => exact iff_of_false (Option.some_ne_none _) (Nat.pos_iff_ne_zero.1 hn)
    · next hn => exact iff_of_true rfl (Nat.eq_zero_of_not_pos hn)

theorem workConserving_none : WorkConserving none := fun p hp =>
  absurd hp.symm (Option.some_ne_none p)

theorem workConserving_some {s : WorkerPool Unit} : WorkConserving (some s) ↔ s.Conserving :=
  ⟨fun h => h s rfl, fun h _ hp => Option.some_inj.1 hp ▸ h⟩

/-- The steps that keep the pool work-conserving. -/
theorem workConserving_step {s s' : Option (WorkerPool Unit)} {l : Input}
    (h : WorkConserving s) (hst : (machine name size).step s l = some s') :
    WorkConserving s' ↔ KeepsBusy s l := by
  obtain ⟨p, rfl, rfl⟩ := Option.map_eq_some_iff.1 hst
  rw [workConserving_some] at h
  have hk : ∀ {C : Prop}, (∀ q, some p = some q → C) ↔ C := ⟨fun h => h p rfl, fun h _ _ => h⟩
  rcases l with ⟨env, chain, type, data⟩ | env | ⟨env, pid, reason⟩
  · refine iff_of_true (fun p' hp' => ?_) fun _ _ => trivial
    rcases next_submitTask hp' with rfl | rfl
    · exact h
    · exact h.enqueue env _
  · change WorkConserving (some (startWorkers env p).1) ↔ _
    rw [workConserving_some, conserving_startWorkers h]
    exact ⟨fun hb q hq => Option.some_inj.1 hq ▸ hb, fun hb => hb p rfl⟩
  · change WorkConserving (handleWorkerExit env pid reason p).next ↔ _
    rcases hn : (handleWorkerExit env pid reason p).next with _ | p'
    · refine iff_of_true workConserving_none fun q hq => ?_
      obtain rfl := Option.some_inj.1 hq
      exact or_assoc.1 (.inl (next_handleWorkerExit_eq_none.1 hn))
    · -- A pool that survives has lost one of several workers.
      have hlive : ¬(pid ∉ p.workers ∨ Dict.size p.workers ≤ 1) := fun hnone => by
        rw [next_handleWorkerExit_eq_none.2 hnone] at hn
        exact absurd hn.symm (Option.some_ne_none p')
      rw [workConserving_some, conserving_exit hn]
      constructor
      · intro hb q hq
        obtain rfl := Option.some_inj.1 hq
        exact or_assoc.1 (.inr hb)
      · intro hb
        exact (or_assoc.2 (hb p rfl)).resolve_left hlive

/-- The runs in which no task ever waits while a worker is idle are those whose steps keep
    the workers busy. -/
theorem workConserving_iff {s : Option (WorkerPool Unit)} :
    (machine name size).RunThrough WorkConserving ls s ↔
      (machine name size).RunWhere KeepsBusy ls s :=
  Machine.runThrough_iff_runWhere
    (workConserving_some.2 fun hne => absurd rfl hne)
    fun _ _ _ _ h hst => workConserving_step h hst

/-- A task may wait while a worker is idle: the one of a worker that died, queued again. -/
theorem not_forall_workConserving : ¬∀ (name : Atom) (size : ℕ) (s : Option (WorkerPool Unit)),
    1 ≤ size → (machine name size).Reachable s → WorkConserving s := fun h => by
  have hx : (machine "pool" 2).exec dying = some (some _) := rfl
  have hc := h "pool" 2 _ (Nat.le_succ 1) (Machine.reachable_of_exec hx) _ rfl
    (List.cons_ne_nil _ _)
  -- The worker `0` is idle.
  have hp := hc 0 (by decide)
  exact absurd hp (by decide)

/-! ## Replacing workers -/

/-- The `n`-th start of a worker from `s` succeeds, with a process that is no worker yet. -/
def Starts (env : Env) (n : ℕ) (s : WorkerPool γ) : Prop :=
  ∃ w ref, env.start n = .ok (w, ref) ∧ w ∉ s.workers

/-- A step in which all starts of workers succeed, and only workers exit. -/
def AllStart (s : Option (WorkerPool Unit)) (l : Input) : Prop :=
  ∀ p, s = some p → match l with
    | .submit .. => True
    | .startWorkers env => ∀ i < rangeLength 1 p.size, Starts env i (started env i p)
    | .exit env pid _ => pid ∈ p.workers ∧ Starts env 0 (p.forget pid)

theorem size_startWorker {env : Env} {n : ℕ} {s : WorkerPool γ} (h : Starts env n s) :
    Dict.size (startWorker env n s).1.workers = Dict.size s.workers + 1 := by
  obtain ⟨w, ref, he, hw⟩ := h
  rw [startWorker, he]
  exact Dict.size_insert_of_notMem ref hw

theorem size_started {env : Env} {n : ℕ} {s : WorkerPool γ}
    (h : ∀ i < n, Starts env i (started env i s)) :
    Dict.size (started env n s).workers = Dict.size s.workers + n := by
  induction n with
  | zero => rfl
  | succ n ih =>
    rw [started_succ, size_startWorker (h n (Nat.lt_succ_self n)),
      ih fun i hi => h i (Nat.lt_succ_of_lt hi)]
    rfl

/-- An exit from a full pool of two workers or more leaves it full. -/
theorem exit_of_full {env : Env} {pid : Pid} (reason : ExitReason) {s : WorkerPool γ}
    (hsize : 2 ≤ s.size) (hfull : Dict.size s.workers = s.size) (hpid : pid ∈ s.workers)
    (hs : Starts env 0 (s.forget pid)) : ∃ s', (handleWorkerExit env pid reason s).next = some s' ∧
      s'.size = s.size ∧ Dict.size s'.workers = s.size := by
  have herase : Dict.size (s.afterExit pid reason).workers + 1 = s.size :=
    (Dict.size_erase_of_mem hpid).trans hfull
  have hs' : Starts env 0 (s.afterExit pid reason) := hs
  rcases hn : (handleWorkerExit env pid reason s).next with _ | s'
  · rcases next_handleWorkerExit_eq_none.1 hn with h | h
    · exact absurd hpid h
    · rw [hfull] at h
      exact absurd (hsize.trans h) (Nat.not_succ_le_self 1)
  · refine ⟨s', rfl, ?_⟩
    obtain ⟨-, -, rfl⟩ := next_handleWorkerExit hn
    have hlt : Dict.size (s.afterExit pid reason).workers < (s.afterExit pid reason).size :=
      Nat.lt_of_succ_le (Nat.le_of_eq herase)
    refine ⟨(grows_maybeRestartWorker env _).size, ?_⟩
    rw [maybeRestartWorker, if_pos hlt, size_startWorker hs', herase]

/-- In every run in which the workers are started at most once and all starts succeed, the
    pool runs, with as many workers as its size once they have been started. -/
theorem full_of_runWhere (hsize : 2 ≤ size) {s : Option (WorkerPool Unit)}
    (h : (machine name size).RunWhere AllStart ls s) (hs : ls.countP Input.isStart ≤ 1) :
    ∃ p, s = some p ∧ p.size = size ∧
      Dict.size p.workers = if ls.countP Input.isStart = 0 then 0 else size := by
  revert hs
  refine h.invariant (P := fun ls s => ls.countP Input.isStart ≤ 1 → ∃ p, s = some p ∧
    p.size = size ∧ Dict.size p.workers = if ls.countP Input.isStart = 0 then 0 else size) ?_ ?_
  · exact fun _ => ⟨_, rfl, rfl, rfl⟩
  · intro ls s l s' ih hc hst hs
    rw [List.countP_append, List.countP_singleton] at hs ⊢
    obtain ⟨p, rfl, hp, hw⟩ := ih ((Nat.le_add_right _ _).trans hs)
    have hc := hc p rfl
    obtain rfl := Option.some_inj.1 hst
    rcases l with ⟨env, chain, type, data⟩ | env | ⟨env, pid, reason⟩
    · rcases handle_submitTask env ⟨chain, type, data, 1, env.now, ()⟩ p with
        ⟨_, -, he⟩ | ⟨-, _, he⟩
      · exact ⟨p, congrArg Outcome.next he, hp, hw⟩
      · obtain ⟨hsz, hws⟩ := assignPendingTasks_frame env
          (p.enqueue ⟨chain, type, data, 1, env.now, ()⟩)
        refine ⟨_, congrArg Outcome.next he, hsz.trans hp, ?_⟩
        rw [hws]
        exact hw
    · -- The first start: there is no worker yet.
      rw [Input.isStart, if_pos rfl] at hs ⊢
      have h₀ := Nat.le_zero.1 (Nat.le_of_succ_le_succ hs)
      refine ⟨(startWorkers env p).1, rfl, (grows_startWorkers env p).size.trans hp, ?_⟩
      rw [h₀, if_pos rfl] at hw
      rw [startWorkers_fst, size_started hc, hw, hp, rangeLength_one (Nat.le_of_succ_le hsize),
        if_neg (Nat.succ_ne_zero _), Nat.zero_add]
    · obtain ⟨hpid, hst⟩ := hc
      -- There is a worker to exit, so the pool is full.
      by_cases h₀ : ls.countP Input.isStart = 0
      · rw [if_pos h₀] at hw
        exact absurd (Dict.size_erase_of_mem hpid) (hw ▸ Nat.succ_ne_zero _)
      · rw [if_neg h₀] at hw
        obtain ⟨s', hn, hsz, hw'⟩ :=
          exit_of_full reason (hp ▸ hsize) (hw.trans hp.symm) hpid hst
        exact ⟨s', hn, hsz.trans hp, by rw [hw', hp]; exact (if_neg h₀).symm⟩

/-- A pool of two workers or more runs on after each exit, with as many workers as its
    size, if all starts of workers succeed, whatever else happens. -/
theorem size_workers_of_exit {env : Env} {pid : Pid} {reason : ExitReason} (hsize : 2 ≤ size)
    {s : Option (WorkerPool Unit)}
    (h : (machine name size).RunWhere AllStart (ls ++ [.exit env pid reason]) s)
    (hs : ls.countP Input.isStart ≤ 1) : ∃ p, s = some p ∧ Dict.size p.workers = size := by
  obtain ⟨s₀, h₀, hc, -⟩ := h.of_snoc
  obtain ⟨p₀, rfl, -, hw₀⟩ := full_of_runWhere hsize h₀ hs
  have hcount : (ls ++ [Input.exit env pid reason]).countP Input.isStart =
      ls.countP Input.isStart := by
    rw [List.countP_append]
    rfl
  obtain ⟨p, rfl, -, hw⟩ := full_of_runWhere hsize h (hcount ▸ hs)
  -- The workers have been started, since there is one that exits.
  have hne : ls.countP Input.isStart ≠ 0 := fun hz => by
    rw [if_pos hz] at hw₀
    exact absurd (Dict.size_erase_of_mem (hc p₀ rfl).1) (hw₀ ▸ Nat.succ_ne_zero _)
  rw [hcount, if_neg hne] at hw
  exact ⟨p, rfl, hw⟩

theorem starts_starting {pid i : ℕ} {s : WorkerPool γ} (h : ∀ v ∈ s.workers, v < pid) :
    Starts (.starting pid) i (started (.starting pid) i s) := by
  refine ⟨pid + i, pid + i, rfl, fun hm => ?_⟩
  rcases mem_started_workers.1 hm with hm | ⟨k, hk, ref, he⟩
  · exact absurd (h _ hm) (Nat.not_lt.2 (Nat.le_add_right pid i))
  · have hki : pid + k = pid + i := congrArg Prod.fst (Except.ok.inj he)
    exact absurd (Nat.add_left_cancel hki) (Nat.ne_of_lt hk)

/-- The workers are started, and the first one exits. -/
theorem runWhere_allStart (name : Atom) (hsize : 1 ≤ size) (reason : ExitReason) :
    (machine name size).RunWhere AllStart
      ([.startWorkers (.starting 0)] ++ [.exit (.starting size) 0 reason])
      (handleWorkerExit (.starting size) 0 reason
        (startWorkers (.starting 0) (initial name size)).1).next := by
  have hlen : rangeLength 1 (initial name size : WorkerPool Unit).size = size :=
    rangeLength_one hsize
  have hnil : (machine name size).RunWhere AllStart [] (some (initial name size)) := .nil
  refine .snoc (.snoc hnil ?_ rfl) ?_ rfl
  · rintro _ ⟨⟩ i -
    exact starts_starting fun v hv => absurd hv (AList.notMem_empty v)
  · rintro _ ⟨⟩
    change 0 ∈ (startWorkers (.starting 0) (initial name size)).1.workers ∧
      Starts (.starting size) 0 ((startWorkers (.starting 0) (initial name size)).1.forget 0)
    rw [startWorkers_fst, hlen]
    refine ⟨mem_started_workers.2 (.inr ⟨0, hsize, 0, rfl⟩),
      starts_starting (i := 0) fun v hv => ?_⟩
    rcases mem_started_workers.1 (AList.mem_erase.1 hv).2 with hv | ⟨k, hk, ref, he⟩
    · exact absurd hv (AList.notMem_empty v)
    · have hkv : 0 + k = v := congrArg Prod.fst (Except.ok.inj he)
      rw [← hkv, Nat.zero_add]
      exact hk

theorem size_workers_of_exit_two : ∃ p : WorkerPool Unit,
    (handleWorkerExit (.starting 2) 0 .shutdown
      (startWorkers (.starting 0) (initial "pool" 2)).1).next = some p ∧
      Dict.size p.workers = 2 :=
  size_workers_of_exit (Nat.le_refl 2) (runWhere_allStart "pool" (Nat.le_succ 1) .shutdown)
    (Nat.le_refl 1)

/-- A pool of one worker does not survive its exit. -/
theorem not_forall_size_workers : ¬∀ (name : Atom) (size : ℕ) (ls : List Input)
    (env : Env) (pid : Pid) (reason : ExitReason) (s : Option (WorkerPool Unit)), 1 ≤ size →
    (machine name size).RunWhere AllStart (ls ++ [.exit env pid reason]) s →
      ls.countP Input.isStart ≤ 1 → ∃ p, s = some p ∧ Dict.size p.workers = size := fun h => by
  obtain ⟨p, hp, -⟩ := h "pool" 1 _ _ _ _ _ (Nat.le_refl 1)
    (runWhere_allStart "pool" (Nat.le_refl 1) .shutdown) (Nat.le_refl 1)
  exact absurd hp.symm (Option.some_ne_none p)

end WorkerPool

end Sylph.DataProcessor

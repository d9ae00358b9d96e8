import Mathlib.Algebra.Order.Ring.Int
import Mathlib.Data.List.Perm.Basic
import Sylph.Lib.Machine

/-!
# Reading, and writing later

Calls that each read a shared value in one step and write it back in a later one, in any
order and without a lock.

* `ReadWrite.machine`: the calls of a list, each of which takes its two steps once.
* `Counts`: a measure of the value that a write puts to one more than what has been read,
  or leaves alone, if the value has changed since then.
* `lossless_step_iff`: as long as nothing is lost, the measure counts the calls that have
  finished; what is lost once is lost for good. So the measure counts all calls iff every
  write finds the value that has been read (`lossless_iff`).
-/

namespace Lib

/-- Calls `ι` on a shared state `σ`: what they read of it, and the state they write after
    reading a value. -/
structure ReadWrite (σ α ι : Type*) where
  read : σ → α
  write : ι → α → σ → σ

namespace ReadWrite

variable {σ α ι : Type*}

/-- How far a call has got. -/
inductive Progress (α : Type*)
  | waiting
  | found (a : α)
  | finished

/-- The call has written. -/
def Progress.isFinished : Progress α → Bool
  | finished => true
  | waiting | found _ => false

/-- The shared state, and the calls. -/
structure State (σ α ι : Type*) where
  shared : σ
  calls : List (ι × Progress α)

/-- A step of the call at a position. -/
inductive Label
  | read (i : ℕ)
  | write (i : ℕ)

variable (p : ReadWrite σ α ι)

/-- A call reads what is shared, and later writes what it makes of it. -/
def step (s : State σ α ι) : Label → Option (State σ α ι)
  | .read i =>
    match s.calls[i]? with
    | some (c, .waiting) => some ⟨s.shared, s.calls.set i (c, .found (p.read s.shared))⟩
    | _ => none
  | .write i =>
    match s.calls[i]? with
    | some (c, .found a) => some ⟨p.write c a s.shared, s.calls.set i (c, .finished)⟩
    | _ => none

/-- The calls of a list, from a shared state. -/
def machine (s₀ : σ) (cs : List ι) : Machine (State σ α ι) Label where
  init := ⟨s₀, cs.map fun c => (c, .waiting)⟩
  step := p.step

/-- The number of the calls that have finished. -/
def State.finished (s : State σ α ι) : ℕ := s.calls.countP fun c => c.2.isFinished

/-- A call that writes finds the value it has read. -/
def Fresh (s : State σ α ι) (l : Label) : Prop :=
  ∀ i c a, l = .write i → s.calls[i]? = some (c, .found a) → p.read s.shared = a

variable {p}

/-- What a step does: a call reads the value, or writes after the one it has read. -/
theorem step_cases {s s' : State σ α ι} {l : Label} (h : p.step s l = some s') :
    (∃ i c r, l = .read i ∧ s.calls.Perm ((c, .waiting) :: r) ∧
      s'.calls.Perm ((c, .found (p.read s.shared)) :: r) ∧ s'.shared = s.shared ∧
      s'.finished = s.finished) ∨
    ∃ i c a r, l = .write i ∧ s.calls[i]? = some (c, .found a) ∧
      s.calls.Perm ((c, .found a) :: r) ∧ s'.calls.Perm ((c, .finished) :: r) ∧
      s'.shared = p.write c a s.shared ∧ s'.finished = s.finished + 1 := by
  have hset : ∀ {i : ℕ} {x : ι × Progress α}, s.calls[i]? = some x →
      ∃ r, s.calls.Perm (x :: r) ∧ ∀ y, (s.calls.set i y).Perm (y :: r) := by
    intro i x hx
    obtain ⟨hi, rfl⟩ := List.getElem?_eq_some_iff.1 hx
    exact ⟨s.calls.eraseIdx i, (List.getElem_cons_eraseIdx_perm hi).symm,
      fun y => List.set_perm_cons_eraseIdx hi y⟩
  rcases l with i | i <;> rw [step] at h
  · rcases hc : s.calls[i]? with _ | ⟨c, _ | a | _⟩ <;> rw [hc] at h <;> cases h
    obtain ⟨r, hr, hs⟩ := hset hc
    refine .inl ⟨i, c, r, rfl, hr, hs _, rfl, ?_⟩
    rw [State.finished, (hs _).countP_eq, State.finished, hr.countP_eq]
    rfl
  · rcases hc : s.calls[i]? with _ | ⟨c, _ | a | _⟩ <;> rw [hc] at h <;> cases h
    obtain ⟨r, hr, hs⟩ := hset hc
    refine .inr ⟨i, c, a, r, rfl, hc, hr, hs _, rfl, ?_⟩
    rw [State.finished, (hs _).countP_eq, State.finished, hr.countP_eq, List.countP_cons,
      List.countP_cons]
    rfl

/-- The calls stay. -/
theorem length_calls {s₀ : σ} {cs : List ι} {s : State σ α ι}
    (h : (p.machine s₀ cs).Reachable s) : s.calls.length = cs.length := by
  refine Machine.Reachable.invariant (P := fun s => s.calls.length = cs.length)
    (List.length_map _) ?_ h
  intro s l s' hl hst
  rcases step_cases hst with ⟨_, _, r, -, hr, hr', -⟩ | ⟨_, _, _, r, -, -, hr, hr', -⟩ <;>
    rw [hr'.length_eq, ← hl, hr.length_eq, List.length_cons, List.length_cons]

/-! ## Counting calls -/

variable (p) in
/-- A measure that counts: a write of a value that has not changed adds one, and a write
    after a value that has changed adds one to what it was, or nothing to what it is. -/
structure Counts (μ : α → ℤ) : Prop where
  fresh : ∀ c s, μ (p.read (p.write c (p.read s) s)) = μ (p.read s) + 1
  stale : ∀ c a s, p.read s ≠ a →
    μ (p.read (p.write c a s)) = μ a + 1 ∨ μ (p.read (p.write c a s)) = μ (p.read s)

variable (p) in
/-- The measure is at most what the calls that have finished make of `n`, and so is that of a
    value that has been read, which is still there if it is as much. -/
structure Bounded (μ : α → ℤ) (n : ℤ) (s : State σ α ι) : Prop where
  shared : μ (p.read s.shared) ≤ n + s.finished
  found : ∀ c a, (c, .found a) ∈ s.calls → μ a ≤ n + s.finished ∧
    (μ a = n + s.finished → p.read s.shared = a)

/-- No call that has finished has been lost. -/
def Lossless (p : ReadWrite σ α ι) (μ : α → ℤ) (n : ℤ) (s : State σ α ι) : Prop :=
  μ (p.read s.shared) = n + s.finished

variable {μ : α → ℤ} {n : ℤ} {s₀ : σ} {cs : List ι}

theorem finished_init : (p.machine s₀ cs).init.finished = 0 := by
  rw [State.finished, List.countP_eq_zero]
  intro c hc
  obtain ⟨c, -, rfl⟩ := List.mem_map.1 hc
  exact Bool.false_ne_true

theorem bounded_of_reachable (hμ : p.Counts μ) {s : State σ α ι}
    (h : (p.machine s₀ cs).Reachable s) : p.Bounded μ (μ (p.read s₀)) s := by
  refine Machine.Reachable.invariant (P := p.Bounded μ (μ (p.read s₀))) ?_ ?_ h
  · refine ⟨by rw [finished_init]; exact (add_zero _).ge, fun c a hc => ?_⟩
    obtain ⟨c, -, he⟩ := List.mem_map.1 hc
    cases he
  · intro s l s' hb hst
    rcases step_cases hst with ⟨i, c, r, -, hr, hr', hs, hf⟩ | ⟨i, c, a, r, -, -, hr, hr', hs, hf⟩
    · refine ⟨by rw [hs, hf]; exact hb.shared, fun c' a' hc => ?_⟩
      rw [hs, hf]
      rcases List.mem_cons.1 (hr'.subset hc) with he | hc
      · cases he
        exact ⟨hb.shared, fun _ => rfl⟩
      · exact hb.found c' a' (hr.symm.subset (List.mem_cons_of_mem _ hc))
    · have hle := hb.shared
      have ha := (hb.found c a (hr.symm.subset List.mem_cons_self)).1
      refine ⟨?_, fun c' a' hc => ?_⟩
      · rw [hs, hf]
        push_cast
        by_cases he : p.read s.shared = a
        · subst he
          rw [hμ.fresh]
          omega
        · rcases hμ.stale c a s.shared he with h | h <;> omega
      · -- What another call has read is less than the calls that have finished by now.
        rcases List.mem_cons.1 (hr'.subset hc) with he | hc
        · cases he
        · have ha' := (hb.found c' a' (hr.symm.subset (List.mem_cons_of_mem _ hc))).1
          rw [hf]
          push_cast
          exact ⟨by omega, fun h => by omega⟩

/-- A write counts iff it finds the value that has been read, and nothing was lost before. -/
theorem measure_write_iff (hμ : p.Counts μ) {s : State σ α ι} (hb : p.Bounded μ n s) {c : ι} {a : α}
    (hc : (c, .found a) ∈ s.calls) :
    μ (p.read (p.write c a s.shared)) = n + s.finished + 1 ↔
      Lossless p μ n s ∧ p.read s.shared = a := by
  rw [Lossless]
  by_cases he : p.read s.shared = a
  · subst he
    rw [hμ.fresh]
    exact add_left_inj 1 |>.trans (and_iff_left rfl).symm
  · refine iff_of_false ?_ fun h => he h.2
    have hle := hb.shared
    obtain ⟨ha, heq⟩ := hb.found c a hc
    have hne : μ a ≠ n + s.finished := fun h => he (heq h)
    rcases hμ.stale c a s.shared he with h | h <;> omega

/-- After a step no call is lost iff none was before, and the step does not write after a
    value that has changed. -/
theorem lossless_step_iff (hμ : p.Counts μ) {s s' : State σ α ι} {l : Label}
    (hb : p.Bounded μ n s) (hst : p.step s l = some s') :
    Lossless p μ n s' ↔ Lossless p μ n s ∧ Fresh p s l := by
  rcases step_cases hst with ⟨i, c, r, rfl, -, -, hs, hf⟩ | ⟨i, c, a, r, rfl, hc, hr, -, hs, hf⟩
  · rw [Lossless, hs, hf]
    exact (and_iff_left fun _ _ _ he => by cases he).symm
  · rw [Lossless, hs, hf, Nat.cast_succ, ← add_assoc,
      measure_write_iff hμ hb (hr.symm.subset List.mem_cons_self)]
    refine and_congr_right fun _ => ⟨?_, fun h => h i c a rfl hc⟩
    intro he i' c' a' hl hc'
    cases hl
    cases hc.symm.trans hc'
    exact he

/-- A run loses no call iff every write finds the value that has been read. -/
theorem lossless_iff (hμ : p.Counts μ) {ls : List Label} {s : State σ α ι}
    (h : (p.machine s₀ cs).Run ls s) :
    Lossless p μ (μ (p.read s₀)) s ↔ (p.machine s₀ cs).RunWhere p.Fresh ls s := by
  have hinit : Lossless p μ (μ (p.read s₀)) (p.machine s₀ cs).init := by
    rw [Lossless, finished_init]
    exact (add_zero _).symm
  have hstep : ∀ s l s', (p.machine s₀ cs).Reachable s → (p.machine s₀ cs).step s l = some s' →
      (Lossless p μ (μ (p.read s₀)) s' ↔ Lossless p μ (μ (p.read s₀)) s ∧ p.Fresh s l) :=
    fun s l s' hr hst => lossless_step_iff hμ (bounded_of_reachable hμ hr) hst
  rw [← Machine.runThrough_iff_runWhere hinit fun s l s' hr hp hst =>
      (hstep s l s' hr hst).trans (and_iff_right hp),
    Machine.runThrough_iff_of_stable fun s l s' hr hst hp => ((hstep s l s' hr hst).1 hp).1]
  exact (and_iff_right h).symm

end ReadWrite

end Lib

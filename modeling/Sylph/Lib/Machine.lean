import Mathlib.Data.List.Induction
import Mathlib.Data.Option.Basic

/-!
# Machines

A machine is an initial state and a partial step function: the label of a step
resolves everything the step leaves open (the message handled, the answers of
the environment, who is scheduled), so that a step is a function and a run can
be evaluated. A step that is not enabled leads nowhere (`none`).

* `Machine.Run`: the runs, recorded by their labels, from the initial state;
* `Machine.Reachable`: the states at the end of some run;
* `Run.invariant`, `Reachable.invariant`: what holds initially and is kept by
  every step holds at the end of every run (a property of the labels so far and
  the state, resp. of the state alone);
* `Machine.RunWhere`, `Machine.RunThrough`: the runs all of whose steps meet a condition,
  resp. that only go through states with a property; they are the same if the condition
  says when a step keeps the property (`runThrough_iff_runWhere`), and only the last state
  counts if no step restores it (`runThrough_iff_of_stable`);
* `Machine.Inevitably`: whatever the steps taken, a state with a property is reached;
  a rank that decreases shows it (`Inevitably.of_rank`);
* `Machine.withCrash`: the machine in a process that may crash, which keeps what is inevitable,
  but for the crash (`inevitably_withCrash_iff`);
* `Machine.exec`: the evaluation of a list of labels, the basis of concrete runs;
* `Machine.Refines`: a step-by-step translation of a machine into another, along
  which runs are carried (`Refines.run`) and lifted (`Refines.lift`).
-/

namespace Lib

/-- A machine on the states `σ`, whose steps are labelled by `ℓ`. -/
structure Machine (σ ℓ : Type*) where
  /-- The initial state. -/
  init : σ
  /-- The state after a step with a label, if it is enabled. -/
  step : σ → ℓ → Option σ

namespace Machine

variable {σ ℓ : Type*} (m : Machine σ ℓ)

/-- The runs of `m`: `m.Run ls s` if the labels `ls`, in order, lead to `s`. -/
inductive Run : List ℓ → σ → Prop
  | nil : Run [] m.init
  | snoc {ls : List ℓ} {s s' : σ} {l : ℓ} : Run ls s → m.step s l = some s' → Run (ls ++ [l]) s'

/-- The states at the end of a run. -/
def Reachable (s : σ) : Prop := ∃ ls, m.Run ls s

/-- The evaluation of the labels `ls` from the initial state. -/
def exec (ls : List ℓ) : Option σ := ls.foldlM m.step m.init

variable {m}

theorem Run.reachable {ls : List ℓ} {s : σ} (h : m.Run ls s) : m.Reachable s := ⟨ls, h⟩

theorem Reachable.init : m.Reachable m.init := ⟨[], .nil⟩

theorem Reachable.step {s s' : σ} {l : ℓ} (h : m.Reachable s) (hs : m.step s l = some s') :
    m.Reachable s' :=
  let ⟨ls, h⟩ := h; ⟨ls ++ [l], .snoc h hs⟩

/-- An invariant of runs: a property of the labels so far and the state. -/
theorem Run.invariant {P : List ℓ → σ → Prop} (h₀ : P [] m.init)
    (hs : ∀ ls s l s', m.Run ls s → P ls s → m.step s l = some s' → P (ls ++ [l]) s')
    {ls : List ℓ} {s : σ} (h : m.Run ls s) : P ls s := by
  induction h with
  | nil => exact h₀
  | snoc hr hst ih => exact hs _ _ _ _ hr ih hst

/-- An invariant of states. -/
theorem Reachable.invariant {P : σ → Prop} (h₀ : P m.init)
    (hs : ∀ s l s', P s → m.step s l = some s' → P s') {s : σ} (h : m.Reachable s) : P s := by
  obtain ⟨ls, h⟩ := h
  exact h.invariant (P := fun _ s => P s) h₀ fun _ s l s' _ => hs s l s'

/-- An evaluation is a run. -/
theorem run_of_exec {ls : List ℓ} {s : σ} (h : m.exec ls = some s) : m.Run ls s := by
  induction ls using List.reverseRecOn generalizing s with
  | nil => cases h; exact .nil
  | append_singleton ls l ih =>
    rw [exec, List.foldlM_append] at h
    obtain ⟨s₁, h₁, h⟩ := Option.bind_eq_some_iff.1 h
    simp only [List.foldlM_cons, List.foldlM_nil] at h
    obtain ⟨s₂, h₂, h⟩ := Option.bind_eq_some_iff.1 h
    cases h
    exact .snoc (ih h₁) h₂

/-- The labels of a run determine where it leads. -/
theorem exec_of_run {ls : List ℓ} {s : σ} (h : m.Run ls s) : m.exec ls = some s := by
  induction h with
  | nil => rfl
  | snoc _ hst ih =>
    rw [exec, List.foldlM_append]
    rw [exec] at ih
    rw [ih]
    simpa using hst

theorem reachable_of_exec {ls : List ℓ} {s : σ} (h : m.exec ls = some s) : m.Reachable s :=
  (run_of_exec h).reachable

/-! ## Conditions on runs -/

/-- The runs all of whose steps meet the condition `C`, on the state before the step and
    its label. -/
inductive RunWhere (m : Machine σ ℓ) (C : σ → ℓ → Prop) : List ℓ → σ → Prop
  | nil : RunWhere m C [] m.init
  | snoc {ls : List ℓ} {s s' : σ} {l : ℓ} : RunWhere m C ls s → C s l → m.step s l = some s' →
    RunWhere m C (ls ++ [l]) s'

/-- The runs that only go through states with the property `P`. -/
inductive RunThrough (m : Machine σ ℓ) (P : σ → Prop) : List ℓ → σ → Prop
  | nil : P m.init → RunThrough m P [] m.init
  | snoc {ls : List ℓ} {s s' : σ} {l : ℓ} : RunThrough m P ls s → m.step s l = some s' → P s' →
    RunThrough m P (ls ++ [l]) s'

theorem RunWhere.run {C : σ → ℓ → Prop} {ls : List ℓ} {s : σ} (h : m.RunWhere C ls s) :
    m.Run ls s := by
  induction h with
  | nil => exact .nil
  | snoc _ _ hst ih => exact .snoc ih hst

theorem RunThrough.run {P : σ → Prop} {ls : List ℓ} {s : σ} (h : m.RunThrough P ls s) :
    m.Run ls s := by
  induction h with
  | nil => exact .nil
  | snoc _ hst _ ih => exact .snoc ih hst

theorem RunThrough.prop {P : σ → Prop} {ls : List ℓ} {s : σ} (h : m.RunThrough P ls s) :
    P s := by
  rcases h with h | ⟨-, -, h⟩ <;> exact h

theorem RunThrough.init {P : σ → Prop} {ls : List ℓ} {s : σ} (h : m.RunThrough P ls s) :
    P m.init := by
  induction h with
  | nil h => exact h
  | snoc _ _ _ ih => exact ih

/-- An invariant of the runs that meet a condition. -/
theorem RunWhere.invariant {C : σ → ℓ → Prop} {P : List ℓ → σ → Prop} (h₀ : P [] m.init)
    (hs : ∀ ls s l s', P ls s → C s l → m.step s l = some s' → P (ls ++ [l]) s')
    {ls : List ℓ} {s : σ} (h : m.RunWhere C ls s) : P ls s := by
  induction h with
  | nil => exact h₀
  | snoc _ hc hst ih => exact hs _ _ _ _ ih hc hst

/-- The last step of a run that meets a condition. -/
theorem RunWhere.of_snoc {C : σ → ℓ → Prop} {ls : List ℓ} {l : ℓ} {s' : σ}
    (h : m.RunWhere C (ls ++ [l]) s') : ∃ s, m.RunWhere C ls s ∧ C s l ∧ m.step s l = some s' := by
  generalize hk : ls ++ [l] = ks at h
  rcases h with _ | ⟨hr, hc, hst⟩
  · exact absurd hk (List.append_ne_nil_of_right_ne_nil _ (List.cons_ne_nil _ _))
  · obtain ⟨rfl, hl⟩ := List.append_inj' hk rfl
    obtain rfl := List.singleton_inj.1 hl
    exact ⟨_, hr, hc, hst⟩

/-- If a condition says which steps keep a property that holds initially, the runs that
    only go through states with the property are those whose steps meet the condition. -/
theorem runThrough_iff_runWhere {C : σ → ℓ → Prop} {P : σ → Prop} (h₀ : P m.init)
    (hs : ∀ s l s', m.Reachable s → P s → m.step s l = some s' → (P s' ↔ C s l))
    {ls : List ℓ} {s : σ} : m.RunThrough P ls s ↔ m.RunWhere C ls s := by
  constructor
  · intro h
    induction h with
    | nil => exact .nil
    | snoc hr hst hp ih => exact .snoc ih ((hs _ _ _ hr.run.reachable hr.prop hst).1 hp) hst
  · intro h
    induction h with
    | nil => exact .nil h₀
    | snoc hr hc hst ih => exact .snoc ih hst ((hs _ _ _ hr.run.reachable ih.prop hst).2 hc)

/-- If no step restores a property, the runs that only go through states with the property
    are those that end in one. -/
theorem runThrough_iff_of_stable {P : σ → Prop}
    (hs : ∀ s l s', m.Reachable s → m.step s l = some s' → P s' → P s) {ls : List ℓ} {s : σ} :
    m.RunThrough P ls s ↔ m.Run ls s ∧ P s := by
  refine ⟨fun h => ⟨h.run, h.prop⟩, ?_⟩
  rintro ⟨hr, hp⟩
  induction hr with
  | nil => exact .nil hp
  | snoc hr hst ih => exact .snoc (ih (hs _ _ _ hr.reachable hst hp)) hst hp

/-! ## Moments -/

/-- At some moment of a run, the state has the property `P`. -/
def Once (m : Machine σ ℓ) (P : σ → Prop) (ls : List ℓ) : Prop :=
  ∃ ls' s, ls' <+: ls ∧ m.Run ls' s ∧ P s

theorem Run.once {P : σ → Prop} {ls : List ℓ} {s : σ} (h : m.Run ls s) (hp : P s) :
    m.Once P ls := ⟨ls, s, List.prefix_rfl, h, hp⟩

theorem Once.concat {P : σ → Prop} {ls : List ℓ} (h : m.Once P ls) (l : ℓ) :
    m.Once P (ls ++ [l]) := by
  obtain ⟨ls', s, hpre, hr, hp⟩ := h
  exact ⟨ls', s, hpre.trans (List.prefix_append _ _), hr, hp⟩

/-! ## What is inevitable -/

/-- Whatever the steps taken from a state, one with the property `P` is reached. -/
inductive Inevitably (m : Machine σ ℓ) (P : σ → Prop) : σ → Prop
  | now {s : σ} : P s → Inevitably m P s
  | later {s : σ} : (∃ l s', m.step s l = some s') →
    (∀ l s', m.step s l = some s' → Inevitably m P s') → Inevitably m P s

namespace Inevitably

variable {P Q : σ → Prop} {s s' : σ}

theorem mono (h : m.Inevitably P s) (hPQ : ∀ s, P s → Q s) : m.Inevitably Q s := by
  induction h with
  | now hp => exact .now (hPQ _ hp)
  | later he _ ih => exact .later he ih

theorem step (h : m.Inevitably P s) (hn : ¬P s) {l : ℓ} (hst : m.step s l = some s') :
    m.Inevitably P s' := by
  rcases h with hp | ⟨-, ha⟩
  · exact absurd hp hn
  · exact ha l s' hst

/-- Where no step is possible, what is inevitable holds already. -/
theorem of_final (h : m.Inevitably P s) (hf : ∀ l, m.step s l = none) : P s := by
  rcases h with hp | ⟨⟨l, s', hst⟩, -⟩
  · exact hp
  · rw [hf l] at hst
    exact absurd hst.symm (Option.some_ne_none s')

/-- What is inevitable from a reachable state holds in one. -/
theorem exists_reachable (h : m.Inevitably P s) (hs : m.Reachable s) :
    ∃ s', m.Reachable s' ∧ P s' := by
  induction h with
  | now hp => exact ⟨_, hs, hp⟩
  | later he _ ih =>
    obtain ⟨l, s', hst⟩ := he
    exact ih l s' hst (hs.step hst)

/-- A property is inevitable if, as long as it does not hold, a step is possible, and
    every step keeps an invariant and decreases a rank. -/
theorem of_rank {I : σ → Prop} (rank : σ → ℕ) (hp : ∀ s, I s → ¬P s → ∃ l s', m.step s l = some s')
    (hs : ∀ s l s', I s → ¬P s → m.step s l = some s' → I s' ∧ rank s' < rank s) (h : I s) :
    m.Inevitably P s := by
  induction hn : rank s using Nat.strongRecOn generalizing s with
  | ind n ih =>
    by_cases hP : P s
    · exact .now hP
    · refine .later (hp s h hP) fun l s' hst => ?_
      obtain ⟨h', hlt⟩ := hs s l s' h hP hst
      exact ih (rank s') (hn ▸ hlt) h' rfl

end Inevitably

/-! ## Crashes -/

/-- The machine in a process, which is gone (`none`) after a crash. `κ` are the causes of a
    crash, and `crashes` is where there may be one. -/
def withCrash {κ : Type*} (m : Machine σ ℓ) (crashes : σ → κ → Bool) :
    Machine (Option σ) (ℓ ⊕ κ) where
  init := some m.init
  step
    | some s, .inl l => (m.step s l).map some
    | some s, .inr k => if crashes s k then some none else none
    | none, _ => none

section Crash

variable {κ : Type*} {crashes : σ → κ → Bool} {P : σ → Prop} {s : σ}

/-- Where there is a crash, there was one to be expected. -/
theorem withCrash_step_inr {x : Option σ} {k : κ}
    (h : (m.withCrash crashes).step (some s) (.inr k) = some x) :
    crashes s k = true ∧ x = none := by
  obtain ⟨hc, hx⟩ := Option.ite_none_right_eq_some.1 h
  exact ⟨hc, (Option.some_inj.1 hx).symm⟩

/-- What is inevitable is so in a process that may crash, unless it does, provided that a
    crash is never all that is possible. -/
theorem inevitably_withCrash_iff
    (hgo : ∀ s k, crashes s k = true → ∃ l s', m.step s l = some s') :
    (m.withCrash crashes).Inevitably (fun x => ∀ s, x = some s → P s) (some s) ↔
      m.Inevitably P s := by
  constructor
  · intro h
    generalize hx : some s = x at h
    induction h generalizing s with
    | now hp => exact .now (hp s hx.symm)
    | later he _ ih =>
      subst hx
      refine .later ?_ fun l s' hst => ih (.inl l) (some s') ?_ rfl
      · obtain ⟨l | k, x, hst⟩ := he
        · obtain ⟨s', hst, -⟩ := Option.map_eq_some_iff.1 hst
          exact ⟨l, s', hst⟩
        · exact hgo s k (withCrash_step_inr hst).1
      · exact congrArg (Option.map some) hst
  · intro h
    induction h with
    | now hp => exact .now fun _ hs => Option.some_inj.1 hs ▸ hp
    | later he _ ih =>
      refine .later ?_ ?_
      · obtain ⟨l, s', hst⟩ := he
        exact ⟨.inl l, some s', congrArg (Option.map some) hst⟩
      · rintro (l | k) x hst
        · obtain ⟨s', hs', rfl⟩ := Option.map_eq_some_iff.1 hst
          exact ih l s' hs'
        · rw [(withCrash_step_inr hst).2]
          exact .now nofun

end Crash

/-! ## Refinement -/

variable {τ κ : Type*}

/-- `c` refines `a` along the translations `f` of states and `g` of labels:
    steps of `c` become steps of `a`. -/
structure Refines (c : Machine σ ℓ) (a : Machine τ κ) (f : σ → τ) (g : ℓ → κ) : Prop where
  init : f c.init = a.init
  step : ∀ s l s', c.step s l = some s' → a.step (f s) (g l) = some (f s')

/-- Runs are carried along a refinement. -/
theorem Refines.run {c : Machine σ ℓ} {a : Machine τ κ} {f : σ → τ} {g : ℓ → κ}
    (h : Refines c a f g) {ls : List ℓ} {s : σ} (hr : c.Run ls s) : a.Run (ls.map g) (f s) := by
  induction hr with
  | nil => rw [h.init]; exact .nil
  | snoc _ hst ih =>
    rw [List.map_append, List.map_singleton]
    exact .snoc ih (h.step _ _ _ hst)

/-- If every step of `a` from a translated state is the translation of a step of
    `c`, the runs of `a` lift to `c`. -/
theorem Refines.lift {c : Machine σ ℓ} {a : Machine τ κ} {f : σ → τ} {g : ℓ → κ}
    (h : Refines c a f g)
    (hs : ∀ s k t, a.step (f s) k = some t → ∃ l s', g l = k ∧ f s' = t ∧ c.step s l = some s')
    {ks : List κ} {t : τ} (hr : a.Run ks t) : ∃ ls s, ls.map g = ks ∧ f s = t ∧ c.Run ls s := by
  induction hr with
  | nil => exact ⟨[], c.init, rfl, h.init, .nil⟩
  | snoc _ hst ih =>
    obtain ⟨ls, s, rfl, rfl, hr⟩ := ih
    obtain ⟨l, s', rfl, rfl, hst'⟩ := hs _ _ _ hst
    exact ⟨ls ++ [l], s', by simp, rfl, .snoc hr hst'⟩

end Machine

end Lib

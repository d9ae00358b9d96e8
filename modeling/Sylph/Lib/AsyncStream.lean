import Mathlib.Data.List.Nodup
import Mathlib.Data.List.Perm.Subperm
import Sylph.Lib.Machine

/-!
# Streams of concurrent tasks

`Task.async_stream` with its default options, consumed by a reduction: a task for every
element, at most `maxConcurrency` of them at a time, started in order; results taken in
order, until the reduction halts at one. The caller exits with a task that raises, as
they are linked, and with a task that exceeds the timeout.

* What a task comes to if it is left running is its `TaskOutcome`. The order in which
  the tasks come to it is open, but for this: a task does not exceed the timeout before
  the ones started earlier are finished, as their time is up first (`step`).
* `inevitably_reduced_iff`: the caller survives, whatever the order, if and only if no
  task raises, and one that exceeds the timeout comes after one at whose result the
  reduction halts (`Contained`).
-/

namespace Lib

/-- What a task comes to if it is left running. -/
inductive TaskOutcome (ρ ε : Type*)
  | returns (result : ρ)
  | raises (reason : ε)
  | timesOut

namespace AsyncStream

variable {ρ ε : Type*}

/-- The caller: it takes results, `finished` being the positions of the tasks that have
    returned; the reduction is over; or it has exited with a task. -/
inductive State
  | running (finished : List ℕ)
  | reduced
  | exited (position : ℕ)
  deriving DecidableEq

/-- Whether the reduction is over, taking the results in order from position `i`. -/
def reduces (halts : ρ → Bool) (finished : List ℕ) (i : ℕ) : List (TaskOutcome ρ ε) → Bool
  | [] => true
  | .returns result :: rest =>
    i ∈ finished && (halts result || reduces halts finished (i + 1) rest)
  | _ :: _ => false

/-- The caller once the tasks `finished` have returned. -/
def settle (outcomes : List (TaskOutcome ρ ε)) (halts : ρ → Bool) (finished : List ℕ) : State :=
  if reduces halts finished 0 outcomes then .reduced else .running finished

/-- The task at a position comes to its outcome. -/
def step (outcomes : List (TaskOutcome ρ ε)) (maxConcurrency : ℕ) (halts : ρ → Bool) :
    State → ℕ → Option State
  | .running finished, i =>
    if i ∉ finished ∧ i < finished.length + maxConcurrency then
      match outcomes[i]? with
      | some (.returns _) => some (settle outcomes halts (finished ++ [i]))
      | some (.raises _) => some (.exited i)
      | some .timesOut => if ∀ j < i, j ∈ finished then some (.exited i) else none
      | none => none
    else none
  | _, _ => none

/-- The stream, taken by a reduction that halts at the results in `halts`. -/
def machine (outcomes : List (TaskOutcome ρ ε)) (maxConcurrency : ℕ) (halts : ρ → Bool) :
    Machine State ℕ where
  init := settle outcomes halts []
  step := step outcomes maxConcurrency halts

/-- No task raises, and one that exceeds the timeout comes after one at whose result the
    reduction halts. -/
structure Contained (halts : ρ → Bool) (outcomes : List (TaskOutcome ρ ε)) : Prop where
  raises : ∀ reason, .raises reason ∉ outcomes
  timesOut : ∀ pre post, outcomes = pre ++ .timesOut :: post →
    ∃ result, .returns result ∈ pre ∧ halts result

variable {outcomes : List (TaskOutcome ρ ε)} {maxConcurrency : ℕ} {halts : ρ → Bool}
  {finished : List ℕ}

/-! ## The reduction -/

/-- A reduction that is not over waits for a task, having taken the results of all those
    before. -/
theorem exists_of_not_reduces {i : ℕ} (h : reduces halts finished i outcomes = false) :
    ∃ pre o post, outcomes = pre ++ o :: post ∧
      (∀ u ∈ pre, ∃ r, u = .returns r ∧ halts r = false) ∧
      (∀ k < pre.length, i + k ∈ finished) ∧ ∀ r, o = .returns r → i + pre.length ∉ finished := by
  induction outcomes generalizing i with
  | nil => exact absurd h Bool.noConfusion
  | cons o rest ih =>
    -- It stops right here,
    have hnow : (∀ r, o = .returns r → i ∉ finished) →
        ∃ pre o' post, o :: rest = pre ++ o' :: post ∧
        (∀ u ∈ pre, ∃ r, u = .returns r ∧ halts r = false) ∧
        (∀ k < pre.length, i + k ∈ finished) ∧ ∀ r, o' = .returns r → i + pre.length ∉ finished :=
      fun ho => ⟨[], o, rest, rfl, fun _ hu => absurd hu List.not_mem_nil,
        fun k hk => absurd hk (Nat.not_lt_zero k), ho⟩
    rcases o with r | e | _
    · rw [reduces, Bool.and_eq_false_iff, Bool.or_eq_false_iff, decide_eq_false_iff_not] at h
      -- or it goes on past a task that has returned.
      by_cases hi : i ∈ finished
      · obtain ⟨hr, hrest⟩ := h.resolve_left (not_not_intro hi)
        obtain ⟨pre, o, post, rfl, hpre, hk, ho⟩ := ih hrest
        refine ⟨.returns r :: pre, o, post, rfl, ?_, ?_, ?_⟩
        · intro u hu
          rcases List.mem_cons.1 hu with rfl | hu
          · exact ⟨r, rfl, hr⟩
          · exact hpre u hu
        · rintro (_ | k) hlt
          · exact hi
          · rw [← Nat.succ_add_eq_add_succ]
            exact hk k (Nat.lt_of_succ_lt_succ hlt)
        · rw [List.length_cons, ← Nat.succ_add_eq_add_succ]
          exact ho
      · exact hnow fun _ _ => hi
    · exact hnow fun _ h => absurd h nofun
    · exact hnow fun _ h => absurd h nofun

/-- It is not over before a task that does not return, unless it has halted. -/
theorem reduces_append_cons {pre post : List (TaskOutcome ρ ε)} {o : TaskOutcome ρ ε} {i : ℕ}
    (hpre : ∀ r, .returns r ∈ pre → halts r = false) (ho : ∀ r, o ≠ .returns r) :
    reduces halts finished i (pre ++ o :: post) = false := by
  induction pre generalizing i with
  | nil =>
    rcases o with r | e | _
    · exact absurd rfl (ho r)
    · rfl
    · rfl
  | cons u pre ih =>
    rcases u with r | e | _
    · rw [List.cons_append, reduces, hpre r List.mem_cons_self, Bool.false_or,
        ih fun r hr => hpre r (List.mem_cons_of_mem _ hr), Bool.and_false]
    · rfl
    · rfl

theorem settle_nil (h : outcomes ≠ []) : settle outcomes halts [] = .running [] := by
  refine if_neg ?_
  rcases outcomes with _ | ⟨_ | _ | _, rest⟩
  · exact absurd rfl h
  all_goals exact Bool.false_ne_true

/-- The reduction is only over where it has taken results. -/
theorem exists_reduces_of_reachable
    (h : (machine outcomes maxConcurrency halts).Reachable .reduced) :
    ∃ finished, reduces halts finished 0 outcomes = true := by
  have hsettle : ∀ finished, settle outcomes halts finished = .reduced →
      reduces halts finished 0 outcomes = true := fun finished hs => by
    by_contra hn
    rw [settle, if_neg hn] at hs
    exact State.noConfusion hs
  have hinv : ∀ s, (machine outcomes maxConcurrency halts).Reachable s → s = .reduced →
      ∃ finished, reduces halts finished 0 outcomes = true := fun s hs => by
    refine hs.invariant (P := fun s => s = .reduced →
      ∃ finished, reduces halts finished 0 outcomes = true) (fun h => ⟨_, hsettle _ h⟩) ?_
    rintro (finished | _ | j) i s' - hst rfl
    · change step outcomes maxConcurrency halts (.running finished) i = some .reduced at hst
      rw [step] at hst
      split at hst
      · split at hst
        · exact ⟨_, hsettle _ (Option.some_inj.1 hst)⟩
        · cases hst
        · split at hst <;> cases hst
        · cases hst
      · cases hst
    · cases hst
    · cases hst
  exact hinv _ h rfl

/-! ## Survival -/

/-- What holds while the caller runs: the tasks that have returned are tasks that do, and
    the reduction is not over; and it has not exited. -/
def Intact (outcomes : List (TaskOutcome ρ ε)) (halts : ρ → Bool) : State → Prop
  | .running finished => finished.Nodup ∧ (∀ i ∈ finished, ∃ r, outcomes[i]? = some (.returns r)) ∧
      reduces halts finished 0 outcomes = false
  | .reduced => True
  | .exited _ => False

/-- The tasks that have not returned. -/
def remaining (outcomes : List (TaskOutcome ρ ε)) : State → ℕ
  | .running finished => outcomes.length + 1 - finished.length
  | _ => 0

theorem length_le_of_intact (h : Intact outcomes halts (.running finished)) :
    finished.length ≤ outcomes.length := by
  have hsub : finished ⊆ List.range outcomes.length := fun i hi => by
    obtain ⟨r, hr⟩ := h.2.1 i hi
    exact List.mem_range.2 (List.getElem?_eq_some_iff.1 hr).1
  have := (List.subperm_of_subset h.1 hsub).length_le
  rwa [List.length_range] at this

theorem step_returns {i : ℕ} {r : ρ} (hi : i ∉ finished)
    (hlt : i < finished.length + maxConcurrency)
    (hget : outcomes[i]? = some (.returns r)) :
    step outcomes maxConcurrency halts (.running finished) i =
      some (settle outcomes halts (finished ++ [i])) := by
  rw [step, if_pos ⟨hi, hlt⟩, hget]

theorem step_raises {i : ℕ} {e : ε} (hi : i ∉ finished) (hlt : i < finished.length + maxConcurrency)
    (hget : outcomes[i]? = some (.raises e)) :
    step outcomes maxConcurrency halts (.running finished) i = some (.exited i) := by
  rw [step, if_pos ⟨hi, hlt⟩, hget]

theorem step_timesOut {i : ℕ} (hi : i ∉ finished) (hlt : i < finished.length + maxConcurrency)
    (hget : outcomes[i]? = some .timesOut) (hall : ∀ j < i, j ∈ finished) :
    step outcomes maxConcurrency halts (.running finished) i = some (.exited i) := by
  rw [step, if_pos ⟨hi, hlt⟩, hget]
  exact if_pos hall

/-- If no task raises or exceeds the timeout before the reduction halts, there is always
    a task that can return. -/
theorem exists_step_of_contained (hc : Contained halts outcomes)
    (hlen : outcomes.length ≤ maxConcurrency) (h : Intact outcomes halts (.running finished)) :
    ∃ i s, step outcomes maxConcurrency halts (.running finished) i = some s := by
  obtain ⟨pre, o, post, rfl, hpre, -, ho⟩ := exists_of_not_reduces h.2.2
  have hget : (pre ++ o :: post)[pre.length]? = some o := by simp
  have hlt : pre.length < finished.length + maxConcurrency := by
    simp only [List.length_append, List.length_cons] at hlen
    omega
  rcases o with r | e | _
  · have hi : pre.length ∉ finished := Nat.zero_add pre.length ▸ ho r rfl
    exact ⟨pre.length, _, step_returns hi hlt hget⟩
  · exact absurd (List.mem_append_right pre List.mem_cons_self) (hc.raises e)
  · obtain ⟨r, hr, hh⟩ := hc.timesOut pre post rfl
    obtain ⟨r', hr', hf⟩ := hpre _ hr
    obtain rfl : r = r' := TaskOutcome.returns.inj hr'
    exact absurd (hf.symm.trans hh) Bool.noConfusion

theorem intact_settle (hn : finished.Nodup)
    (hr : ∀ i ∈ finished, ∃ r, outcomes[i]? = some (.returns r)) :
    Intact outcomes halts (settle outcomes halts finished) := by
  rw [settle]
  split
  · trivial
  · next h => exact ⟨hn, hr, Bool.eq_false_iff.2 h⟩

/-- A task that exceeds the timeout after a result at which the reduction halts is not
    waited for. -/
theorem reduces_of_timesOut (hc : Contained halts outcomes)
    (hr : ∀ i ∈ finished, ∃ r, outcomes[i]? = some (.returns r)) {i : ℕ}
    (hget : outcomes[i]? = some .timesOut) (hall : ∀ j < i, j ∈ finished) :
    reduces halts finished 0 outcomes = true := by
  by_contra hn
  obtain ⟨pre, o, post, rfl, hpre, -, ho⟩ := exists_of_not_reduces (Bool.eq_false_iff.2 hn)
  have hget' : (pre ++ o :: post)[pre.length]? = some o := by simp
  rcases Nat.lt_trichotomy i pre.length with hlt | rfl | hlt
  · -- All tasks before the one waited for return.
    rw [List.getElem?_append_left hlt] at hget
    obtain ⟨r, hr', -⟩ := hpre _ (List.mem_of_getElem? hget)
    exact absurd hr' nofun
  · obtain rfl := Option.some_inj.1 (hget'.symm.trans hget)
    obtain ⟨r, hm, hh⟩ := hc.timesOut pre post rfl
    obtain ⟨r', hr', hf⟩ := hpre _ hm
    obtain rfl := TaskOutcome.returns.inj hr'
    exact absurd (hf.symm.trans hh) Bool.noConfusion
  · -- The one waited for has returned.
    obtain ⟨r, hr'⟩ := hr _ (hall pre.length hlt)
    refine ho r (Option.some_inj.1 (hget'.symm.trans hr')) ?_
    rw [Nat.zero_add]
    exact hall pre.length hlt

/-- A step is the return of a task, then. -/
theorem intact_step (hc : Contained halts outcomes) (h : Intact outcomes halts (.running finished))
    {i : ℕ} {s : State} (hst : step outcomes maxConcurrency halts (.running finished) i = some s) :
    Intact outcomes halts s ∧ remaining outcomes s < remaining outcomes (.running finished) := by
  have hle := length_le_of_intact h
  rw [step] at hst
  split at hst
  · next hi =>
    split at hst
    · next r hget =>
      obtain rfl := Option.some_inj.1 hst
      -- A task returns.
      have hn : (finished ++ [i]).Nodup :=
        List.nodup_append.2 ⟨h.1, List.nodup_singleton i, fun a ha b hb hab =>
          hi.1 (List.mem_singleton.1 hb ▸ hab ▸ ha)⟩
      have hr : ∀ k ∈ finished ++ [i], ∃ r, outcomes[k]? = some (.returns r) := by
        intro k hk
        rcases List.mem_append.1 hk with hk | hk
        · exact h.2.1 k hk
        · exact ⟨r, List.mem_singleton.1 hk ▸ hget⟩
      refine ⟨intact_settle hn hr, ?_⟩
      rw [settle]
      split
      · exact Nat.sub_pos_of_lt (Nat.lt_succ_of_le hle)
      · simp only [remaining, List.length_append, List.length_singleton]
        omega
    · -- No task raises, and one that times out comes after the stream is over.
      next e hget => exact absurd (List.mem_of_getElem? hget) (hc.raises e)
    · next hget =>
      split at hst
      · next hall =>
        exact absurd (reduces_of_timesOut hc h.2.1 hget hall) (h.2.2 ▸ Bool.false_ne_true)
      · exact absurd hst.symm (Option.some_ne_none s)
    · exact absurd hst.symm (Option.some_ne_none s)
  · exact absurd hst.symm (Option.some_ne_none s)

theorem inevitably_reduced_of_contained (hc : Contained halts outcomes)
    (hlen : outcomes.length ≤ maxConcurrency) :
    (machine outcomes maxConcurrency halts).Inevitably (· = .reduced)
      (machine outcomes maxConcurrency halts).init := by
  refine .of_rank (I := Intact outcomes halts) (remaining outcomes) ?_ ?_
    (intact_settle List.nodup_nil fun i hi => absurd hi List.not_mem_nil)
  · rintro (finished | _ | i) h hne
    · exact exists_step_of_contained hc hlen h
    · exact absurd rfl hne
    · exact absurd h id
  · rintro (finished | _ | i) l s' h hne hst
    · exact intact_step hc h hst
    · exact absurd rfl hne
    · exact absurd h id

/-! ## Failure -/

/-- The caller that has exited does not come to the end of the reduction. -/
theorem not_inevitably_of_exited (i : ℕ) :
    ¬(machine outcomes maxConcurrency halts).Inevitably (· = .reduced) (.exited i) := fun h =>
  absurd (h.of_final fun _ => rfl) nofun

/-- A task that raises may do so first. -/
theorem not_raises_of_inevitably (hlen : outcomes.length ≤ maxConcurrency)
    (h : (machine outcomes maxConcurrency halts).Inevitably (· = .reduced)
      (machine outcomes maxConcurrency halts).init) (reason : ε) : .raises reason ∉ outcomes := by
  intro hm
  obtain ⟨i, hi, hget⟩ := List.getElem_of_mem hm
  have hnil : (machine outcomes maxConcurrency halts).init = .running [] :=
    settle_nil (List.ne_nil_of_mem hm)
  rw [hnil] at h
  have hst : step outcomes maxConcurrency halts (.running []) i = some (.exited i) :=
    step_raises List.not_mem_nil (Nat.lt_of_lt_of_le hi (Nat.le_trans hlen (Nat.le_add_left _ _)))
      (List.getElem?_eq_some_iff.2 ⟨hi, hget⟩)
  exact not_inevitably_of_exited i (h.step nofun hst)

/-- A task that exceeds the timeout does so after those before it have returned. -/
theorem not_timesOut_of_inevitably {pre post : List (TaskOutcome ρ ε)}
    (hlen : (pre ++ .timesOut :: post).length ≤ maxConcurrency)
    (h : (machine (pre ++ .timesOut :: post) maxConcurrency halts).Inevitably (· = .reduced)
      (machine (pre ++ .timesOut :: post) maxConcurrency halts).init)
    (hpre : ∀ u ∈ pre, ∃ r, u = .returns r) : ∃ r, .returns r ∈ pre ∧ halts r := by
  by_contra hn
  have hn : ∀ r, .returns r ∈ pre → halts r = false := fun r hr =>
    Bool.eq_false_iff.2 fun hh => hn ⟨r, hr, hh⟩
  have ho : ∀ r, (.timesOut : TaskOutcome ρ ε) ≠ .returns r := fun r => nofun
  -- The stream is not over as long as the task that times out is not.
  have hsettle : ∀ finished, settle (pre ++ .timesOut :: post) halts finished = .running finished :=
    fun finished => if_neg (Bool.eq_false_iff.1 (reduces_append_cons hn ho))
  have hbound : ∀ i ≤ pre.length, i < (List.range i).length + maxConcurrency := by
    intro i hi
    simp only [List.length_append, List.length_cons, List.length_range] at hlen ⊢
    omega
  -- All tasks before it return, one after the other.
  have hrun : ∀ k ≤ pre.length, (machine (pre ++ .timesOut :: post) maxConcurrency halts).Inevitably
      (· = .reduced) (.running (List.range k)) := by
    intro k hk
    induction k with
    | zero => exact hsettle [] ▸ h
    | succ k ih =>
      obtain ⟨r, hr⟩ := hpre _ (List.getElem_mem hk)
      have hget : (pre ++ .timesOut :: post)[k]? = some (.returns r) := by
        rw [List.getElem?_append_left hk, List.getElem?_eq_getElem hk, hr]
      have hst : step (pre ++ .timesOut :: post) maxConcurrency halts (.running (List.range k)) k =
          some (.running (List.range (k + 1))) := by
        rw [step_returns List.not_mem_range_self (hbound k (Nat.le_of_succ_le hk)) hget, hsettle,
          ← List.range_succ]
      exact (ih (Nat.le_of_succ_le hk)).step nofun hst
  -- Then it is the first one in order, and its timeout ends the caller.
  have hst : step (pre ++ .timesOut :: post) maxConcurrency halts
      (.running (List.range pre.length)) pre.length = some (.exited pre.length) :=
    step_timesOut List.not_mem_range_self (hbound _ (Nat.le_refl _)) (by simp)
      fun j hj => List.mem_range.2 hj
  exact not_inevitably_of_exited _ ((hrun _ (Nat.le_refl _)).step nofun hst)

theorem contained_of_inevitably (hlen : outcomes.length ≤ maxConcurrency)
    (h : (machine outcomes maxConcurrency halts).Inevitably (· = .reduced)
      (machine outcomes maxConcurrency halts).init) : Contained halts outcomes := by
  have hraises := not_raises_of_inevitably hlen h
  refine ⟨hraises, ?_⟩
  -- The first task that exceeds the timeout comes after results only.
  have hfirst : ∀ pre post, outcomes = pre ++ .timesOut :: post → .timesOut ∉ pre →
      ∃ r, .returns r ∈ pre ∧ halts r := by
    rintro pre post rfl hpre
    refine not_timesOut_of_inevitably hlen h fun u hu => ?_
    rcases u with r | e | _
    · exact ⟨r, rfl⟩
    · exact absurd (List.mem_append_left _ hu) (hraises e)
    · exact absurd hu hpre
  intro pre post hsplit
  by_cases hpre : .timesOut ∈ pre
  · obtain ⟨pre', post', rfl, hpre'⟩ := List.eq_append_cons_of_mem hpre
    obtain ⟨r, hr, hh⟩ := hfirst pre' (post' ++ .timesOut :: post) (by simp [hsplit]) hpre'
    exact ⟨r, List.mem_append_left _ hr, hh⟩
  · exact hfirst pre post hsplit hpre

/-- The caller survives, in whatever order the tasks come to their outcomes, if and only
    if the failures of tasks are contained. -/
theorem inevitably_reduced_iff (hlen : outcomes.length ≤ maxConcurrency) :
    (machine outcomes maxConcurrency halts).Inevitably (· = .reduced)
      (machine outcomes maxConcurrency halts).init ↔ Contained halts outcomes :=
  ⟨contained_of_inevitably hlen, fun hc => inevitably_reduced_of_contained hc hlen⟩

end AsyncStream

end Lib

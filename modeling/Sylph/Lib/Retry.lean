import Mathlib.Algebra.Order.Ring.Int
import Mathlib.Algebra.Order.Ring.Nat
import Mathlib.Data.List.Basic

/-!
# Retries

A failed attempt is made again after a delay, so many times.

* `doubling`: the delays that double up to a bound.
* `Policy.next`: what follows an attempt after some failures in a row: success, a retry
  after a delay, or nothing any more.
* `Log`: the logs of the attempts made under a policy, with the phase they end in. An
  attempt continues the log (`Log.attempt`).
* Of every log: the attempts are at most one more than the retries (`Log.length_le`), a
  success is the last one (`Log.last_iff`), and the delays of the failed ones are those of the
  policy, in order (`Log.wait_of_failed`, `Log.wait_of_failedInARow`).
* `Policy.attempts`: the attempts made, as they would turn out. They make a log, with the result
  of the first success, or of the last attempt (`Policy.result_eq_ok_iff`).

Assumed of the platform, and of packages like `retry`:

* *order*: the first attempt is made at once, and each other one after the delay that follows the
  failure before it (`attempts`);
* *end*: when the delays are used up, the last failure is the result (`result`);
* *delays*: a delay that is asked for is over at some time, once. How long it takes in fact is not
  in the model.

What counts as a failure is for the user to say, by the `Except` of an attempt.
-/

namespace Lib.Retry

/-- The delay that starts at `base` and doubles, up to `bound`. -/
def doubling (base bound n : ℕ) : ℕ := min (base * 2 ^ n) bound

theorem doubling_zero {base bound : ℕ} (h : base ≤ bound) : doubling base bound 0 = base := by
  rw [doubling, pow_zero, mul_one, min_eq_left h]

/-- Doubling a delay, up to the bound, gives the next one. -/
theorem min_doubling_mul (base bound n : ℕ) :
    min (doubling base bound n * 2) bound = doubling base bound (n + 1) := by
  rw [doubling, doubling, pow_succ, ← mul_assoc]
  generalize base * 2 ^ n = d
  omega

/-- A policy: the number of retries, and the delays they wait, in order. -/
structure Policy where
  retries : ℕ
  delay : ℕ → ℕ

/-- Where a sequence of attempts stands. -/
inductive Phase (α : Type*)
  /-- The next attempt is to be made, after so many failures. -/
  | trying (failures : ℕ)
  | succeeded (a : α)
  | gaveUp

/-- An attempt that was made, and the delay of the next one, if there is to be one. -/
structure Attempt (ε α : Type*) where
  result : Except ε α
  wait : Option ℕ

variable {ε α : Type*}

/-- What follows an attempt made after `n` failures, by its result. -/
def Policy.next (p : Policy) (n : ℕ) : Except ε α → Phase α × Option ℕ
  | .ok a => (.succeeded a, none)
  | .error _ => if n < p.retries then (.trying (n + 1), some (p.delay n)) else (.gaveUp, none)

/-- The three outcomes of an attempt. -/
theorem Policy.next_cases (p : Policy) (n : ℕ) (r : Except ε α) :
    (∃ a, r = .ok a ∧ p.next n r = (.succeeded a, none)) ∨
    (n < p.retries ∧ p.next n r = (.trying (n + 1), some (p.delay n))) ∨
    (¬n < p.retries ∧ p.next n r = (.gaveUp, none)) := by
  rcases r with e | a
  · rw [Policy.next]
    split
    · next hn => exact .inr (.inl ⟨hn, rfl⟩)
    · next hn => exact .inr (.inr ⟨hn, rfl⟩)
  · exact .inl ⟨a, rfl, rfl⟩

namespace Attempt

/-- The attempt failed. -/
def Failed (a : Attempt ε α) : Prop := ∃ e, a.result = .error e

theorem not_failed_ok {a : α} {w : Option ℕ} : ¬(⟨.ok a, w⟩ : Attempt ε α).Failed := by
  rintro ⟨e, h⟩
  cases h

end Attempt

/-- The attempt `a` of a log is the `k`-th failure in a row, since the start or a success. -/
def FailedInARow (l : List (Attempt ε α)) (k : ℕ) (a : Attempt ε α) : Prop :=
  ∃ before fails after, l = before ++ fails ++ a :: after ∧ (∀ b ∈ before.getLast?, ¬b.Failed) ∧
    (∀ b ∈ fails, b.Failed) ∧ a.Failed ∧ fails.length + 1 = k

/-- The elements of a list with one more. -/
private theorem getElem_concat {β : Type*} {l : List β} {a b : β} {i : ℕ}
    (h : (l ++ [b])[i]? = some a) : l[i]? = some a ∨ i = l.length ∧ a = b := by
  rcases Nat.lt_trichotomy i l.length with hlt | rfl | hgt
  · rw [List.getElem?_append_left hlt] at h
    exact .inl h
  · rw [List.getElem?_concat_length] at h
    exact .inr ⟨rfl, (Option.some_inj.1 h).symm⟩
  · rw [List.getElem?_eq_none (by rw [List.length_append]; exact hgt)] at h
    cases h

variable {p : Policy} {n i : ℕ} {l : List (Attempt ε α)} {a : Attempt ε α}

/-- The logs of `n` failures that are all followed by a retry. -/
inductive Failures (p : Policy) : ℕ → List (Attempt ε α) → Prop
  | nil : Failures p 0 []
  | snoc {n : ℕ} {l : List (Attempt ε α)} {e : ε} : Failures p n l → n < p.retries →
    Failures p (n + 1) (l ++ [⟨.error e, some (p.delay n)⟩])

/-- The logs of the attempts under a policy, with the phase they end in. -/
inductive Log (p : Policy) : Phase α → List (Attempt ε α) → Prop
  | trying {n : ℕ} {l : List (Attempt ε α)} : Failures p n l → Log p (.trying n) l
  | succeeded {n : ℕ} {l : List (Attempt ε α)} {a : α} : Failures p n l →
    Log p (.succeeded a) (l ++ [⟨.ok a, none⟩])
  | gaveUp {l : List (Attempt ε α)} {e : ε} : Failures p p.retries l →
    Log p .gaveUp (l ++ [⟨.error e, none⟩])

namespace Failures

theorem le (h : Failures p n l) : n ≤ p.retries := by
  rcases h with _ | ⟨-, hn⟩
  · exact Nat.zero_le _
  · exact hn

theorem length_eq (h : Failures p n l) : l.length = n := by
  induction h with
  | nil => rfl
  | snoc _ _ ih => rw [List.length_append, ih, List.length_singleton]

theorem lt (h : Failures p n l) (hi : l[i]? = some a) : i < p.retries := by
  obtain ⟨hl, -⟩ := List.getElem?_eq_some_iff.1 hi
  exact Nat.lt_of_lt_of_le hl (h.length_eq ▸ h.le)

/-- Each of the failures is followed by the delay of its retry. -/
theorem getElem (h : Failures p n l) (hi : l[i]? = some a) :
    a.Failed ∧ a.wait = some (p.delay i) := by
  induction h with
  | nil => cases hi
  | @snoc n l e h _ ih =>
    rcases getElem_concat hi with hi | ⟨rfl, rfl⟩
    · exact ih hi
    · exact ⟨⟨e, rfl⟩, by rw [h.length_eq]⟩

end Failures

namespace Log

variable {phase : Phase α}

theorem start : Log p (.trying 0) ([] : List (Attempt ε α)) := .trying .nil

theorem le (h : Log p (.trying n : Phase α) l) : n ≤ p.retries := by
  rcases h with h | - | -
  exact h.le

/-- The next attempt continues the log. -/
theorem attempt (h : Log p (.trying n) l) (r : Except ε α) :
    Log p (p.next n r).1 (l ++ [⟨r, (p.next n r).2⟩]) := by
  rcases h with h | - | -
  rcases r with e | a
  · rw [Policy.next]
    split
    · next hn => exact .trying (h.snoc hn)
    · next hn =>
      obtain rfl := Nat.le_antisymm h.le (Nat.le_of_not_lt hn)
      exact .gaveUp h
  · exact .succeeded h

/-- The attempts are at most one more than the retries. -/
theorem length_le (h : Log p phase l) : l.length ≤ p.retries + 1 := by
  rcases h with h | h | h
  · rw [h.length_eq]
    exact Nat.le_succ_of_le h.le
  · rw [List.length_append, h.length_eq, List.length_singleton]
    exact Nat.succ_le_succ h.le
  · rw [List.length_append, h.length_eq, List.length_singleton]

/-- A failed attempt is followed by the delay of its retry, as long as one is left. -/
theorem wait_of_failed (h : Log p phase l) (hi : l[i]? = some a) (ha : a.Failed) :
    a.wait = if i < p.retries then some (p.delay i) else none := by
  rcases h with h | h | h
  · rw [if_pos (h.lt hi), (h.getElem hi).2]
  · rcases getElem_concat hi with hi | ⟨-, rfl⟩
    · rw [if_pos (h.lt hi), (h.getElem hi).2]
    · exact absurd ha Attempt.not_failed_ok
  · rcases getElem_concat hi with hi | ⟨rfl, rfl⟩
    · rw [if_pos (h.lt hi), (h.getElem hi).2]
    · rw [h.length_eq, if_neg (Nat.lt_irrefl _)]

/-- All attempts but the last one failed. -/
theorem failed_of_lt (h : Log p phase l) (hi : l[i]? = some a) (hl : i + 1 < l.length) :
    a.Failed := by
  rcases h with h | h | h
  · exact (h.getElem hi).1
  all_goals
    rcases getElem_concat hi with hi | ⟨rfl, -⟩
    · exact (h.getElem hi).1
    · rw [List.length_append, List.length_singleton] at hl
      exact absurd hl (Nat.lt_irrefl _)

/-- The last attempt succeeded just if that is how the log ends. -/
theorem last_iff (h : Log p phase l) {b : α} :
    (∃ a, l.getLast? = some a ∧ a.result = .ok b) ↔ phase = .succeeded b := by
  rcases h with h | h | h
  · refine iff_of_false ?_ (by simp)
    rintro ⟨a, hl, hr⟩
    obtain ⟨⟨e, he⟩, -⟩ := h.getElem (List.getLast?_eq_getElem? ▸ hl)
    rw [hr] at he
    cases he
  · simp [eq_comm]
  · simp

/-- Only the log of no attempt is empty. -/
theorem eq_nil_iff (h : Log p phase l) : l = [] ↔ phase = .trying 0 := by
  rcases h with h | h | h
  · rw [← List.length_eq_zero_iff, h.length_eq, Phase.trying.injEq]
  · simp
  · simp

/-- The delays of the failures in a row are those of the policy, as long as a retry is left. -/
theorem wait_of_failedInARow {k : ℕ} (h : Log p phase l) (ha : FailedInARow l k a) :
    a.wait = if k ≤ p.retries then some (p.delay (k - 1)) else none := by
  obtain ⟨before, fails, after, rfl, hb, -, ha, rfl⟩ := ha
  rcases List.eq_nil_or_concat before with rfl | ⟨before, b, rfl⟩
  · exact h.wait_of_failed (by simp) ha
  · -- A success is not followed by anything.
    refine absurd (h.failed_of_lt (i := before.length) (a := b) (by simp) ?_) (hb b (by simp))
    simp

end Log

/-! ## A run -/

/-- The attempts that are made, from the `n`-th one on, with some delays left, where `block` says
    how each would turn out. -/
def attempts (block : ℕ → Except ε α) (n : ℕ) : List ℕ → List (Attempt ε α)
  | [] => [⟨block n, none⟩]
  | delay :: delays =>
    match block n with
    | .ok a => [⟨.ok a, none⟩]
    | .error e => ⟨.error e, some delay⟩ :: attempts block (n + 1) delays

/-- The result of the last of them. -/
def result (block : ℕ → Except ε α) (n : ℕ) : List ℕ → Except ε α
  | [] => block n
  | _ :: delays =>
    match block n with
    | .ok a => .ok a
    | .error _ => result block (n + 1) delays

/-- The delays of a policy. -/
def Policy.delays (p : Policy) : List ℕ := (List.range' 0 p.retries).map p.delay

/-- The attempts that a policy makes. -/
def Policy.attempts (p : Policy) (block : ℕ → Except ε α) : List (Attempt ε α) :=
  Retry.attempts block 0 p.delays

/-- What they come to. -/
def Policy.result (p : Policy) (block : ℕ → Except ε α) : Except ε α :=
  Retry.result block 0 p.delays

section

variable {block : ℕ → Except ε α} {delays : List ℕ} {e : ε} {b : α}

/-- The last attempt has the result. -/
theorem exists_attempts_eq (block : ℕ → Except ε α) (n : ℕ) (delays : List ℕ) :
    ∃ l a, attempts block n delays = l ++ [a] ∧ a.result = result block n delays := by
  induction delays generalizing n with
  | nil => exact ⟨[], _, rfl, rfl⟩
  | cons delay delays ih =>
    rw [attempts, result]
    rcases block n with e | a
    · obtain ⟨l, a, hl, ha⟩ := ih (n + 1)
      exact ⟨⟨.error e, some delay⟩ :: l, a, by rw [hl]; rfl, ha⟩
    · exact ⟨[], _, rfl, rfl⟩

/-- The result is the first success, ... -/
theorem result_eq_ok_iff (n : ℕ) : result block n delays = .ok b ↔
    ∃ k ≤ delays.length, (∀ j < k, ∃ e, block (n + j) = .error e) ∧ block (n + k) = .ok b := by
  induction delays generalizing n with
  | nil => simp [result]
  | cons delay delays ih =>
    rw [result]
    rcases hn : block n with e | a
    · -- The others are numbered from the next one.
      have hnext : ∀ j, n + 1 + j = n + (j + 1) := fun j => by omega
      simp only [ih (n + 1), hnext]
      constructor
      · rintro ⟨k, hk, hf, hs⟩
        refine ⟨k + 1, Nat.succ_le_succ hk, fun j hj => ?_, hs⟩
        rcases j with _ | j
        · exact ⟨e, hn⟩
        · exact hf j (Nat.lt_of_succ_lt_succ hj)
      · rintro ⟨_ | k, hk, hf, hs⟩
        · rw [Nat.add_zero, hn] at hs
          cases hs
        · exact ⟨k, Nat.le_of_succ_le_succ hk, fun j hj => hf (j + 1) (Nat.succ_lt_succ hj), hs⟩
    · constructor
      · intro h
        exact ⟨0, Nat.zero_le _, fun j hj => absurd hj (Nat.not_lt_zero j), hn.trans h⟩
      · rintro ⟨_ | k, -, hf, hs⟩
        · exact hn.symm.trans hs
        · obtain ⟨e, he⟩ := hf 0 (Nat.succ_pos k)
          rw [Nat.add_zero, hn] at he
          cases he

/-- ... or, if there is none, that of the last attempt. -/
theorem result_eq_error_iff (n : ℕ) : result block n delays = .error e ↔
    (∀ j < delays.length, ∃ e, block (n + j) = .error e) ∧
      block (n + delays.length) = .error e := by
  induction delays generalizing n with
  | nil => simp [result]
  | cons delay delays ih =>
    rw [result]
    rcases hn : block n with e' | a
    · have hnext : ∀ j, n + 1 + j = n + (j + 1) := fun j => by omega
      simp only [ih (n + 1), hnext, List.length_cons]
      refine and_congr_left fun _ => ⟨fun hf j hj => ?_, fun hf j hj => ?_⟩
      · rcases j with _ | j
        · exact ⟨e', hn⟩
        · exact hf j (Nat.lt_of_succ_lt_succ hj)
      · exact hf (j + 1) (Nat.succ_lt_succ hj)
    · refine iff_of_false (fun h => by cases h) fun h => ?_
      obtain ⟨e', he⟩ := h.1 0 (Nat.succ_pos _)
      rw [Nat.add_zero, hn] at he
      cases he

/-- After some failures, the rest of the attempts complete the log. -/
theorem Failures.attempts (h : Failures p n l) (block : ℕ → Except ε α) {k : ℕ}
    (hk : n + k = p.retries) : ∃ phase,
      Log p phase (l ++ Retry.attempts block n ((List.range' n k).map p.delay)) := by
  induction k generalizing n l with
  | zero =>
    obtain rfl : n = p.retries := hk
    rcases hb : block p.retries with e | a
    · refine ⟨.gaveUp, ?_⟩
      simp only [List.range'_zero, List.map_nil, Retry.attempts, hb]
      exact .gaveUp h
    · refine ⟨.succeeded a, ?_⟩
      simp only [List.range'_zero, List.map_nil, Retry.attempts, hb]
      exact .succeeded h
  | succ k ih =>
    rw [List.range'_succ, List.map_cons, Retry.attempts]
    rcases block n with e | a
    · obtain ⟨phase, hlog⟩ := ih (h.snoc (e := e) (by omega)) (by omega)
      rw [List.append_assoc] at hlog
      exact ⟨phase, hlog⟩
    · exact ⟨.succeeded a, .succeeded h⟩

theorem Policy.log_attempts (p : Policy) (block : ℕ → Except ε α) :
    ∃ phase, Log p phase (p.attempts block) :=
  Failures.attempts .nil block (Nat.zero_add p.retries)

theorem Policy.length_delays (p : Policy) : p.delays.length = p.retries := by
  simp [Policy.delays]

theorem Policy.result_eq_ok_iff : p.result block = .ok b ↔
    ∃ k ≤ p.retries, (∀ j < k, ∃ e, block j = .error e) ∧ block k = .ok b := by
  rw [Policy.result, Retry.result_eq_ok_iff, p.length_delays]
  simp only [Nat.zero_add]

theorem Policy.result_eq_error_iff : p.result block = .error e ↔
    (∀ j < p.retries, ∃ e, block j = .error e) ∧ block p.retries = .error e := by
  rw [Policy.result, Retry.result_eq_error_iff, p.length_delays]
  simp only [Nat.zero_add]

end

end Lib.Retry

import Mathlib.Data.List.Chain

/-!
# Limiters

Of some times in a row, those that are let through.

* `limit`: those that are far enough from the last one let through, and so from one
  another (`isChain_limit`).
* A limiter that forgets what it lets through measures from the start for ever: it lets
  through `ts.filter (R start)`. These are the times of `limit` if and only if they are
  far enough from one another (`limit_eq_filter_iff`).
-/

namespace Lib.Limiter

variable {τ : Type*} (R : τ → τ → Prop) [DecidableRel R] {last : τ} {ts : List τ}

/-- The times that are far enough (`R`) from the last one let through. -/
def limit (last : τ) : List τ → List τ
  | [] => []
  | t :: ts => if R last t then t :: limit t ts else limit last ts

/-- The times let through are far enough from one another. -/
theorem isChain_limit (last : τ) (ts : List τ) : (last :: limit R last ts).IsChain R := by
  induction ts generalizing last with
  | nil => exact .singleton last
  | cons t ts ih =>
    rw [limit]
    split
    next h => exact .cons_cons h (ih t)
    next => exact ih last

variable {R}

/-- The times far enough from the start are let through if they are far enough from one
    another, and from the last one let through. -/
theorem limit_eq_filter [IsTrans τ R] {start : τ} (hl : last = start ∨ R start last)
    (h : (last :: ts.filter (R start)).IsChain R) : limit R last ts = ts.filter (R start) := by
  induction ts generalizing last with
  | nil => rfl
  | cons t ts ih =>
    rw [limit]
    by_cases ht : R start t
    · rw [List.filter_cons_of_pos (by simpa using ht)] at h ⊢
      obtain ⟨hlt, hts⟩ := List.isChain_cons_cons.1 h
      rw [if_pos hlt, ih (.inr ht) hts]
    · -- What is not far enough from the start is not far enough from any later time.
      have hlt : ¬R last t := fun hlt => hl.elim (fun hl => ht (hl ▸ hlt)) fun hl =>
        ht (IsTrans.trans _ _ _ hl hlt)
      rw [List.filter_cons_of_neg (by simpa using ht)] at h ⊢
      rw [if_neg hlt, ih hl h]

/-- A limiter that measures from the start lets the same times through if and only if those
    it lets through are far enough from one another. -/
theorem limit_eq_filter_iff [IsTrans τ R] {start : τ} :
    limit R start ts = ts.filter (R start) ↔ (ts.filter (R start)).IsChain R := by
  constructor
  · intro h
    exact h ▸ (isChain_limit R start ts).tail
  · intro h
    refine limit_eq_filter (.inl rfl) (List.isChain_cons.2 ⟨fun t ht => ?_, h⟩)
    exact of_decide_eq_true (List.mem_filter.1 (List.mem_of_mem_head? ht)).2

end Lib.Limiter

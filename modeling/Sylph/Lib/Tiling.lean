import Mathlib.Algebra.Order.SuccPred
import Mathlib.Data.Int.SuccPred
import Mathlib.Data.List.Basic

/-!
# Tilings

Closed intervals, one right after the other (`Tiles a rs b`): the first begins at `a`, each
next one at the successor of the end of the one before it, and `b` is the successor of the
end of the last. Such intervals lie between `a` and `b` (`Tiles.le_fst`, `Tiles.snd_lt`), and
each point from `a` on, before `b`, is in one of them, once (`Tiles.countP`).
-/

namespace Lib

variable {α : Type*} [LinearOrder α] [SuccOrder α]

/-- The intervals `rs`, none of them empty, follow on each other from `a` on, up to the
    point before `b`. -/
inductive Tiles : α → List (α × α) → α → Prop
  | nil (a : α) : Tiles a [] a
  | cons {a last b : α} {rs : List (α × α)} (hl : a ≤ last) (h : Tiles (Order.succ last) rs b) :
    Tiles a ((a, last) :: rs) b

namespace Tiles

variable {a b : α} {rs : List (α × α)}

theorem le (h : Tiles a rs b) : a ≤ b := by
  induction h with
  | nil => exact le_rfl
  | cons hl _ ih => exact hl.trans ((Order.le_succ _).trans ih)

theorem fst_le_snd (h : Tiles a rs b) : ∀ r ∈ rs, r.1 ≤ r.2 := by
  induction h with
  | nil => simp
  | cons hl _ ih => simpa [hl] using ih

theorem le_fst (h : Tiles a rs b) : ∀ r ∈ rs, a ≤ r.1 := by
  induction h with
  | nil => simp
  | cons hl _ ih =>
    refine List.forall_mem_cons.2 ⟨le_rfl, fun r hr => ?_⟩
    exact hl.trans ((Order.le_succ _).trans (ih r hr))

theorem ne_nil (h : Tiles a rs b) (hab : a < b) : rs ≠ [] := by
  rintro rfl
  cases h
  exact lt_irrefl _ hab

theorem head? (h : Tiles a rs b) (hab : a < b) : rs.head?.map Prod.fst = some a := by
  cases h with
  | nil => exact absurd hab (lt_irrefl _)
  | cons => rfl

theorem isChain (h : Tiles a rs b) : rs.IsChain fun r q => q.1 = Order.succ r.2 := by
  induction h with
  | nil => exact .nil
  | cons _ h ih =>
    cases h with
    | nil => exact .singleton _
    | cons => exact .cons_cons rfl ih

variable [NoMaxOrder α]

theorem snd_lt (h : Tiles a rs b) : ∀ r ∈ rs, r.2 < b := by
  induction h with
  | nil => simp
  | cons _ h ih => exact List.forall_mem_cons.2 ⟨Order.succ_le_iff.1 h.le, ih⟩

theorem getLast? (h : Tiles a rs b) (hab : a < b) :
    rs.getLast?.map (fun r => Order.succ r.2) = some b := by
  induction h with
  | nil => exact absurd hab (lt_irrefl _)
  | @cons a last b rs hl h ih =>
    rcases h.le.eq_or_lt with he | hlt
    · -- Nothing can follow on the last interval.
      cases h with
      | nil => rfl
      | cons hl' h' => exact absurd (he ▸ h'.le) (Order.lt_succ_of_le hl').not_ge
    · obtain ⟨q, qs, rfl⟩ := List.exists_cons_of_ne_nil (h.ne_nil hlt)
      rw [List.getLast?_cons_cons]
      exact ih hlt

/-- Each point is in one of the intervals, once, or not between the ends. -/
theorem countP (h : Tiles a rs b) (c : α) :
    rs.countP (fun r => r.1 ≤ c ∧ c ≤ r.2) = if a ≤ c ∧ c < b then 1 else 0 := by
  induction h with
  | nil a =>
    have hn : ¬(a ≤ c ∧ c < a) := fun h => h.2.not_ge h.1
    simp [hn]
  | @cons a last b rs hl h ih =>
    have hb : last < b := Order.succ_le_iff.1 h.le
    rw [List.countP_cons, ih]
    -- The point comes before the first interval, is in it, or comes after it.
    rcases lt_or_ge c a with hc | hc
    · have hs : ¬Order.succ last ≤ c := fun hs => (Order.succ_le_iff.1 hs).not_ge (hc.le.trans hl)
      simp [hc.not_ge, hs]
    · rcases le_or_gt c last with hc' | hc'
      · have hs : ¬Order.succ last ≤ c := fun hs => (Order.succ_le_iff.1 hs).not_ge hc'
        simp [hc, hc', hs, hc'.trans_lt hb]
      · simp [hc, hc'.not_ge, Order.succ_le_iff.2 hc']

theorem exists_mem (h : Tiles a rs b) {c : α} (hc : a ≤ c ∧ c < b) :
    ∃ r ∈ rs, r.1 ≤ c ∧ c ≤ r.2 := by
  have hp : 0 < rs.countP fun r => r.1 ≤ c ∧ c ≤ r.2 := by
    rw [h.countP, if_pos hc]
    exact Nat.one_pos
  obtain ⟨r, hr, hd⟩ := List.countP_pos_iff.1 hp
  exact ⟨r, hr, of_decide_eq_true hd⟩

end Tiles

end Lib

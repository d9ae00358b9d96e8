import Mathlib.Algebra.BigOperators.Group.List.Basic
import Mathlib.Algebra.Order.Ring.Int
import Mathlib.Data.List.Dedup
import Mathlib.Data.List.Induction
import Sylph.Lib.Dict

/-!
# Windows and tallies

What is kept of a sequence whose elements arrive one after the other, in bounded space.

* A *window*: its last elements, the last one first (`foldl_push`).
* A *tally*: how often each element has occurred. The number of its entries is that of
  the different elements (`size_tally`), and the sum of their values the length of the
  sequence (`sum_values_tally`).
-/

namespace Lib

variable {α : Type*}

/-! ## Windows -/

/-- A new element, and `n` of those before it. -/
def push (n : ℕ) (window : List α) (a : α) : List α := a :: window.take n

/-- The window on a sequence: its last `n + 1` elements. -/
theorem foldl_push (n : ℕ) (l : List α) : l.foldl (push n) [] = l.reverse.take (n + 1) := by
  induction l using List.reverseRecOn with
  | nil => rfl
  | append_singleton l a ih =>
    rw [List.foldl_append, ih, List.foldl_cons, List.foldl_nil, push, List.take_take,
      Nat.min_eq_left (Nat.le_succ n), List.reverse_append, List.reverse_singleton,
      List.singleton_append, List.take_succ_cons]

/-! ## Tallies -/

namespace Dict

variable [DecidableEq α]

/-- One more occurrence of an element. -/
def count (d : Dict α ℕ) (a : α) : Dict α ℕ := d.insert a ((d.lookup a).getD 0 + 1)

/-- The tally of a sequence. -/
def tally (l : List α) : Dict α ℕ := l.foldl count ∅

theorem tally_concat (l : List α) (a : α) : tally (l ++ [a]) = count (tally l) a := by
  rw [tally, List.foldl_append]
  rfl

theorem mem_tally {l : List α} {a : α} : a ∈ tally l ↔ a ∈ l := by
  induction l using List.reverseRecOn with
  | nil => exact iff_of_false (AList.notMem_empty a) List.not_mem_nil
  | append_singleton l b ih =>
    rw [tally_concat, count, AList.mem_insert, List.mem_append, List.mem_singleton, ih, or_comm]

/-- The entries of a tally: one for each of the different elements. -/
theorem size_tally (l : List α) : size (tally l) = l.dedup.length := by
  have hperm : (tally l).keys.Perm l.dedup :=
    (List.perm_ext_iff_of_nodup (AList.keys_nodup _) (List.nodup_dedup l)).2 fun a =>
      (mem_tally (l := l)).trans List.mem_dedup.symm
  rw [← length_keys, hperm.length_eq]

/-- An occurrence counts once. -/
theorem sum_values_count (d : Dict α ℕ) (a : α) :
    (values (count d a)).sum = (values d).sum + 1 := by
  have hc : ∀ b, (values (d.insert a b)).sum = b + (values (d.erase a)).sum := fun b => by
    rw [values, AList.entries_insert, List.map_cons, List.sum_cons]
    rfl
  rw [count, hc]
  rcases h : d.lookup a with _ | n
  · rw [erase_of_lookup_none h, Option.getD_none]
    omega
  · rw [(values_perm_of_lookup h).sum_eq, List.sum_cons, Option.getD_some]
    omega

/-- The values of a tally add up to the length of the sequence. -/
theorem sum_values_tally (l : List α) : (values (tally l)).sum = l.length := by
  induction l using List.reverseRecOn with
  | nil => rfl
  | append_singleton l a ih =>
    rw [tally_concat, sum_values_count, ih, List.length_append, List.length_singleton]

end Dict

end Lib

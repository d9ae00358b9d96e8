import Mathlib.Data.List.Chain
import Mathlib.Data.List.Nodup

/-!
# Edges

A set that is seen again and again, as a list without repetitions, and what is told of it
each time: which elements are new and which are gone, by the differences between two
lists that follow one another (`edges`).

* `InTurns`: what has been told of an element goes up and down in turns, up first, and
  up last if and only if the element is in the list seen last.
* `inTurns_edges`: one more list keeps this, if neither it nor the one before it has
  repetitions.
-/

namespace Lib

variable {α : Type*} [DecidableEq α] {old new : List α} {a : α}

/-- What is told when `new` is seen after `old`: the elements that come (`true`), and
    those that go (`false`). -/
def edges (old new : List α) : List (Bool × α) :=
  (new.diff old).map (Prod.mk true) ++ (old.diff new).map (Prod.mk false)

/-- What has been told of an element. -/
def edgesOf (a : α) (told : List (Bool × α)) : List Bool :=
  (told.filter fun e => e.2 = a).map Prod.fst

theorem edgesOf_append (a : α) (told told' : List (Bool × α)) :
    edgesOf a (told ++ told') = edgesOf a told ++ edgesOf a told' := by
  rw [edgesOf, List.filter_append, List.map_append, edgesOf, edgesOf]

/-- Of a list without repetitions, an element is told once if it is in it. -/
theorem edgesOf_map_mk (b : Bool) {l : List α} (hl : l.Nodup) :
    edgesOf a (l.map (Prod.mk b)) = if a ∈ l then [b] else [] := by
  have hf : (fun x => decide ((Prod.mk b x).2 = a)) = (· == a) := rfl
  rw [edgesOf, List.filter_map, Function.comp_def, hf, List.filter_beq, List.map_map,
    List.map_replicate]
  split
  next h => rw [List.count_eq_one_of_mem hl h]; rfl
  next h => rw [List.count_eq_zero_of_not_mem h]; rfl

/-- What is told of an element when a list is seen after another. -/
theorem edgesOf_edges (ho : old.Nodup) (hn : new.Nodup) (a : α) :
    edgesOf a (edges old new) =
      (if a ∈ new ∧ a ∉ old then [true] else []) ++ if a ∈ old ∧ a ∉ new then [false] else [] := by
  rw [edges, edgesOf_append, edgesOf_map_mk true hn.diff, edgesOf_map_mk false ho.diff]
  simp only [hn.mem_sdiff_iff, ho.mem_sdiff_iff]

/-- What has been told of an element: up and down in turns, up first, and up last if and
    only if it is there. -/
structure InTurns (told : List Bool) (isThere : Prop) : Prop where
  first : ∀ b ∈ told.head?, b = true
  alternates : told.IsChain (· ≠ ·)
  last : isThere ↔ told.getLast? = some true

theorem inTurns_nil {p : Prop} (hp : ¬p) : InTurns [] p where
  first := fun _ h => by cases h
  alternates := .nil
  last := iff_of_false hp fun h => by cases h

/-- An element comes that is not there, or goes that is. -/
theorem InTurns.concat {told : List Bool} {p p' : Prop} (h : InTurns told p) {b : Bool}
    (hb : b = true ↔ ¬p) (hp' : p' ↔ b = true) : InTurns (told ++ [b]) p' := by
  refine ⟨fun c hc => ?_, ?_, ?_⟩
  · rcases told with _ | ⟨d, told⟩
    · -- What has been told last is not that the element is there: it comes.
      obtain rfl : b = c := Option.some_inj.1 hc
      exact hb.2 fun hp => by cases h.last.1 hp
    · exact h.first c hc
  · refine List.isChain_append.2 ⟨h.alternates, .singleton b, fun c hc d hd => ?_⟩
    obtain rfl : b = d := Option.some_inj.1 hd
    rintro rfl
    cases c with
    | true => exact hb.1 rfl (h.last.2 hc)
    | false =>
      have hp : ¬p := fun hp => by
        have := hc.symm.trans (h.last.1 hp)
        cases this
      cases hb.2 hp
  · rw [List.getLast?_concat, Option.some_inj]
    exact hp'

/-- One more list keeps this. -/
theorem inTurns_edges {told : List (Bool × α)} (h : InTurns (edgesOf a told) (a ∈ old))
    (ho : old.Nodup) (hn : new.Nodup) :
    InTurns (edgesOf a (told ++ edges old new)) (a ∈ new) := by
  rw [edgesOf_append, edgesOf_edges ho hn]
  by_cases hold : a ∈ old <;> by_cases hnew : a ∈ new
  · -- It stays: nothing is told.
    rw [if_neg fun h => h.2 hold, if_neg fun h => h.2 hnew, List.append_nil,
      List.append_nil]
    exact ⟨h.first, h.alternates, (iff_of_true hnew hold).trans h.last⟩
  · rw [if_neg fun h => hnew h.1, if_pos ⟨hold, hnew⟩, List.nil_append]
    exact h.concat (iff_of_false Bool.false_ne_true fun h => h hold)
      (iff_of_false hnew Bool.false_ne_true)
  · rw [if_pos ⟨hnew, hold⟩, if_neg fun h => hold h.1, List.append_nil]
    exact h.concat (iff_of_true rfl hold) (iff_of_true hnew rfl)
  · rw [if_neg fun h => hnew h.1, if_neg fun h => hold h.1, List.append_nil, List.append_nil]
    exact ⟨h.first, h.alternates, (iff_of_false hnew hold).trans h.last⟩

end Lib

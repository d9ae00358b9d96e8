import Mathlib.Data.List.Nodup
import Mathlib.Data.Nat.Find
import Mathlib.Data.Nat.ModEq

/-!
# Circles

The numbers below `n` as places in a circle, gone through from some place on (`place`,
`places`).

* The first `n` places are all different (`nodup_places`), and every place is among them
  (`exists_place`).
* `FirstAt`: the first place with a property. There is one if some place has the property
  (`exists_firstAt`), and a search finds it if it goes far enough (`find?_range_eq_some`).
-/

namespace Lib.Circle

variable {n i d e k m : ℕ} {p : ℕ → Prop}

/-- The place `d` steps after the one of `i`. -/
def place (n i d : ℕ) : ℕ := (i + d) % n

/-- The first `m` places from the one of `i` on. -/
def places (n i m : ℕ) : List ℕ := (List.range m).map (place n i)

theorem place_lt (hn : 0 < n) : place n i d < n := Nat.mod_lt _ hn

/-- The next place. -/
theorem place_succ : (place n i d + 1) % n = place n i (d + 1) := by
  rw [place, place, Nat.mod_add_mod, Nat.add_assoc]

theorem place_zero (h : i < n) : place n i 0 = i := Nat.mod_eq_of_lt h

theorem places_succ : places n i (m + 1) = places n i m ++ [place n i m] := by
  rw [places, places, List.range_succ, List.map_append, List.map_singleton]

theorem length_places : (places n i m).length = m := by
  rw [places, List.length_map, List.length_range]

/-- One round does not come back to a place. -/
theorem place_inj (hd : d < n) (he : e < n) (h : place n i d = place n i e) : d = e :=
  Nat.ModEq.eq_of_lt_of_lt (Nat.ModEq.add_left_cancel' i h) hd he

theorem nodup_places (h : m ≤ n) : (places n i m).Nodup := by
  refine List.Nodup.map_on (fun d hd e he hde => ?_) List.nodup_range
  exact place_inj (Nat.lt_of_lt_of_le (List.mem_range.1 hd) h)
    (Nat.lt_of_lt_of_le (List.mem_range.1 he) h) hde

theorem places_prefix (h : m ≤ k) : places n i m <+: places n i k := by
  have hm : (List.range k).take m = List.range m := by rw [List.take_range, Nat.min_eq_left h]
  rw [places, ← hm]
  exact (List.take_prefix m _).map _

/-- One round comes to every place. -/
theorem exists_place (hk : k < n) (i : ℕ) : ∃ d < n, place n i d = k := by
  have hi : i % n ≤ n := Nat.le_of_lt (Nat.mod_lt _ (Nat.zero_lt_of_lt hk))
  refine ⟨(k + (n - i % n)) % n, Nat.mod_lt _ (Nat.zero_lt_of_lt hk), ?_⟩
  have hsum : i % n + (k + (n - i % n)) = k + n := by omega
  rw [place, Nat.add_mod_mod, ← Nat.mod_add_mod, hsum, Nat.add_mod_right, Nat.mod_eq_of_lt hk]

/-! ## The first place with a property -/

/-- The first place with the property `p` is `d` steps after the one of `i`. -/
structure FirstAt (p : ℕ → Prop) (n i d : ℕ) : Prop where
  prop : p (place n i d)
  before : ∀ e < d, ¬p (place n i e)

theorem FirstAt.unique (h : FirstAt p n i d) (h' : FirstAt p n i e) : d = e := by
  rcases Nat.lt_trichotomy d e with hlt | heq | hlt
  · exact absurd h.prop (h'.before d hlt)
  · exact heq
  · exact absurd h'.prop (h.before e hlt)

/-- If a place has the property, the first one is found within a round. -/
theorem exists_firstAt (hk : k < n) (hp : p k) (i : ℕ) : ∃ d < n, FirstAt p n i d := by
  classical
  obtain ⟨e, he, rfl⟩ := exists_place hk i
  have hex : ∃ d, p (place n i d) := ⟨e, hp⟩
  exact ⟨Nat.find hex, Nat.lt_of_le_of_lt (Nat.find_min' hex hp) he,
    Nat.find_spec hex, fun _ hd => Nat.find_min hex hd⟩

theorem FirstAt.lt (h : FirstAt p n i d) (hn : 0 < n) : d < n := by
  obtain ⟨e, he, hf⟩ := exists_firstAt (place_lt hn) h.prop i
  exact h.unique hf ▸ he

/-- A search through the first `m` places finds the first one, if it gets there. -/
theorem find?_range_eq_some [DecidablePred p] :
    (List.range m).find? (fun d => p (place n i d)) = some d ↔ FirstAt p n i d ∧ d < m := by
  rw [List.find?_range_eq_some]
  simp only [decide_eq_true_eq, List.mem_range, Bool.not_eq_true', decide_eq_false_iff_not]
  exact ⟨fun ⟨hp, hm, hb⟩ => ⟨⟨hp, hb⟩, hm⟩, fun ⟨h, hm⟩ => ⟨h.prop, hm, h.before⟩⟩

end Lib.Circle

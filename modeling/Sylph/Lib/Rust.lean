import Mathlib.Algebra.Order.Ring.Int

/-!
# Rust

What the translated functions use of the language. A function that may panic has its
result in `Except Panic`.

* `index`: the expression `l[i]`, which panics if there is no element at `i`.
* `sub`: the difference of two numbers, which panics on overflow or wraps around, as the
  program is built (`Profile`).
-/

namespace Lib.Rust

/-- The panics of the translated code. -/
inductive Panic
  /-- `index out of bounds: the len is {length} but the index is {index}` -/
  | indexOutOfBounds (length index : ℕ)

variable {α : Type}

/-- `l[i]` -/
def index (l : List α) (i : ℕ) : Except Panic α :=
  match l[i]? with
  | some a => .ok a
  | none => .error (.indexOutOfBounds l.length i)

theorem index_eq_ok {l : List α} {i : ℕ} {a : α} : index l i = .ok a ↔ l[i]? = some a := by
  rw [index]
  split
  · rename_i b hb
    rw [hb]
    exact ⟨fun h => congrArg some (Except.ok.inj h), fun h => congrArg _ (Option.some_inj.1 h)⟩
  · rename_i hn
    rw [hn]
    exact ⟨fun h => absurd h nofun, fun h => absurd h nofun⟩

theorem exists_index_iff {l : List α} {i : ℕ} : (∃ a, index l i = .ok a) ↔ i < l.length := by
  constructor
  · rintro ⟨a, h⟩
    obtain ⟨hi, -⟩ := List.getElem?_eq_some_iff.1 (index_eq_ok.1 h)
    exact hi
  · intro h
    exact ⟨l[i], index_eq_ok.2 (List.getElem?_eq_getElem h)⟩

theorem mem_of_index {l : List α} {i : ℕ} {a : α} (h : index l i = .ok a) : a ∈ l :=
  List.mem_of_getElem? (index_eq_ok.1 h)

/-! ## Arithmetic -/

/-- How a program is built. -/
inductive Profile
  /-- An overflow panics. -/
  | debug
  /-- An overflow wraps around. -/
  | release

/-- The difference is a number of 64 bits. -/
def SubFits (a b : Int64) : Prop := -2 ^ 63 ≤ a.toInt - b.toInt ∧ a.toInt - b.toInt < 2 ^ 63

instance (a b : Int64) : Decidable (SubFits a b) := inferInstanceAs (Decidable (_ ∧ _))

/-- `a - b`, unless it panics. -/
def sub (profile : Profile) (a b : Int64) : Option Int64 :=
  match profile with
  | .debug => if SubFits a b then some (a - b) else none
  | .release => some (a - b)

theorem sub_of_fits {a b : Int64} (h : SubFits a b) (profile : Profile) :
    ∃ d, sub profile a b = some d ∧ d.toInt = a.toInt - b.toInt := by
  refine ⟨a - b, ?_, ?_⟩
  · rcases profile with _ | _
    · exact if_pos h
    · rfl
  · rw [Int64.toInt_sub]
    exact Int.bmod_eq_of_le h.1 h.2

end Lib.Rust

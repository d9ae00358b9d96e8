import Mathlib.Algebra.Order.Ring.Int
import Mathlib.Data.List.Basic

/-!
# Numbers in records

What a number is written as in a record, and when it can be read back.

* A text stands for a number (`Decimal.Denotes`) if it is made of the decimal digits of it. What
  `toString` makes of a number stands for it (`Decimal.denotes_toString`).
* A signed integer of 64 bits is the number it is made of, if that is less than `2 ^ 63`
  (`toInt_ofNat_iff`, `toInt_toInt64_iff`).
-/

namespace Lib

namespace Decimal

/-- The text stands for the number. -/
structure Denotes (text : String) (n : ℕ) : Prop where
  ne_nil : text.toList ≠ []
  digits : ∀ c ∈ text.toList, c.isDigit
  value : Nat.ofDigitChars 10 text.toList 0 = n

theorem denotes_toString (n : ℕ) : Denotes (toString n) n where
  ne_nil := by
    rw [Nat.toString_eq_repr, Nat.toList_repr]
    exact Nat.toDigits_ne_nil
  digits c hc := by
    rw [Nat.toString_eq_repr, Nat.toList_repr] at hc
    exact Nat.isDigit_of_mem_toDigits (by decide) (by decide) hc
  value := by
    rw [Nat.toString_eq_repr, Nat.toList_repr]
    exact Nat.ofDigitChars_ten_toDigits

end Decimal

theorem toInt_ofNat_iff {x : ℕ} : (Int64.ofNat x).toInt = x ↔ x < 2 ^ 63 := by
  constructor
  · intro h
    have := (Int64.ofNat x).toInt_lt
    omega
  · exact Int64.toInt_ofNat_of_lt

theorem toInt_toInt64_iff {x : UInt64} : x.toInt64.toInt = x.toNat ↔ x.toNat < 2 ^ 63 := by
  have hx : x.toInt64 = .ofNat x.toNat := by
    rw [← Int64.toBitVec_inj]
    simp
  rw [hx, toInt_ofNat_iff]

end Lib

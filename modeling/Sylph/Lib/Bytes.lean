import Mathlib.Algebra.Order.Ring.Nat
import Mathlib.Data.List.Induction
import Mathlib.Tactic.Ring

/-!
# Byte strings

* `Bytes n`: the strings of `n` bytes.
* `Bytes.fit`: any string is made one of `n` bytes, in front. A string of `n` bytes is kept
  (`fit_of_length`), and so is what follows other bytes (`fit_append`).
* `Bytes.value`: the number the bytes stand for, the first byte being the most significant
  one. It is read back from the bytes of a number (`value_ofNat`), and fitting leaves the
  last digits of it (`value_fit`).
-/

namespace Lib

/-- The strings of `n` bytes. -/
@[ext] structure Bytes (n : ℕ) where
  toList : List UInt8
  length_toList : toList.length = n
  deriving DecidableEq

namespace Bytes

/-- Bytes are dropped in front, or zeros are added, until there are `n`. -/
def fit (n : ℕ) (bytes : List UInt8) : Bytes n where
  toList := List.replicate (n - bytes.length) 0 ++ bytes.drop (bytes.length - n)
  length_toList := by
    rw [List.length_append, List.length_replicate, List.length_drop]
    omega

/-- The number the bytes stand for. -/
def value (bytes : List UInt8) : ℕ := bytes.foldl (fun n b => 256 * n + b.toNat) 0

/-- The last `n` digits of a number, as bytes. -/
def digits : (n v : ℕ) → List UInt8
  | 0, _ => []
  | n + 1, v => digits n (v / 256) ++ [UInt8.ofNat v]

theorem length_digits (n v : ℕ) : (digits n v).length = n := by
  induction n generalizing v with
  | zero => rfl
  | succ n ih => rw [digits, List.length_append, ih, List.length_singleton]

/-- The bytes of a number. -/
def ofNat (n v : ℕ) : Bytes n := ⟨digits n v, length_digits n v⟩

variable {n : ℕ} {bytes : List UInt8}

/-! ## Fitting -/

theorem fit_append (front : List UInt8) (h : bytes.length = n) :
    fit n (front ++ bytes) = ⟨bytes, h⟩ := by
  have hle : n ≤ (front ++ bytes).length := by
    rw [List.length_append, h]
    exact Nat.le_add_left _ _
  have hdrop : (front ++ bytes).length - n = front.length := by
    rw [List.length_append, h]
    exact Nat.add_sub_cancel _ _
  ext1
  change List.replicate (n - (front ++ bytes).length) 0 ++ _ = _
  rw [Nat.sub_eq_zero_of_le hle, hdrop, List.drop_left]
  rfl

theorem fit_of_length (h : bytes.length = n) : fit n bytes = ⟨bytes, h⟩ := fit_append [] h

/-! ## The number the bytes stand for -/

theorem value_concat (bytes : List UInt8) (b : UInt8) :
    value (bytes ++ [b]) = 256 * value bytes + b.toNat := by
  rw [value, List.foldl_append]
  rfl

theorem value_append (front bytes : List UInt8) :
    value (front ++ bytes) = 256 ^ bytes.length * value front + value bytes := by
  induction bytes using List.reverseRecOn with
  | nil => rw [List.append_nil, List.length_nil, pow_zero, one_mul]; rfl
  | append_singleton bytes b ih =>
    rw [← List.append_assoc, value_concat, value_concat, ih, List.length_append,
      List.length_singleton, pow_succ']
    ring

theorem value_lt (bytes : List UInt8) : value bytes < 256 ^ bytes.length := by
  induction bytes using List.reverseRecOn with
  | nil => exact Nat.one_pos
  | append_singleton bytes b ih =>
    have hb : b.toNat < 256 := b.toNat_lt
    rw [value_concat, List.length_append, List.length_singleton, pow_succ']
    omega

theorem value_replicate_zero (n : ℕ) : value (List.replicate n 0) = 0 := by
  induction n with
  | zero => rfl
  | succ n ih =>
    rw [List.replicate_succ', value_concat, ih]
    rfl

/-- The bytes of a number that has no more digits stand for it. -/
theorem value_ofNat {v : ℕ} (h : v < 256 ^ n) : value (ofNat n v).toList = v := by
  change value (digits n v) = v
  induction n generalizing v with
  | zero => exact (Nat.lt_one_iff.1 h).symm
  | succ n ih =>
    have hlt : v / 256 < 256 ^ n := Nat.div_lt_of_lt_mul (by rwa [← pow_succ'])
    have hb : (UInt8.ofNat v).toNat = v % 256 := UInt8.toNat_ofNat'
    rw [digits, value_concat, ih hlt, hb, Nat.div_add_mod]

/-- Fitting leaves the last digits. -/
theorem value_fit (n : ℕ) (bytes : List UInt8) :
    value (fit n bytes).toList = value bytes % 256 ^ n := by
  rcases Nat.le_total n bytes.length with hle | hle
  · have hlen : (bytes.drop (bytes.length - n)).length = n := by
      rw [List.length_drop]
      omega
    have hfit := fit_append (bytes.take (bytes.length - n)) hlen
    rw [List.take_append_drop] at hfit
    conv_rhs => rw [← List.take_append_drop (bytes.length - n) bytes]
    have hlt := value_lt (bytes.drop (bytes.length - n))
    rw [hlen] at hlt
    rw [hfit, value_append, hlen, Nat.mul_add_mod, Nat.mod_eq_of_lt hlt]
  · change value (List.replicate (n - bytes.length) 0 ++ bytes.drop (bytes.length - n)) = _
    rw [Nat.sub_eq_zero_of_le hle, List.drop_zero, value_append, value_replicate_zero,
      Nat.mul_zero, Nat.zero_add, Nat.mod_eq_of_lt]
    exact Nat.lt_of_lt_of_le (value_lt bytes) (Nat.pow_le_pow_right (by decide) hle)

end Bytes

end Lib

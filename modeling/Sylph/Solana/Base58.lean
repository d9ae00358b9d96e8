import Mathlib.Data.Nat.Digits.Lemmas

/-!
# Base58

The text of a signature or of a public key. It has at least as many characters as there
are bytes (`le_length_base58`).
-/

namespace Sylph.Solana

/-- The characters are all digits and letters but those that look like others. -/
def base58Alphabet : List Char :=
  "123456789ABCDEFGHJKLMNPQRSTUVWXYZabcdefghijkmnopqrstuvwxyz".toList

/-- The digits of the number the bytes stand for, after a digit zero for each byte of zero
    in front. -/
def base58 (bytes : List UInt8) : String :=
  let zeros := (bytes.takeWhile (· == 0)).map fun _ => 0
  let digits := Nat.digits 58 (bytes.foldl (fun n b => 2 ^ 8 * n + b.toNat) 0)
  .ofList ((zeros ++ digits.reverse).map fun i => base58Alphabet.getD i '1')

theorem length_base58 (bytes : List UInt8) : (base58 bytes).length =
    (bytes.takeWhile (· == 0)).length +
      (Nat.digits 58 (bytes.foldl (fun n b => 2 ^ 8 * n + b.toNat) 0)).length := by
  rw [base58, String.length_ofList, List.length_map, List.length_append, List.length_map,
    List.length_reverse]

/-- A byte is worth more than a digit. -/
theorem pow_mul_le_foldl (bytes : List UInt8) (n : ℕ) :
    58 ^ bytes.length * n ≤ bytes.foldl (fun n b => 2 ^ 8 * n + b.toNat) n := by
  induction bytes generalizing n with
  | nil => exact Nat.le_of_eq (Nat.one_mul n)
  | cons b bytes ih =>
    have hb : 58 * n ≤ 2 ^ 8 * n + b.toNat :=
      le_trans (Nat.mul_le_mul_right n (by decide)) (Nat.le_add_right _ _)
    rw [List.length_cons, pow_succ, mul_assoc]
    exact le_trans (Nat.mul_le_mul_left _ hb) (ih _)

theorem le_length_base58 (bytes : List UInt8) : bytes.length ≤ (base58 bytes).length := by
  induction bytes with
  | nil => exact Nat.zero_le _
  | cons b bytes ih =>
    rw [length_base58] at ih ⊢
    by_cases hb : b = 0
    · -- A byte of zero has a character of its own.
      subst hb
      rw [List.takeWhile_cons_of_pos rfl, List.length_cons, List.length_cons, Nat.succ_add]
      exact Nat.succ_le_succ ih
    · have hpos : 0 < b.toNat := Nat.pos_of_ne_zero fun h => hb (UInt8.toNat_inj.1 h)
      have hle : 58 ^ bytes.length ≤
          (b :: bytes).foldl (fun n b => 2 ^ 8 * n + b.toNat) 0 := by
        rw [List.foldl_cons, Nat.mul_zero, Nat.zero_add]
        exact le_trans (Nat.le_mul_of_pos_right _ hpos) (pow_mul_le_foldl bytes _)
      exact le_trans ((Nat.lt_digits_length_iff (by decide) _).2 hle) (Nat.le_add_left _ _)

end Sylph.Solana

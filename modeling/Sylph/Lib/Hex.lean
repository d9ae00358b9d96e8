import Sylph.Lib.Bytes

/-!
# Hexadecimal texts

A text stands for a string of bytes (`Denotes`) if it is `0x` and two digits for each byte, in
lower or upper case. `write` is one of them (`denotes_write`).
-/

namespace Lib.Hex

/-- The value of a digit. -/
def digit? (c : Char) : Option ℕ :=
  if '0' ≤ c ∧ c ≤ '9' then some (c.toNat - '0'.toNat)
  else if 'a' ≤ c ∧ c ≤ 'f' then some (c.toNat - 'a'.toNat + 10)
  else if 'A' ≤ c ∧ c ≤ 'F' then some (c.toNat - 'A'.toNat + 10)
  else none

/-- The bytes that some digits stand for, two of them for each. -/
def read : List Char → Option (List UInt8)
  | [] => some []
  | [_] => none
  | c₁ :: c₂ :: cs => do
    let high ← digit? c₁
    let low ← digit? c₂
    let bytes ← read cs
    return UInt8.ofNat (16 * high + low) :: bytes

/-- The text stands for the bytes. -/
def Denotes (text : String) (bytes : List UInt8) : Prop :=
  ∃ cs, text.toList = '0' :: 'x' :: cs ∧ read cs = some bytes

/-! ## Writing -/

/-- A digit, in lower case. -/
def digit (n : ℕ) : Char := "0123456789abcdef".toList.getD n '0'

/-- `0x`, and two digits for each byte. -/
def write (bytes : List UInt8) : String :=
  .ofList ('0' :: 'x' :: bytes.flatMap fun b => [digit (b.toNat / 16), digit (b.toNat % 16)])

theorem digit?_digit {n : ℕ} (h : n < 16) : digit? (digit n) = some n := by
  have hall : ∀ n < 16, digit? (digit n) = some n := by decide
  exact hall n h

theorem read_flatMap (bytes : List UInt8) :
    read (bytes.flatMap fun b => [digit (b.toNat / 16), digit (b.toNat % 16)]) = some bytes := by
  induction bytes with
  | nil => rfl
  | cons b bytes ih =>
    have hb : b.toNat < 256 := b.toNat_lt
    have hhigh := digit?_digit (show b.toNat / 16 < 16 by omega)
    have hlow := digit?_digit (show b.toNat % 16 < 16 by omega)
    simp only [List.flatMap_cons, List.cons_append, List.nil_append, read, hhigh, hlow, ih,
      Option.bind_eq_bind, Option.bind_some, Nat.div_add_mod, UInt8.ofNat_toNat]
    rfl

theorem denotes_write (bytes : List UInt8) : Denotes (write bytes) bytes :=
  ⟨_, String.toList_ofList, read_flatMap bytes⟩

end Lib.Hex

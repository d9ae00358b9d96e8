import Mathlib.Data.Nat.Notation

/-!
# Base64

Bytes as text: three bytes in four characters of six bits each, and one or two bytes
left at the end in as many characters as they need, padded with `=` to four. Reading is
strict: the padding has to be there, and the bits that are not needed have to be zero.
What is written is read back (`decode_encode`).
-/

namespace Lib.Base64

/-- The sixty-four symbols. -/
def alphabet : List Char :=
  "ABCDEFGHIJKLMNOPQRSTUVWXYZabcdefghijklmnopqrstuvwxyz0123456789+/".toList

/-- The character of a number below `64`. -/
def symbol (n : ℕ) : Char := alphabet.getD n '='

/-- The number of a character. -/
def value (c : Char) : Option ℕ := alphabet.idxOf? c

theorem value_symbol {n : ℕ} (h : n < 64) : value (symbol n) = some n := by
  have hall : ∀ i : Fin 64, value (symbol i) = some i.1 := by decide +kernel
  exact hall ⟨n, h⟩

theorem symbol_ne_pad {n : ℕ} (h : n < 64) : symbol n ≠ '=' := by
  have hall : ∀ i : Fin 64, symbol i ≠ '=' := by decide +kernel
  exact hall ⟨n, h⟩

/-- Three bytes make four symbols; what is missing from the last three is padded. -/
def encodeChars : List UInt8 → List Char
  | [] => []
  | [a] => [symbol (a.toNat / 4), symbol (a.toNat % 4 * 16), '=', '=']
  | [a, b] =>
    [symbol (a.toNat / 4), symbol (a.toNat % 4 * 16 + b.toNat / 16), symbol (b.toNat % 16 * 4), '=']
  | a :: b :: c :: bytes =>
    symbol (a.toNat / 4) :: symbol (a.toNat % 4 * 16 + b.toNat / 16) ::
      symbol (b.toNat % 16 * 4 + c.toNat / 64) :: symbol (c.toNat % 64) :: encodeChars bytes

/-- The bytes of four characters: two for the last group if it is padded with one `=`,
    and one if it is padded with two. -/
def decodeGroup (w x y z : Char) : Option (List UInt8) := do
  let w ← value w
  let x ← value x
  if z = '=' then
    if y = '=' then
      if x % 16 = 0 then some [.ofNat (w * 4 + x / 16)] else none
    else
      let y ← value y
      if y % 4 = 0 then some [.ofNat (w * 4 + x / 16), .ofNat (x % 16 * 16 + y / 4)] else none
  else
    let y ← value y
    let z ← value z
    some [.ofNat (w * 4 + x / 16), .ofNat (x % 16 * 16 + y / 4), .ofNat (y % 4 * 64 + z)]

/-- Groups of four symbols, each read back to its bytes. -/
def decodeChars : List Char → Option (List UInt8)
  | [] => some []
  | w :: x :: y :: z :: rest => do
    let bytes ← decodeGroup w x y z
    -- Only the last group is padded.
    if rest ≠ [] ∧ z = '=' then none
    else
      let more ← decodeChars rest
      some (bytes ++ more)
  | _ => none

/-- The text of some bytes. -/
def encode (bytes : List UInt8) : String := .ofList (encodeChars bytes)

/-- The bytes of a text, if it is one of this encoding. -/
def decode (s : String) : Option (List UInt8) := decodeChars s.toList

theorem ofNat_eq {a : UInt8} {n : ℕ} (h : n = a.toNat) : UInt8.ofNat n = a := by
  rw [h, UInt8.ofNat_toNat]

theorem decodeGroup_three (a b c : UInt8) :
    decodeGroup (symbol (a.toNat / 4)) (symbol (a.toNat % 4 * 16 + b.toNat / 16))
      (symbol (b.toNat % 16 * 4 + c.toNat / 64)) (symbol (c.toNat % 64)) = some [a, b, c] := by
  have ha := a.toNat_lt
  have hb := b.toNat_lt
  have hc := c.toNat_lt
  simp only [decodeGroup, value_symbol (show a.toNat / 4 < 64 by omega),
    value_symbol (show a.toNat % 4 * 16 + b.toNat / 16 < 64 by omega),
    value_symbol (show b.toNat % 16 * 4 + c.toNat / 64 < 64 by omega),
    value_symbol (show c.toNat % 64 < 64 by omega),
    if_neg (symbol_ne_pad (show c.toNat % 64 < 64 by omega)), Option.bind_eq_bind, Option.bind_some]
  rw [ofNat_eq (a := a) (by omega), ofNat_eq (a := b) (by omega), ofNat_eq (a := c) (by omega)]

theorem decodeGroup_two (a b : UInt8) :
    decodeGroup (symbol (a.toNat / 4)) (symbol (a.toNat % 4 * 16 + b.toNat / 16))
      (symbol (b.toNat % 16 * 4)) '=' = some [a, b] := by
  have ha := a.toNat_lt
  have hb := b.toNat_lt
  simp only [decodeGroup, value_symbol (show a.toNat / 4 < 64 by omega),
    value_symbol (show a.toNat % 4 * 16 + b.toNat / 16 < 64 by omega),
    value_symbol (show b.toNat % 16 * 4 < 64 by omega), if_true,
    if_neg (symbol_ne_pad (show b.toNat % 16 * 4 < 64 by omega)), Option.bind_eq_bind,
    Option.bind_some, Nat.mul_mod_left]
  rw [ofNat_eq (a := a) (by omega), ofNat_eq (a := b) (by omega)]

theorem decodeGroup_one (a : UInt8) :
    decodeGroup (symbol (a.toNat / 4)) (symbol (a.toNat % 4 * 16)) '=' '=' = some [a] := by
  have ha := a.toNat_lt
  simp only [decodeGroup, value_symbol (show a.toNat / 4 < 64 by omega),
    value_symbol (show a.toNat % 4 * 16 < 64 by omega), if_true, Option.bind_eq_bind,
    Option.bind_some, Nat.mul_mod_left]
  rw [ofNat_eq (a := a) (by omega)]

theorem decodeChars_encodeChars (bytes : List UInt8) :
    decodeChars (encodeChars bytes) = some bytes := by
  induction bytes using encodeChars.induct with
  | case1 => rfl
  | case2 a =>
    simp only [encodeChars, decodeChars, decodeGroup_one, ne_eq, not_true_eq_false, false_and,
      if_false, Option.bind_eq_bind, Option.bind_some, List.append_nil]
  | case3 a b =>
    simp only [encodeChars, decodeChars, decodeGroup_two, ne_eq, not_true_eq_false, false_and,
      if_false, Option.bind_eq_bind, Option.bind_some, List.append_nil]
  | case4 a b c bytes ih =>
    have hz : symbol (c.toNat % 64) ≠ '=' := symbol_ne_pad (Nat.mod_lt _ (by decide))
    simp only [encodeChars, decodeChars, decodeGroup_three, hz, and_false, if_false, ih,
      Option.bind_eq_bind, Option.bind_some, List.cons_append, List.nil_append]

theorem decode_encode (bytes : List UInt8) : decode (encode bytes) = some bytes := by
  rw [decode, encode, String.toList_ofList, decodeChars_encodeChars]

example : encode [83, 111, 108] = "U29s" ∧ encode [83, 111] = "U28=" ∧ encode [83] = "Uw==" := by
  decide +kernel

end Lib.Base64

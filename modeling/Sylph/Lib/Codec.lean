import Mathlib.Algebra.Order.Ring.Int
import Mathlib.Logic.Equiv.Defs

/-!
# Codecs

A codec writes the values of a type as bytes and reads them back from the front of a
list of bytes. It reads what it has written, whatever follows, and nothing else:
every value has a single representation, which no other one starts with
(`Codec.append_inj`).

* Codecs are put together from that of a byte: `pair`, `imap` (along an equivalence),
  `fixed` (lists of a known length).
* `shortVec`: lists with their length in front, in one to three bytes of seven bits
  each, the lowest first, all but the last with the top bit set. Longer forms of a
  length are refused.
-/

namespace Lib

/-- A way to write the values of `α` as bytes, and to read them. -/
structure Codec (α : Type) where
  encode : α → List UInt8
  /-- The value in front, and what follows it. -/
  parse : List UInt8 → Option (α × List UInt8)
  parse_encode : ∀ a rest, parse (encode a ++ rest) = some (a, rest)
  encode_of_parse : ∀ {bytes a rest}, parse bytes = some (a, rest) → bytes = encode a ++ rest

namespace Codec

variable {α β : Type}

/-- What is written is read in one way only. -/
theorem append_inj (c : Codec α) {a b : α} {r s : List UInt8}
    (h : c.encode a ++ r = c.encode b ++ s) : a = b ∧ r = s := by
  have := c.parse_encode a r
  rw [h, c.parse_encode, Option.some_inj, Prod.mk.injEq] at this
  exact ⟨this.1.symm, this.2.symm⟩

/-- A byte stands for itself. -/
def byte : Codec UInt8 where
  encode b := [b]
  parse
    | [] => none
    | b :: rest => some (b, rest)
  parse_encode _ _ := rfl
  encode_of_parse {bytes b rest} h := by
    rcases bytes with _ | ⟨c, bytes⟩
    · exact absurd h nofun
    · cases h
      rfl

/-- One value after the other. -/
def pair (c : Codec α) (d : Codec β) : Codec (α × β) where
  encode x := c.encode x.1 ++ d.encode x.2
  parse bytes := (c.parse bytes).bind fun x => (d.parse x.2).map fun y => ((x.1, y.1), y.2)
  parse_encode x rest := by
    rw [List.append_assoc, c.parse_encode, Option.bind_some, d.parse_encode]
    rfl
  encode_of_parse {bytes x rest} h := by
    obtain ⟨⟨a, r⟩, ha, h⟩ := Option.bind_eq_some_iff.1 h
    obtain ⟨⟨b, s⟩, hb, h⟩ := Option.map_eq_some_iff.1 h
    cases h
    have hr : r = d.encode b ++ s := d.encode_of_parse hb
    rw [c.encode_of_parse ha, hr, ← List.append_assoc]

/-- The values of an equivalent type. -/
def imap (c : Codec α) (e : β ≃ α) : Codec β where
  encode b := c.encode (e b)
  parse bytes := (c.parse bytes).map fun x => (e.symm x.1, x.2)
  parse_encode b rest := by
    rw [c.parse_encode, Option.map_some, e.symm_apply_apply]
  encode_of_parse {bytes b rest} h := by
    obtain ⟨⟨a, r⟩, ha, h⟩ := Option.map_eq_some_iff.1 h
    cases h
    rw [c.encode_of_parse ha, e.apply_symm_apply]

/-! ## Lists -/

/-- The items one after the other. -/
def encodeAll (c : Codec α) (l : List α) : List UInt8 := l.flatMap c.encode

theorem encodeAll_byte (l : List UInt8) : byte.encodeAll l = l := List.flatMap_singleton' l

/-- The next `n` values. -/
def parseAll (c : Codec α) : ℕ → List UInt8 → Option (List α × List UInt8)
  | 0, bytes => some ([], bytes)
  | n + 1, bytes => (c.parse bytes).bind fun x =>
    (parseAll c n x.2).map fun y => (x.1 :: y.1, y.2)

theorem parseAll_encodeAll (c : Codec α) (l : List α) (rest : List UInt8) :
    c.parseAll l.length (c.encodeAll l ++ rest) = some (l, rest) := by
  induction l with
  | nil => rfl
  | cons a l ih =>
    rw [encodeAll, List.flatMap_cons, List.append_assoc, List.length_cons, parseAll,
      c.parse_encode, Option.bind_some]
    rw [encodeAll] at ih
    rw [ih, Option.map_some]

theorem encodeAll_of_parseAll (c : Codec α) {n : ℕ} {bytes rest : List UInt8} {l : List α}
    (h : c.parseAll n bytes = some (l, rest)) :
    l.length = n ∧ bytes = c.encodeAll l ++ rest := by
  induction n generalizing bytes l with
  | zero =>
    cases h
    exact ⟨rfl, rfl⟩
  | succ n ih =>
    obtain ⟨⟨a, r⟩, ha, h⟩ := Option.bind_eq_some_iff.1 h
    obtain ⟨⟨l', s⟩, hl, h⟩ := Option.map_eq_some_iff.1 h
    cases h
    obtain ⟨hn, hr⟩ := ih hl
    refine ⟨by rw [List.length_cons, hn], ?_⟩
    have hr : r = c.encodeAll l' ++ s := hr
    rw [c.encode_of_parse ha, hr, encodeAll, encodeAll, List.flatMap_cons, List.append_assoc]

/-- The lists of `n` values. -/
def fixed (c : Codec α) (n : ℕ) : Codec {l : List α // l.length = n} where
  encode l := c.encodeAll l.1
  parse bytes := (c.parseAll n bytes).bind fun x =>
    if h : x.1.length = n then some (⟨x.1, h⟩, x.2) else none
  parse_encode := by
    rintro ⟨l, rfl⟩ rest
    rw [c.parseAll_encodeAll, Option.bind_some, dif_pos rfl]
  encode_of_parse {bytes l rest} h := by
    obtain ⟨x, hx, h⟩ := Option.bind_eq_some_iff.1 h
    split at h
    · cases h
      exact (c.encodeAll_of_parseAll hx).2
    · exact absurd h nofun

/-! ## Lengths -/

/-- A length in one to three bytes, seven bits in each. -/
def encodeLength (n : ℕ) : List UInt8 :=
  if n < 2 ^ 7 then [.ofNat n]
  else if n < 2 ^ 14 then [.ofNat (n % 2 ^ 7 + 2 ^ 7), .ofNat (n / 2 ^ 7)]
  else [.ofNat (n % 2 ^ 7 + 2 ^ 7), .ofNat (n / 2 ^ 7 % 2 ^ 7 + 2 ^ 7), .ofNat (n / 2 ^ 14)]

/-- The length in front. A last byte of zero, but for the length zero, is that of a form
    too long, and a third byte is the last one. -/
def parseLength : List UInt8 → Option (ℕ × List UInt8)
  | [] => none
  | a :: rest =>
    if a.toNat < 2 ^ 7 then some (a.toNat, rest)
    else
      match rest with
      | [] => none
      | b :: rest =>
        if b.toNat = 0 then none
        else if b.toNat < 2 ^ 7 then some (a.toNat - 2 ^ 7 + 2 ^ 7 * b.toNat, rest)
        else
          match rest with
          | [] => none
          | c :: rest =>
            if c.toNat = 0 then none
            else if c.toNat < 2 ^ 2 then
              some (a.toNat - 2 ^ 7 + 2 ^ 7 * (b.toNat - 2 ^ 7) + 2 ^ 14 * c.toNat, rest)
            else none

theorem toNat_ofNat {n : ℕ} (h : n < 2 ^ 8) : (UInt8.ofNat n).toNat = n :=
  UInt8.toNat_ofNat_of_lt' h

theorem parseLength_encodeLength {n : ℕ} (hn : n < 2 ^ 16) (rest : List UInt8) :
    parseLength (encodeLength n ++ rest) = some (n, rest) := by
  by_cases h₁ : n < 2 ^ 7
  · simp only [encodeLength, if_pos h₁, List.cons_append, List.nil_append, parseLength,
      toNat_ofNat (show n < 2 ^ 8 by omega)]
  · have hlow : n % 2 ^ 7 + 2 ^ 7 < 2 ^ 8 := by omega
    by_cases h₂ : n < 2 ^ 14
    · simp only [encodeLength, if_neg h₁, if_pos h₂, List.cons_append, List.nil_append, parseLength,
        toNat_ofNat hlow, toNat_ofNat (show n / 2 ^ 7 < 2 ^ 8 by omega)]
      rw [if_neg (by omega), if_neg (by omega), if_pos (by omega)]
      congr 2
      omega
    · simp only [encodeLength, if_neg h₁, if_neg h₂, List.cons_append, List.nil_append, parseLength,
        toNat_ofNat hlow, toNat_ofNat (show n / 2 ^ 7 % 2 ^ 7 + 2 ^ 7 < 2 ^ 8 by omega),
        toNat_ofNat (show n / 2 ^ 14 < 2 ^ 8 by omega)]
      rw [if_neg (by omega), if_neg (by omega), if_neg (by omega), if_neg (by omega),
        if_pos (by omega)]
      congr 2
      omega

theorem ofNat_toNat_eq {b : UInt8} {n : ℕ} (h : n = b.toNat) : UInt8.ofNat n = b := by
  rw [h, UInt8.ofNat_toNat]

theorem encodeLength_of_parseLength {bytes rest : List UInt8} {n : ℕ}
    (h : parseLength bytes = some (n, rest)) : n < 2 ^ 16 ∧ bytes = encodeLength n ++ rest := by
  rcases bytes with _ | ⟨a, bytes⟩
  · exact absurd h nofun
  have ha := a.toNat_lt
  -- One byte, without the top bit.
  by_cases h₁ : a.toNat < 2 ^ 7
  · simp only [parseLength, if_pos h₁, Option.some.injEq, Prod.mk.injEq] at h
    obtain ⟨rfl, rfl⟩ := h
    rw [encodeLength, if_pos h₁, UInt8.ofNat_toNat]
    exact ⟨by omega, rfl⟩
  · rcases bytes with _ | ⟨b, bytes⟩
    · simp only [parseLength, if_neg h₁] at h
      exact absurd h nofun
    have hb := b.toNat_lt
    -- A further byte that is zero is refused: the length has a shorter form.
    by_cases hb₀ : b.toNat = 0
    · simp only [parseLength, if_neg h₁, if_pos hb₀] at h
      exact absurd h nofun
    · by_cases h₂ : b.toNat < 2 ^ 7
      · simp only [parseLength, if_neg h₁, if_neg hb₀, if_pos h₂, Option.some.injEq,
          Prod.mk.injEq] at h
        obtain ⟨rfl, rfl⟩ := h
        refine ⟨by omega, ?_⟩
        rw [encodeLength, if_neg (by omega), if_pos (by omega),
          ofNat_toNat_eq (b := a) (by omega), ofNat_toNat_eq (b := b) (by omega)]
        rfl
      · rcases bytes with _ | ⟨c, bytes⟩
        · simp only [parseLength, if_neg h₁, if_neg hb₀, if_neg h₂] at h
          exact absurd h nofun
        by_cases hc₀ : c.toNat = 0
        · simp only [parseLength, if_neg h₁, if_neg hb₀, if_neg h₂, if_pos hc₀] at h
          exact absurd h nofun
        -- Three bytes: sixteen bits leave two for the last one.
        · by_cases h₃ : c.toNat < 2 ^ 2
          · simp only [parseLength, if_neg h₁, if_neg hb₀, if_neg h₂, if_neg hc₀, if_pos h₃,
              Option.some.injEq, Prod.mk.injEq] at h
            obtain ⟨rfl, rfl⟩ := h
            refine ⟨by omega, ?_⟩
            rw [encodeLength, if_neg (by omega), if_neg (by omega),
              ofNat_toNat_eq (b := a) (by omega), ofNat_toNat_eq (b := b) (by omega),
              ofNat_toNat_eq (b := c) (by omega)]
            rfl
          · simp only [parseLength, if_neg h₁, if_neg hb₀, if_neg h₂, if_neg hc₀, if_neg h₃] at h
            exact absurd h nofun

/-- A length does not come after a byte with nothing but the top bit set, and start the
    same bytes again: all its bytes would be that one, but the last has no top bit. -/
theorem encodeLength_append_ne {n : ℕ} (hn : n < 2 ^ 16) (r s : List UInt8) :
    encodeLength n ++ r ≠ 0x80 :: (encodeLength n ++ s) := by
  intro h
  have h₈₀ : (0x80 : UInt8).toNat = 2 ^ 7 := rfl
  by_cases h₁ : n < 2 ^ 7
  · simp only [encodeLength, if_pos h₁, List.cons_append, List.nil_append, List.cons.injEq] at h
    have := congrArg UInt8.toNat h.1
    rw [toNat_ofNat (by omega), h₈₀] at this
    omega
  · by_cases h₂ : n < 2 ^ 14
    · simp only [encodeLength, if_neg h₁, if_pos h₂, List.cons_append, List.nil_append,
        List.cons.injEq] at h
      have := congrArg UInt8.toNat (h.2.1.trans h.1)
      rw [toNat_ofNat (by omega), h₈₀] at this
      omega
    · simp only [encodeLength, if_neg h₁, if_neg h₂, List.cons_append, List.nil_append,
        List.cons.injEq] at h
      have := congrArg UInt8.toNat (h.2.2.1.trans (h.2.1.trans h.1))
      rw [toNat_ofNat (by omega), h₈₀] at this
      omega

/-- The lists that are not too long, with their length in front. -/
def shortVec (c : Codec α) : Codec {l : List α // l.length < 2 ^ 16} where
  encode l := encodeLength l.1.length ++ c.encodeAll l.1
  parse bytes := (parseLength bytes).bind fun x => (c.parseAll x.1 x.2).bind fun y =>
    if h : y.1.length < 2 ^ 16 then some (⟨y.1, h⟩, y.2) else none
  parse_encode := by
    rintro ⟨l, hl⟩ rest
    rw [List.append_assoc, parseLength_encodeLength hl, Option.bind_some, c.parseAll_encodeAll,
      Option.bind_some, dif_pos hl]
  encode_of_parse {bytes l rest} h := by
    obtain ⟨⟨n, r⟩, hn, h⟩ := Option.bind_eq_some_iff.1 h
    obtain ⟨⟨l', s⟩, hl, h⟩ := Option.bind_eq_some_iff.1 h
    obtain ⟨hlen, hr⟩ : l'.length = n ∧ r = c.encodeAll l' ++ s := c.encodeAll_of_parseAll hl
    split at h
    · cases h
      rw [(encodeLength_of_parseLength hn).2, hr, ← List.append_assoc, ← hlen]
    · exact absurd h nofun

end Codec

end Lib

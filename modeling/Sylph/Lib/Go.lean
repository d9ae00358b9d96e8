import Mathlib.Algebra.Order.Ring.Int
import Mathlib.Data.List.Perm.Basic

/-!
# Go

The parts of the language the translated functions synchronise with, and its shifts.

* `Chan`: a buffered channel, whose buffer never exceeds its capacity. An operation
  that blocks is `none`.
* Goroutines are kept in the list of their states, in the order they are started: a step
  of one of them replaces its state (`exists_perm_set`).
* `shl`: the shift of a 64-bit integer, a multiplication that wraps around (`toInt_shl`).
* `Result`: what a function comes to that may return an error (`Errs`), or panic (`index`,
  `deref`).
-/

namespace Lib.Go

/-- A channel with a buffer of `cap` elements. -/
structure Chan (α : Type) (cap : ℕ) where
  buf : List α
  bounded : buf.length ≤ cap

namespace Chan

variable {α : Type} {cap : ℕ}

/-- `make(chan α, cap)` -/
def make : Chan α cap := ⟨[], Nat.zero_le cap⟩

/-- `c <- a`, which blocks while the buffer is full. -/
def send? (c : Chan α cap) (a : α) : Option (Chan α cap) :=
  if h : c.buf.length < cap then
    some ⟨c.buf ++ [a], by rw [List.length_append, List.length_singleton]; exact h⟩
  else
    none

/-- `<-c`, which blocks while the buffer is empty. -/
def recv? (c : Chan α cap) : Option (α × Chan α cap) :=
  match h : c.buf with
  | [] => none
  | a :: buf => some (a, ⟨buf, by have := c.bounded; rw [h] at this; exact Nat.le_of_succ_le this⟩)

/-- `select { case c <- a: default: }` -/
def trySend (c : Chan α cap) (a : α) : Chan α cap := (c.send? a).getD c

theorem exists_send? {c : Chan α cap} (a : α) (h : c.buf.length < cap) :
    ∃ c', c.send? a = some c' ∧ c'.buf = c.buf ++ [a] :=
  ⟨_, dif_pos h, rfl⟩

theorem buf_of_send? {c c' : Chan α cap} {a : α} (h : c.send? a = some c') :
    c'.buf = c.buf ++ [a] := by
  rw [send?] at h
  split at h
  · rw [← Option.some_inj.1 h]
  · exact absurd h nofun

theorem buf_of_recv? {c c' : Chan α cap} {a : α} (h : c.recv? = some (a, c')) :
    c.buf = a :: c'.buf := by
  rw [recv?] at h
  split at h
  · exact absurd h nofun
  · rename_i hb
    cases h
    exact hb

theorem exists_recv? {c : Chan α cap} {a : α} {buf : List α} (h : c.buf = a :: buf) :
    ∃ c', c.recv? = some (a, c') ∧ c'.buf = buf := by
  rcases hr : c.recv? with _ | ⟨b, c'⟩
  · rw [recv?] at hr
    split at hr
    · rename_i hb
      rw [h] at hb
      cases hb
    · cases hr
  · obtain ⟨rfl, rfl⟩ := List.cons_eq_cons.1 ((buf_of_recv? hr).symm.trans h)
    exact ⟨c', rfl, rfl⟩

theorem recv?_eq_none {c : Chan α cap} : c.recv? = none ↔ c.buf = [] := by
  rw [recv?]
  split
  · rename_i hb
    exact ⟨fun _ => hb, fun _ => rfl⟩
  · rename_i hb
    exact ⟨fun h => absurd h nofun, fun h => absurd (hb.symm.trans h) nofun⟩

/-- After an attempt to send to a channel with a buffer, there is something in it. -/
theorem trySend_ne_nil (c : Chan α cap) (a : α) (h : 0 < cap) : (c.trySend a).buf ≠ [] := by
  rw [trySend]
  rcases hs : c.send? a with _ | c'
  · -- The channel was full before.
    intro hb
    rw [send?] at hs
    split at hs
    · exact absurd hs nofun
    · rename_i hf
      rw [Option.getD_none] at hb
      exact hf (by rw [hb]; exact h)
  · rw [Option.getD_some, buf_of_send? hs]
    exact List.append_ne_nil_of_right_ne_nil _ (List.cons_ne_nil _ _)

/-- An attempt to send adds nothing else. -/
theorem mem_of_trySend {c : Chan α cap} {a b : α} (h : b ∈ (c.trySend a).buf) :
    b ∈ c.buf ∨ b = a := by
  rw [trySend] at h
  rcases hs : c.send? a with _ | c'
  · rw [hs] at h
    exact Or.inl h
  · rw [hs, Option.getD_some, buf_of_send? hs] at h
    exact (List.mem_append.1 h).imp_right List.mem_singleton.1

end Chan

/-- `x << count`: bits are shifted out, and a count of the width or beyond leaves none. -/
def shl (x : Int64) (count : UInt64) : Int64 := .ofBitVec (x.toBitVec <<< count.toNat)

/-- A shift is a multiplication that wraps around. -/
theorem toInt_shl (x : Int64) (count : UInt64) :
    (shl x count).toInt = (x.toInt * 2 ^ count.toNat).bmod (2 ^ 64) := by
  rw [shl, Int64.toInt_ofBitVec, BitVec.toInt_shiftLeft, Nat.shiftLeft_eq]
  have := BitVec.toInt_eq_toNat_bmod x.toBitVec
  rw [Int64.toInt, this, Int.bmod_mul_bmod]
  push_cast
  rfl

/-! ## Errors and panics -/

/-- The panics of the runtime. -/
inductive Panic
  /-- `index out of range [{index}] with length {length}` -/
  | indexOutOfRange (index : ℤ) (length : ℕ)
  /-- `invalid memory address or nil pointer dereference` -/
  | nilDereference

/-- How a call ends that does not return a value. -/
inductive Fault
  | err (text : String)
  | panic (p : Panic)

/-- What a call comes to: a value, an error, or a panic. -/
abbrev Result (α : Type) : Type := Except Fault α

/-- `xs[i]` -/
def index {α : Type} (xs : List α) (i : ℤ) : Result α :=
  match if i < 0 then none else xs[i.toNat]? with
  | some a => .ok a
  | none => .error (.panic (.indexOutOfRange i xs.length))

/-- The value of a pointer. -/
def deref {α : Type} : Option α → Result α
  | some a => .ok a
  | none => .error (.panic .nilDereference)

theorem index_natCast {α : Type} {xs : List α} {i : ℕ} {a : α} (h : xs[i]? = some a) :
    index xs i = .ok a := by
  rw [index, if_neg (Int.not_lt.2 (Int.natCast_nonneg i)), Int.toNat_natCast, h]

/-- The call returns an error. -/
def Errs {α : Type} (x : Result α) : Prop := ∃ text, x = .error (.err text)

theorem not_errs_ok {α : Type} (a : α) : ¬Errs (.ok a : Result α) := by
  rintro ⟨text, h⟩
  cases h

theorem not_errs_index {α : Type} (xs : List α) (i : ℤ) : ¬Errs (index xs i) := by
  rw [index]
  rintro ⟨text, h⟩
  split at h <;> cases h

theorem not_errs_deref {α : Type} (x : Option α) : ¬Errs (deref x) := by
  rintro ⟨text, h⟩
  cases x <;> cases h

theorem not_errs_bind {α β : Type} {x : Result α} {f : α → Result β} (hx : ¬Errs x)
    (hf : ∀ a, ¬Errs (f a)) : ¬Errs (x >>= f) := by
  rintro ⟨text, h⟩
  cases x with
  | error fault => exact hx ⟨text, congrArg _ (Except.error.inj h)⟩
  | ok a => exact hf a ⟨text, h⟩

/-- A loop does not return an error if its body does not. -/
theorem not_errs_foldlM {α β : Type} {f : β → α → Result β} (hf : ∀ b a, ¬Errs (f b a))
    (xs : List α) (b : β) : ¬Errs (xs.foldlM f b) := by
  induction xs generalizing b with
  | nil => exact not_errs_ok b
  | cons a xs ih =>
    rw [List.foldlM_cons]
    exact not_errs_bind (hf b a) ih

/-! ## Goroutines -/

/-- The elements of a list but one, at `i`, and the list with that one replaced. -/
theorem exists_perm_set {α : Type} {l : List α} {i : ℕ} {a : α} (h : l[i]? = some a) :
    ∃ r, l.Perm (a :: r) ∧ ∀ b, (l.set i b).Perm (b :: r) := by
  obtain ⟨hi, rfl⟩ := List.getElem?_eq_some_iff.1 h
  exact ⟨l.eraseIdx i, (List.getElem_cons_eraseIdx_perm hi).symm,
    fun b => List.set_perm_cons_eraseIdx hi b⟩

end Lib.Go

import Mathlib.Algebra.Order.Ring.Int
import Mathlib.Data.Int.Notation
import Mathlib.Data.List.Dedup
import Mathlib.Data.List.Perm.Basic

/-!
# Elixir

The part of the language the translated modules rest on.

* Terms (`Term`), with maps under atom keys, the field access `t.key`
  (`Term.fetch`) and the errors it raises (`Exn`).
* Exit reasons (`ExitReason`), as received in an `EXIT` message.
* The length of a range (`rangeLength`), a stream in chunks (`chunkEvery`), a list without
  repetitions (`uniq`), and the unspecified order in which the keys of a map are listed
  (`KeyOrder`).
* What a callback of a process ends in (`Outcome`): a reply, no reply, a stop, or
  an error raised on the way, which ends the process. All carry what the
  callback has done so far.
-/

namespace Lib.Elixir

/-- An atom, by its name. -/
structure Atom where
  name : String
  deriving DecidableEq

instance : Coe String Atom := ⟨Atom.mk⟩

/-- The terms, with maps under atom keys (the first entry of a key counts). -/
inductive Term
  | atom (a : Atom)
  | int (n : ℤ)
  | binary (bytes : List UInt8)
  | pid (n : ℕ)
  | list (l : List Term)
  | tuple (l : List Term)
  | map (m : List (Atom × Term))

/-- The errors raised by the language, or by a library. -/
inductive Exn
  | functionClause
  | caseClause
  | badMatch
  | badMap
  | argument
  | key (k : Atom)
  | exception (name : Atom)
  deriving DecidableEq

/-- The reason of an error, as a term. -/
def Exn.toTerm : Exn → Term
  | functionClause => .atom "function_clause"
  | caseClause => .atom "case_clause"
  | badMatch => .atom "badmatch"
  | badMap => .atom "badmap"
  | argument => .atom "badarg"
  | key k => .tuple [.atom "badkey", .atom k]
  | exception name => Term.map [("__struct__", .atom name), ("__exception__", .atom "true")]

namespace Term

/-- A string is a binary. -/
def string (s : String) : Term := binary s.toUTF8.toList

/-- The booleans are atoms. -/
def ofBool (b : Bool) : Term := atom (if b then "true" else "false")

/-- `nil` is an atom. -/
def nil : Term := atom "nil"

/-- The struct of a message of a protocol, a map under its fields and two more keys. -/
def struct (name : Atom) (fields : List (Atom × Term)) : Term :=
  map (("__struct__", atom name) :: ("__unknown_fields__", list []) :: fields)

/-- The test `is_map(t)`. -/
def isMap : Term → Bool
  | map _ => true
  | _ => false

/-- The value under a key, if `t` is a map that has it. -/
def get? (t : Term) (k : Atom) : Option Term :=
  match t with
  | map m => m.lookup k
  | _ => none

/-- The field access `t.k`. -/
def fetch (t : Term) (k : Atom) : Except Exn Term :=
  match t with
  | map m =>
    match m.lookup k with
    | some v => .ok v
    | none => .error (.key k)
  | _ => .error .badMap

/-- The pattern `%{k: a}`, for an atom `a`. -/
def hasAtom (t : Term) (k a : Atom) : Bool :=
  match t.get? k with
  | some (atom b) => b = a
  | _ => false

mutual

/-- Two terms are the same, or they are not. -/
def decEq : (s t : Term) → Decidable (s = t)
  | atom a, atom b => decidable_of_iff (a = b) (by rw [atom.injEq])
  | int m, int n => decidable_of_iff (m = n) (by rw [int.injEq])
  | binary b, binary c => decidable_of_iff (b = c) (by rw [binary.injEq])
  | pid m, pid n => decidable_of_iff (m = n) (by rw [pid.injEq])
  | list l, list k => @decidable_of_iff _ _ (by rw [list.injEq]) (decEqList l k)
  | tuple l, tuple k => @decidable_of_iff _ _ (by rw [tuple.injEq]) (decEqList l k)
  | map l, map k => @decidable_of_iff _ _ (by rw [map.injEq]) (decEqEntries l k)
  | atom _, int _ | atom _, binary _ | atom _, pid _ | atom _, list _ | atom _, tuple _
  | atom _, map _ | int _, atom _ | int _, binary _ | int _, pid _ | int _, list _
  | int _, tuple _ | int _, map _ | binary _, atom _ | binary _, int _ | binary _, pid _
  | binary _, list _ | binary _, tuple _ | binary _, map _ | pid _, atom _ | pid _, int _
  | pid _, binary _ | pid _, list _ | pid _, tuple _ | pid _, map _ | list _, atom _
  | list _, int _ | list _, binary _ | list _, pid _ | list _, tuple _ | list _, map _
  | tuple _, atom _ | tuple _, int _ | tuple _, binary _ | tuple _, pid _ | tuple _, list _
  | tuple _, map _ | map _, atom _ | map _, int _ | map _, binary _ | map _, pid _
  | map _, list _ | map _, tuple _ => isFalse fun h => by cases h

/-- Lists of terms are compared one by one, ... -/
def decEqList : (l k : List Term) → Decidable (l = k)
  | [], [] => isTrue rfl
  | [], _ :: _ | _ :: _, [] => isFalse fun h => by cases h
  | s :: l, t :: k =>
    @decidable_of_iff _ (s = t ∧ l = k) (by rw [List.cons.injEq])
      (@instDecidableAnd _ _ (decEq s t) (decEqList l k))

/-- ... and so are the entries of maps. -/
def decEqEntries : (l k : List (Atom × Term)) → Decidable (l = k)
  | [], [] => isTrue rfl
  | [], _ :: _ | _ :: _, [] => isFalse fun h => by cases h
  | (a, s) :: l, (b, t) :: k =>
    @decidable_of_iff _ (a = b ∧ s = t ∧ l = k) (by rw [List.cons.injEq, Prod.mk.injEq, and_assoc])
      (@instDecidableAnd _ _ _ (@instDecidableAnd _ _ (decEq s t) (decEqEntries l k)))

end

instance : DecidableEq Term := decEq

theorem fetch_eq_ok_iff {t v : Term} {k : Atom} : t.fetch k = .ok v ↔ t.get? k = some v := by
  cases t with
  | map m => cases hl : m.lookup k <;> simp [fetch, get?, hl]
  | _ => simp [fetch, get?]

end Term

/-- The reason a process exits with. -/
inductive ExitReason
  | normal
  | shutdown
  | raised (e : Exn)
  | other (name : Atom)
  deriving DecidableEq

/-- An exit reason, as a term. -/
def ExitReason.toTerm : ExitReason → Term
  | normal => .atom "normal"
  | shutdown => .atom "shutdown"
  | raised e => e.toTerm
  | other a => .atom a

/-- `:ok`, or `{:error, reason}`. -/
abbrev Result (ε : Type) := Except ε Unit

/-- The number of elements of `first..last`, which counts down if `last < first`. -/
def rangeLength (first last : ℤ) : ℕ := (last - first).natAbs + 1

theorem rangeLength_one {n : ℕ} (h : 1 ≤ n) : rangeLength 1 n = n := by
  rw [rangeLength]
  omega

/-- `Stream.chunk_every(n)`, for a positive `n`: the elements in lists of `n`, the last
    one possibly shorter. -/
def chunkEvery {α : Type} (n : ℕ) : List α → List (List α)
  | [] => []
  | a :: l => (a :: l.take (n - 1)) :: chunkEvery n (l.drop (n - 1))
termination_by l => l.length
decreasing_by simp only [List.length_drop, List.length_cons]; omega

/-- The chunks of a stream make up the stream. -/
theorem flatten_chunkEvery {α : Type} (n : ℕ) (l : List α) : (chunkEvery n l).flatten = l := by
  induction l using chunkEvery.induct n with
  | case1 => simp [chunkEvery]
  | case2 a l ih => rw [chunkEvery, List.flatten_cons, ih, List.cons_append, List.take_append_drop]

/-- `Enum.uniq`: of equal elements, the first one. -/
def uniq {α : Type} [DecidableEq α] (l : List α) : List α := l.reverse.dedup.reverse

theorem nodup_uniq {α : Type} [DecidableEq α] (l : List α) : (uniq l).Nodup :=
  List.nodup_reverse.2 (List.nodup_dedup _)

theorem mem_uniq {α : Type} [DecidableEq α] {l : List α} {a : α} : a ∈ uniq l ↔ a ∈ l := by
  rw [uniq, List.mem_reverse, List.mem_dedup, List.mem_reverse]

/-- An order in which the keys of a map are listed. -/
structure KeyOrder (α : Type) where
  /-- The keys, in this order. -/
  list : List α → List α
  perm : ∀ l, (list l).Perm l

namespace KeyOrder

variable {α : Type} (o : KeyOrder α)

@[simp] theorem mem_list {l : List α} {a : α} : a ∈ o.list l ↔ a ∈ l := (o.perm l).mem_iff

/-- The keys in the order they are stored in. -/
def stored : KeyOrder α := ⟨id, fun _ => .refl _⟩

end KeyOrder

/-- What a callback ends in, with what it has done: a reply and the next state, the
    next state, a stop, or an error raised, which ends the process. -/
inductive Outcome (σ ρ ε : Type)
  | reply (r : ρ) (s : σ) (out : List ε)
  | noreply (s : σ) (out : List ε)
  | stop (reason : ExitReason) (s : σ) (out : List ε)
  | raise (e : Exn) (out : List ε)

namespace Outcome

variable {σ ρ ε τ δ : Type}

/-- What the callback has done. -/
def out : Outcome σ ρ ε → List ε
  | reply _ _ o | noreply _ o | stop _ _ o | raise _ o => o

/-- The state the process goes on with, if it does. -/
def next : Outcome σ ρ ε → Option σ
  | reply _ s _ | noreply s _ => some s
  | stop .. | raise .. => none

/-- The reply of a call, if there is one. -/
def answer : Outcome σ ρ ε → Option ρ
  | reply r _ _ => some r
  | noreply .. | stop .. | raise .. => none

/-- The reason the process exits with, if it does not go on. -/
def exitReason : Outcome σ ρ ε → ExitReason
  | reply .. | noreply .. => .normal
  | stop reason .. => reason
  | raise e _ => .raised e

/-- The outcome with its state and its effects translated. -/
def map (f : σ → τ) (g : ε → δ) : Outcome σ ρ ε → Outcome τ ρ δ
  | reply r s o => reply r (f s) (o.map g)
  | noreply s o => noreply (f s) (o.map g)
  | stop r s o => stop r (f s) (o.map g)
  | raise e o => raise e (o.map g)

@[simp] theorem next_map (f : σ → τ) (g : ε → δ) (o : Outcome σ ρ ε) :
    (o.map f g).next = o.next.map f := by
  cases o <;> rfl

end Outcome

end Lib.Elixir

import Mathlib.Data.List.Nodup
import Sylph.Lib.Elixir

/-!
# Ecto

The part of the database library the translated modules rest on.

* `Changeset`: the changes cast from parameters, kept as the struct they are about and the
  struct they make of it, with the errors found by the validations. A validation of a
  field is about its value after the changes (`validateRequired`), or about the changes
  only (`validateInclusion`, `validateNumber`).
* `Table`: rows that are unique under their keys, with the rows found after each write
  (`find_insert`, `find_set`).
* `Repo`: the operations on a table, by the schema of its rows (`Schema`). An invalid
  changeset is given back, with the table unchanged; a constraint of the table that is
  violated is an error of the changeset if it has been declared there, and raised if not.

Assumed of the package, and taken from its documentation:

* *casts*: a parameter that is absent changes nothing, and one that is among the `empty_values`
  stands for the default of its field (`Field.castValue`);
* *required fields*: `validate_required` looks at the values after the changes, and drops the
  changes of the fields that are missing (`Changeset.validateRequired`);
* *validations*: the others look at the fields that are changed only, and a cast to the value a
  field has is no change (`Changeset.validateChange`);
* *invalid changesets*: they are given back by `Repo.insert` and `Repo.update`, without a query;
* *writes*: an insert stores the whole struct, an update the changed fields of the row of its key
  (`Schema`, `Changeset.written`);
* *constraints*: the unique index is the only one that can be violated, and it is violated by an
  insert under a key that is taken; what its violation is depends on the declaration of the
  constraint in the changeset (`Repo.violation`);
* *queries*: `Repo.get_by` raises for a field that the schema does not have, and where there is
  more than one row (`Repo.getBy`);
* *isolation*: an operation is one step.
-/

namespace Lib.Ecto

open Elixir

/-! ## Fields -/

/-- The characters that are white space. -/
def isWhite (c : Char) : Bool :=
  (9 ≤ c.val ∧ c.val ≤ 13) ∨
    c.val ∈ [0x20, 0x85, 0xA0, 0x1680, 0x2028, 0x2029, 0x202F, 0x205F, 0x3000] ∨
    (0x2000 ≤ c.val ∧ c.val ≤ 0x200A)

/-- A string without anything but white space. -/
def isBlank (s : String) : Bool := s.toList.all isWhite

/-- A field of the structs `S`: its values are in `α`, or `nil`. -/
structure Field (S α : Type) where
  name : Atom
  get : S → Option α
  set : Option α → S → S
  /-- The value in a new struct, which a cast stores in place of an empty one, too. -/
  default : Option α
  /-- The values a cast takes for empty. -/
  empty : α → Bool

/-- The field has no value, or an empty one. -/
def Field.missing {S α : Type} (f : Field S α) (s : S) : Bool := (f.get s).all f.empty

theorem Field.exists_of_missing {S α : Type} {f : Field S α} {s : S}
    (h : f.missing s = false) : ∃ v, f.get s = some v := by
  rw [missing] at h
  rcases hv : f.get s with _ | v
  · rw [hv] at h
    exact absurd h.symm Bool.false_ne_true
  · exact ⟨v, rfl⟩

/-- The value a cast makes of the current one: a parameter that is absent leaves it alone, an
    empty one stands for the default. -/
def Field.castValue {S α : Type} (f : Field S α) (current : Option α) :
    Option (Option α) → Option α
  | none => current
  | some v => if v.any f.empty then f.default else v

theorem Field.castValue_some {S α : Type} {f : Field S α} {v : α} (h : f.empty v = false)
    (current : Option α) : f.castValue current (some (some v)) = some v := by
  rw [castValue, Option.any_some, h]
  rfl

/-! ## Changesets -/

/-- An error, and the field it is about. -/
abbrev Error := Atom × String

/-- A changeset: the struct it is about, and the struct with the changes. A field is changed
    if it differs in the two. -/
structure Changeset (S : Type) where
  data : S
  applied : S
  errors : List Error
  /-- The constraints of the table declared as errors. -/
  constraints : List (Atom × Error)

namespace Changeset

variable {S α : Type}

/-- The changeset of a struct, without changes. -/
def change (s : S) : Changeset S := ⟨s, s, [], []⟩

/-- `get_field` -/
def getField (c : Changeset S) (f : Field S α) : Option α := f.get c.applied

/-- `add_error` -/
def addError (c : Changeset S) (field : Atom) (message : String) : Changeset S :=
  { c with errors := (field, message) :: c.errors }

/-- `cast`, of a field. -/
def cast (c : Changeset S) (f : Field S α) (param : Option (Option α)) : Changeset S :=
  { c with applied := f.set (f.castValue (f.get c.applied) param) c.applied }

/-- What `validate_required` needs to know of a field. -/
structure Required (S : Type) where
  name : Atom
  missing : S → Bool
  /-- The second struct, without a change of the field of the first one. -/
  reset : S → S → S

/-- A required field. -/
def required (f : Field S α) : Required S where
  name := f.name
  missing := f.missing
  reset data s := f.set (f.get data) s

/-- `validate_required`: the changes of the fields that are missing are dropped. -/
def validateRequired (c : Changeset S) (fields : List (Required S)) : Changeset S :=
  let missing := fields.filter fun f => f.missing c.applied && c.errors.all fun e => e.1 ≠ f.name
  { c with
    applied := missing.foldl (fun s f => f.reset c.data s) c.applied
    errors := (missing.map fun f => (f.name, "can't be blank")) ++ c.errors }

/-- `validate_change`: the errors of a value the field is changed to. -/
def validateChange [DecidableEq α] (c : Changeset S) (f : Field S α) (validator : α → List String) :
    Changeset S :=
  match f.get c.applied with
  | none => c
  | some v =>
    if f.get c.data = some v then c
    else { c with errors := (validator v).map (fun m => (f.name, m)) ++ c.errors }

/-- `validate_inclusion`: the value is one of those given. -/
def validateInclusion [DecidableEq α] (c : Changeset S) (f : Field S α) (values : List α) :
    Changeset S :=
  c.validateChange f fun v => if v ∈ values then [] else ["is invalid"]

/-- A bound of `validate_number`. -/
inductive Bound
  | greaterThanOrEqualTo (n : ℤ)
  | lessThanOrEqualTo (n : ℤ)

/-- Whether a value keeps a bound. -/
def Bound.holds (v : ℤ) : Bound → Bool
  | greaterThanOrEqualTo n => n ≤ v
  | lessThanOrEqualTo n => v ≤ n

/-- The message of a bound that does not hold. -/
def Bound.message : Bound → String
  | greaterThanOrEqualTo n => "must be greater than or equal to " ++ toString n
  | lessThanOrEqualTo n => "must be less than or equal to " ++ toString n

/-- `validate_number`: the error of the first bound that does not hold. -/
def validateNumber (c : Changeset S) (f : Field S ℤ) (bounds : List Bound) : Changeset S :=
  c.validateChange f fun v => ((bounds.find? fun b => !b.holds v).map Bound.message).toList

/-- `unique_constraint` -/
def uniqueConstraint (c : Changeset S) (constraint field : Atom) : Changeset S :=
  { c with constraints := (constraint, field, "has already been taken") :: c.constraints }

/-- The value of a field in a row that holds the value `v`, after an update: the one it is
    changed to, if it is. -/
def written [DecidableEq α] (c : Changeset S) (f : Field S α) (v : Option α) : Option α :=
  if f.get c.applied = f.get c.data then v else f.get c.applied

theorem written_of_ne [DecidableEq α] {c : Changeset S} {f : Field S α}
    (h : f.get c.applied ≠ f.get c.data) (v : Option α) : c.written f v = f.get c.applied :=
  if_neg h

/-- A row as it has been loaded gets the values of the changes. -/
theorem written_self [DecidableEq α] {c : Changeset S} {f : Field S α} {v : Option α}
    (h : f.get c.data = v) : c.written f v = f.get c.applied := by
  by_cases hc : f.get c.applied = f.get c.data
  · rw [written, if_pos hc, hc, h]
  · exact written_of_ne hc v

theorem eq_of_written_self [DecidableEq α] {c : Changeset S} {f : Field S α} {x y z : α}
    (hw : some z = c.written f (some x)) (h : f.get c.data = some x)
    (ha : f.get c.applied = some y) : z = y :=
  Option.some_inj.1 ((hw.trans (written_self h)).trans ha)

/-- A value that is written is the one of the row, or the one of the changes: it has the
    properties of both. -/
theorem exists_written [DecidableEq α] {c : Changeset S} {f : Field S α} {x y : α}
    {P : α → Prop} (h : f.get c.applied = some y) (hx : P x) (hy : P y) :
    ∃ z, c.written f (some x) = some z ∧ P z := by
  by_cases hc : f.get c.applied = f.get c.data
  · exact ⟨x, if_pos hc, hx⟩
  · exact ⟨y, (written_of_ne hc _).trans h, hy⟩

/-! ### Errors stay -/

theorem suffix_validateChange [DecidableEq α] (c : Changeset S) (f : Field S α)
    (validator : α → List String) : c.errors <:+ (c.validateChange f validator).errors := by
  rw [validateChange]
  rcases f.get c.applied with _ | v
  · exact List.suffix_refl _
  · by_cases hd : f.get c.data = some v
    · simp only [if_pos hd]
      exact List.suffix_refl _
    · simp only [if_neg hd]
      exact List.suffix_append _ _

theorem errors_eq_nil_of_suffix {c c' : Changeset S} (hs : c.errors <:+ c'.errors)
    (h : c'.errors = []) : c.errors = [] := by
  rw [h] at hs
  exact List.suffix_nil.1 hs

/-- A required field that is missing is an error. -/
theorem errors_validateRequired_ne_nil {c : Changeset S} {fields : List (Required S)}
    {f : Required S} (hf : f ∈ fields) (hm : f.missing c.applied = true) :
    (c.validateRequired fields).errors ≠ [] := by
  intro h
  obtain ⟨hl, he⟩ := List.append_eq_nil_iff.1 h
  have hn := List.filter_eq_nil_iff.1 (List.map_eq_nil_iff.1 hl) f hf
  rw [hm, he] at hn
  exact hn rfl

/-! ### Validations that find nothing -/

theorem validateRequired_of {c : Changeset S} {fields : List (Required S)}
    (h : ∀ f ∈ fields, f.missing c.applied = false) : c.validateRequired fields = c := by
  have hf : fields.filter (fun f => f.missing c.applied && c.errors.all fun e => e.1 ≠ f.name) =
      [] := List.filter_eq_nil_iff.2 fun f hf => by simp [h f hf]
  rw [validateRequired, hf]
  rfl

/-- Where no error is found, all required fields are there. -/
theorem validateRequired_of_errors {c : Changeset S} {fields : List (Required S)}
    (h : (c.validateRequired fields).errors = []) :
    c.validateRequired fields = c ∧ ∀ f ∈ fields, f.missing c.applied = false := by
  have hm : ∀ f ∈ fields, f.missing c.applied = false := fun f hf => by
    by_contra hn
    exact errors_validateRequired_ne_nil hf (Bool.of_not_eq_false hn) h
  exact ⟨validateRequired_of hm, hm⟩

theorem applied_validateChange [DecidableEq α] (c : Changeset S) (f : Field S α)
    (validator : α → List String) : (c.validateChange f validator).applied = c.applied := by
  rw [validateChange]
  rcases f.get c.applied with _ | v
  · rfl
  · by_cases hd : f.get c.data = some v
    · simp only [if_pos hd]
    · simp only [if_neg hd]

/-- Where no error is found, a value is as it was, or as it should be. -/
theorem of_errors_validateChange [DecidableEq α] {c : Changeset S} {f : Field S α}
    {validator : α → List String} (h : (c.validateChange f validator).errors = []) {v : α}
    (hv : f.get c.applied = some v) : f.get c.data = some v ∨ validator v = [] := by
  simp only [validateChange, hv] at h
  split at h
  · exact .inl ‹_›
  · exact .inr (List.map_eq_nil_iff.1 (List.append_eq_nil_iff.1 h).1)

theorem validateChange_of [DecidableEq α] {c : Changeset S} {f : Field S α}
    {validator : α → List String} (h : ∀ v, f.get c.applied = some v → validator v = []) :
    c.validateChange f validator = c := by
  rw [validateChange]
  rcases hv : f.get c.applied with _ | v
  · rfl
  · by_cases hd : f.get c.data = some v
    · exact if_pos hd
    · simp only [if_neg hd, h v hv]
      rfl

theorem validateInclusion_of [DecidableEq α] {c : Changeset S} {f : Field S α} {values : List α}
    (h : ∀ v, f.get c.applied = some v → v ∈ values) : c.validateInclusion f values = c :=
  validateChange_of fun v hv => if_pos (h v hv)

theorem validateNumber_of {c : Changeset S} {f : Field S ℤ} {bounds : List Bound}
    (h : ∀ v, f.get c.applied = some v → ∀ b ∈ bounds, b.holds v = true) :
    c.validateNumber f bounds = c := by
  refine validateChange_of fun v hv => ?_
  have hb : bounds.find? (fun b => !b.holds v) = none :=
    List.find?_eq_none.2 fun b hb => by simp [h v hv b hb]
  rw [hb]
  rfl

end Changeset

/-! ## Tables -/

/-- Rows that are unique under their keys. -/
structure Table {R K : Type} (key : R → K) where
  rows : List R
  nodup : (rows.map key).Nodup

namespace Table

variable {R K : Type} {key : R → K}

/-- The table without rows. -/
def empty : Table key := ⟨[], List.nodup_nil⟩

variable [DecidableEq K]

/-- The row under a key. -/
def find (t : Table key) (k : K) : Option R := t.rows.find? fun r => key r = k

theorem mem_of_find {t : Table key} {k : K} {r : R} (h : t.find k = some r) :
    r ∈ t.rows ∧ key r = k :=
  ⟨List.mem_of_find?_eq_some h, of_decide_eq_true (List.find?_some (p := fun r => key r = k) h)⟩

theorem key_of_find {t : Table key} {k : K} {r : R} (h : t.find k = some r) : key r = k :=
  (mem_of_find h).2

theorem ne_of_find_none {t : Table key} {k : K} (h : t.find k = none) {r : R} (hr : r ∈ t.rows) :
    key r ≠ k := fun hk => List.find?_eq_none.1 h r hr (decide_eq_true hk)

/-- The rows of a table are found under their keys. -/
theorem find_of_mem {t : Table key} {r : R} (h : r ∈ t.rows) : t.find (key r) = some r := by
  rcases hf : t.find (key r) with _ | r'
  · exact absurd rfl (ne_of_find_none hf h)
  · obtain ⟨hm, hk⟩ := mem_of_find hf
    rw [List.inj_on_of_nodup_map t.nodup hm h hk]

/-- A table has at most one row under a key. -/
theorem filter_key (t : Table key) (k : K) :
    (t.rows.filter fun r => key r = k) = (t.find k).toList := by
  obtain ⟨rows, hn⟩ := t
  rw [find]
  induction rows with
  | nil => rfl
  | cons r rows ih =>
    obtain ⟨hr, hn⟩ := List.nodup_cons.1 hn
    rw [List.filter_cons, List.find?_cons]
    by_cases hk : key r = k
    · have he : (rows.filter fun r => key r = k) = [] :=
        List.filter_eq_nil_iff.2 fun r' hr' h =>
          hr (List.mem_map.2 ⟨r', hr', (of_decide_eq_true h).trans hk.symm⟩)
      rw [if_pos (decide_eq_true hk), he, decide_eq_true hk]
      rfl
    · rw [if_neg (by simpa using hk), decide_eq_false hk]
      exact ih hn

/-- The table with a row under a new key. -/
def insert (t : Table key) (r : R) (h : t.find (key r) = none) : Table key where
  rows := t.rows ++ [r]
  nodup := by
    rw [List.map_append, List.map_singleton]
    refine List.nodup_append.2 ⟨t.nodup, List.nodup_singleton (key r), ?_⟩
    intro k hk k' hk'
    obtain ⟨r', hr', rfl⟩ := List.mem_map.1 hk
    obtain rfl := List.mem_singleton.1 hk'
    exact ne_of_find_none h hr'

/-- The table with a row in place of the one under its key. -/
def set (t : Table key) (r : R) : Table key where
  rows := t.rows.map fun r' => if key r' = key r then r else r'
  nodup := by
    have h : (t.rows.map fun r' => if key r' = key r then r else r').map key = t.rows.map key := by
      rw [List.map_map]
      refine List.map_congr_left fun r' _ => ?_
      by_cases hk : key r' = key r
      · rw [Function.comp_apply, if_pos hk, hk]
      · rw [Function.comp_apply, if_neg hk]
    rw [h]
    exact t.nodup

theorem find_insert (t : Table key) (r : R) (h : t.find (key r) = none) (k : K) :
    (t.insert r h).find k = if key r = k then some r else t.find k := by
  rw [find, insert, List.find?_append, ← find]
  by_cases hk : key r = k
  · subst hk
    rw [h, if_pos rfl, List.find?_singleton, if_pos (decide_eq_true rfl)]
    rfl
  · rw [if_neg hk, List.find?_singleton, if_neg (by simpa using hk), Option.or_none]

theorem find_set (t : Table key) (r : R) (k : K) :
    (t.set r).find k = if key r = k then (t.find k).map fun _ => r else t.find k := by
  have hc : ∀ r', key (if key r' = key r then r else r') = key r' := by
    intro r'
    by_cases h : key r' = key r
    · rw [if_pos h, h]
    · rw [if_neg h]
  rw [find, set, List.find?_map]
  have hp : ((fun r => decide (key r = k)) ∘ fun r' => if key r' = key r then r else r') =
      fun r' => decide (key r' = k) := by
    funext r'
    rw [Function.comp_apply, hc]
  rw [hp, ← find]
  by_cases hk : key r = k
  · rw [if_pos hk]
    rcases hf : t.find k with _ | r'
    · rfl
    · rw [Option.map_some, Option.map_some, if_pos ((key_of_find hf).trans hk.symm)]
  · rw [if_neg hk]
    rcases hf : t.find k with _ | r'
    · rfl
    · rw [Option.map_some, if_neg fun h => hk (h.symm.trans (key_of_find hf))]

end Table

/-! ## The repository -/

/-- How the database stores the structs `S`: as rows `R`, under the keys `K`. The rows carry
    what their columns demand, so that a struct that does not meet it cannot be stored. -/
structure Schema (S R K : Type) where
  key : R → K
  /-- The name of the unique index on the keys. -/
  constraint : Atom
  /-- The row of a new struct. -/
  store : S → Except Exn R
  /-- A row, with the changes of a changeset; the key stays. -/
  write : Changeset S → R → Except Exn R

/-- What an operation ends in: a struct, an invalid changeset, or an error raised. -/
inductive Written (S : Type)
  | ok (s : S)
  | error (c : Changeset S)
  | raise (e : Exn)

namespace Repo

variable {S R K : Type} (schema : Schema S R K) [DecidableEq K]

/-- The error of a constraint of the table that is violated. -/
def violation (constraint : Atom) (c : Changeset S) : Written S :=
  match c.constraints.lookup constraint with
  | some e => .error { c with errors := e :: c.errors }
  | none => .raise (.exception "Elixir.Ecto.ConstraintError")

/-- `Repo.insert` -/
def insert (c : Changeset S) (t : Table schema.key) : Written S × Table schema.key :=
  if c.errors ≠ [] then
    (.error c, t)
  else
    match schema.store c.applied with
    | .error e => (.raise e, t)
    | .ok r =>
      if h : t.find (schema.key r) = none then
        (.ok c.applied, t.insert r h)
      else
        (violation schema.constraint c, t)

/-- `Repo.update`, of the row under the key `k`; without changes, there is nothing to do. -/
def update [DecidableEq S] (k : K) (c : Changeset S) (t : Table schema.key) :
    Written S × Table schema.key :=
  if c.errors ≠ [] then
    (.error c, t)
  else if c.applied = c.data then
    (.ok c.data, t)
  else
    match t.find k with
    | none => (.raise (.exception "Elixir.Ecto.StaleEntryError"), t)
    | some r =>
      match schema.write c r with
      | .error e => (.raise e, t)
      | .ok r' => (.ok c.applied, t.set r')

/-- `Repo.get_by(schema, field: n)`, for the integer fields that the schema has. -/
def getBy (fields : List (Atom × (R → Option ℤ))) (field : Atom) (n : ℤ) (rows : List R) :
    Except Exn (Option R) :=
  match fields.lookup field with
  | none => .error (.exception "Elixir.Ecto.QueryError")
  | some f =>
    match rows.filter fun r => f r = some n with
    | [] => .ok none
    | [r] => .ok (some r)
    | _ => .error (.exception "Elixir.Ecto.MultipleResultsError")

/-- `Repo.insert_or_update`, of a changeset of a struct that has not been loaded. -/
def insertOrUpdate (c : Changeset S) (t : Table schema.key) : Written S × Table schema.key :=
  insert schema c t

theorem insert_of_invalid {c : Changeset S} (t : Table schema.key) (h : c.errors ≠ []) :
    insert schema c t = (.error c, t) := if_pos h

/-- A valid changeset with a new key is inserted. -/
theorem insert_of_find_none {c : Changeset S} {t : Table schema.key} {r : R} (hc : c.errors = [])
    (hr : schema.store c.applied = .ok r) (ht : t.find (schema.key r) = none) :
    ∃ t', insert schema c t = (.ok c.applied, t') ∧
      ∀ k, t'.find k = if schema.key r = k then some r else t.find k := by
  refine ⟨t.insert r ht, ?_, t.find_insert r ht⟩
  rw [insert, if_neg (not_not.2 hc), hr]
  exact dif_pos ht

/-- A key that is there violates the index. -/
theorem insert_of_find_some {c : Changeset S} {t : Table schema.key} {r r' : R}
    (hc : c.errors = []) (hr : schema.store c.applied = .ok r)
    (ht : t.find (schema.key r) = some r') :
    insert schema c t = (violation schema.constraint c, t) := by
  rw [insert, if_neg (not_not.2 hc), hr]
  exact dif_neg (ht ▸ Option.some_ne_none r')

/-- Without a row under the key, nothing is written. -/
theorem update_of_find_none [DecidableEq S] (c : Changeset S) {t : Table schema.key} {k : K}
    (ht : t.find k = none) : (update schema k c t).2 = t := by
  rw [update, ht]
  split
  · rfl
  · split <;> rfl

theorem update_of_unchanged [DecidableEq S] {c : Changeset S} (t : Table schema.key) (k : K)
    (hc : c.errors = []) (h : c.applied = c.data) : update schema k c t = (.ok c.data, t) := by
  rw [update, if_neg (not_not.2 hc), if_pos h]

/-- A valid changeset with changes is written to the row under the key. -/
theorem update_of_find_some [DecidableEq S] {c : Changeset S} {t : Table schema.key} {k : K}
    {r r' : R} (hc : c.errors = []) (hn : c.applied ≠ c.data) (ht : t.find k = some r)
    (hr : schema.write c r = .ok r') (hk : schema.key r' = k) :
    ∃ t', update schema k c t = (.ok c.applied, t') ∧
      ∀ k', t'.find k' = if k = k' then some r' else t.find k' := by
  refine ⟨t.set r', ?_, fun k' => ?_⟩
  · rw [update, if_neg (not_not.2 hc), if_neg hn, ht]
    simp only [hr]
  · rw [Table.find_set, hk]
    by_cases h : k = k'
    · rw [if_pos h, if_pos h, ← h, ht]
      rfl
    · rw [if_neg h, if_neg h]

theorem getBy_of_lookup_none {fields : List (Atom × (R → Option ℤ))} {field : Atom}
    (h : fields.lookup field = none) (n : ℤ) (rows : List R) :
    getBy fields field n rows = .error (.exception "Elixir.Ecto.QueryError") := by
  rw [getBy, h]

/-- The field that is the key finds the row under it. -/
theorem getBy_key (key : R → ℤ) {fields : List (Atom × (R → Option ℤ))} {field : Atom}
    (h : fields.lookup field = some fun r => some (key r)) (n : ℤ) (t : Table key) :
    getBy fields field n t.rows = .ok (t.find n) := by
  have hf : (t.rows.filter fun r => some (key r) = some n) = (t.find n).toList := by
    rw [← t.filter_key]
    exact List.filter_congr fun r _ => decide_eq_decide.2 Option.some_inj
  rw [getBy, h]
  simp only [hf]
  rcases t.find n with _ | r <;> rfl

end Repo

end Lib.Ecto

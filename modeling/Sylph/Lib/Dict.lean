import Mathlib.Data.List.AList

/-!
# Dictionaries

Finite maps as Mathlib's association lists, with the values they hold as a list:
storing under a new key adds a value, deleting a bound key takes its value out.
`mapVal` changes the values and keeps the keys, and commutes with every
operation, so that a program that only moves values around can be read on
annotated values.
-/

namespace Lib

variable {α β γ : Type*}

/-- A finite map from `α` to `β`. -/
abbrev Dict (α β : Type*) := AList fun _ : α => β

namespace Dict

/-- The values held by `d`. -/
def values (d : Dict α β) : List β := d.entries.map Sigma.snd

@[simp] theorem values_empty : values (∅ : Dict α β) = [] := rfl

/-- The number of keys of `d`. -/
def size (d : Dict α β) : ℕ := d.entries.length

@[simp] theorem length_keys (d : Dict α β) : d.keys.length = size d := List.length_map _

@[simp] theorem length_values (d : Dict α β) : (values d).length = size d := List.length_map _

/-- `d` with the values changed by `f`. -/
def mapVal (f : β → γ) (d : Dict α β) : Dict α γ where
  entries := d.entries.map fun e => ⟨e.1, f e.2⟩
  nodupKeys := by
    have h : (d.entries.map fun e => (⟨e.1, f e.2⟩ : (_ : α) × γ)).keys = d.entries.keys := by
      simp [List.keys, Function.comp_def]
    rw [List.NodupKeys, h]
    exact d.nodupKeys

@[simp] theorem keys_mapVal (f : β → γ) (d : Dict α β) : (mapVal f d).keys = d.keys := by
  simp [AList.keys, mapVal, List.keys, Function.comp_def]

@[simp] theorem size_mapVal (f : β → γ) (d : Dict α β) : size (mapVal f d) = size d :=
  List.length_map _

variable [DecidableEq α]

@[simp] theorem lookup_mapVal (f : β → γ) (d : Dict α β) (a : α) :
    (mapVal f d).lookup a = (d.lookup a).map f := by
  obtain ⟨l, hl⟩ := d
  simp only [AList.lookup, mapVal]
  induction l with
  | nil => rfl
  | cons e l ih =>
    obtain ⟨b, v⟩ := e
    by_cases h : a = b
    · subst h; simp
    · simpa [h] using ih (List.nodupKeys_cons.1 hl).2

theorem entries_erase (d : Dict α β) (a : α) : (d.erase a).entries = d.entries.kerase a := rfl

@[simp] theorem mapVal_erase (f : β → γ) (d : Dict α β) (a : α) :
    mapVal f (d.erase a) = (mapVal f d).erase a := by
  obtain ⟨l, hl⟩ := d
  apply AList.ext
  simp only [entries_erase, mapVal]
  induction l with
  | nil => rfl
  | cons e l ih =>
    obtain ⟨b, v⟩ := e
    by_cases h : a = b
    · subst h; simp
    · simpa [h] using ih (List.nodupKeys_cons.1 hl).2

@[simp] theorem mapVal_insert (f : β → γ) (d : Dict α β) (a : α) (b : β) :
    mapVal f (d.insert a b) = (mapVal f d).insert a (f b) := by
  apply AList.ext
  have h := congrArg AList.entries (mapVal_erase f d a)
  simp only [entries_erase, mapVal] at h
  simpa only [AList.entries_insert, mapVal, List.map_cons, List.cons.injEq, true_and] using h

/-! ## Values -/

theorem values_insert_of_notMem {d : Dict α β} {a : α} (b : β) (h : a ∉ d) :
    values (d.insert a b) = b :: values d := by
  rw [values, AList.entries_insert_of_notMem h, List.map_cons, values]

/-- The value of a bound key, taken out by deleting the key. -/
theorem values_perm_of_lookup {d : Dict α β} {a : α} {b : β} (h : d.lookup a = some b) :
    (values d).Perm (b :: values (d.erase a)) := by
  have ha : a ∈ d.entries.keys := AList.lookup_isSome.1 (h ▸ rfl)
  obtain ⟨b', l₁, l₂, -, hl, he⟩ := List.exists_of_kerase ha
  have hb : b' ∈ d.lookup a := AList.mem_lookup_iff.2 (by rw [hl]; simp)
  obtain rfl : b = b' := Option.some_inj.1 (h.symm.trans hb)
  simp only [values, entries_erase, he]
  rw [hl]
  simp

theorem erase_of_lookup_none {d : Dict α β} {a : α} (h : d.lookup a = none) : d.erase a = d :=
  AList.ext (List.kerase_of_notMem_keys (AList.lookup_eq_none.1 h))

theorem size_insert_of_notMem {d : Dict α β} {a : α} (b : β) (h : a ∉ d) :
    size (d.insert a b) = size d + 1 := by
  rw [size, AList.entries_insert_of_notMem h, List.length_cons, size]

theorem size_erase_of_mem {d : Dict α β} {a : α} (h : a ∈ d) :
    size (d.erase a) + 1 = size d := by
  obtain ⟨b, hb⟩ := Option.isSome_iff_exists.1 (AList.lookup_isSome.2 h)
  rw [← length_values, ← length_values, (values_perm_of_lookup hb).length_eq, List.length_cons]

theorem size_erase_le (d : Dict α β) (a : α) : size (d.erase a) ≤ size d := by
  by_cases h : a ∈ d
  · exact Nat.le_of_lt (Nat.lt_of_succ_le (Nat.le_of_eq (size_erase_of_mem h)))
  · rw [erase_of_lookup_none (AList.lookup_eq_none.2 h)]

/-- Storing a value adds at most one key. -/
theorem size_insert_le (d : Dict α β) (a : α) (b : β) : size (d.insert a b) ≤ size d + 1 := by
  have he : size (d.insert a b) = size (d.erase a) + 1 := by
    rw [size, AList.entries_insert, List.length_cons, size, entries_erase]
  rw [he]
  exact Nat.succ_le_succ (size_erase_le d a)

theorem mem_of_lookup {d : Dict α β} {a : α} {b : β} (h : d.lookup a = some b) : a ∈ d :=
  AList.lookup_isSome.1 (h ▸ rfl)

theorem mem_values_of_lookup {d : Dict α β} {a : α} {b : β} (h : d.lookup a = some b) :
    b ∈ values d :=
  (values_perm_of_lookup h).symm.subset List.mem_cons_self

end Dict

end Lib

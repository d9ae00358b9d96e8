import Sylph.Schema.ChainSyncStatus

/-!
# Sync statuses that are reloaded

A sync status that has been accepted is stored, loaded, and given to the changeset again.
Ranges are accepted under atom keys only, and come back under string keys.

* `errors_of_inOrder`: where the required fields, the status and the heights are in order, only
  the ranges decide.
* `exists_store_of_accepted`: what is accepted is stored.
* `reload_accepted_iff`: what has been loaded is accepted, with such further parameters, if
  and only if these give ranges of their own that are, or no ranges had been stored.
-/

namespace Sylph.Schema

open Lib Elixir Ecto

namespace ChainSyncStatus

/-- The required fields are there, with a valid status and heights in order. -/
structure InOrder (s : ChainSyncStatus) : Prop where
  required : ∀ f ∈ requiredFields, f.missing s = false
  status : ∀ v, s.syncStatus = some v → v ∈ validStatuses
  heights : ∃ earliest safe latest, s.earliestBlockNumber = some earliest ∧
    s.safeBlockNumber = some safe ∧ s.latestBlockNumber = some latest ∧
    earliest ≤ safe ∧ safe ≤ latest

/-- The ranges are accepted. -/
def RangesValid : Option (List RangeMap) → Prop
  | none => True
  | some ranges => ranges.all validSyncRange

/-- The ranges of a struct after a cast. -/
def rangesAfter (status : ChainSyncStatus) (attrs : Attrs) : Option (List RangeMap) :=
  syncingRangesField.castValue status.syncingRanges attrs.syncingRanges

/-! ## What is accepted -/

theorem validateBlockNumbers_of {c : Changeset ChainSyncStatus} (h : c.applied.InOrder) :
    validateBlockNumbers c = c := by
  obtain ⟨earliest, safe, latest, he, hs, hl, hle⟩ := h.heights
  have he' : c.getField earliestBlockNumberField = some earliest := he
  have hs' : c.getField safeBlockNumberField = some safe := hs
  have hl' : c.getField latestBlockNumberField = some latest := hl
  rw [validateBlockNumbers, he', hs', hl']
  exact if_pos hle

theorem errors_validateSyncingRanges {c : Changeset ChainSyncStatus} (h : c.errors = []) :
    (validateSyncingRanges c).errors = [] ↔ RangesValid c.applied.syncingRanges := by
  have hg : c.getField syncingRangesField = c.applied.syncingRanges := rfl
  rw [validateSyncingRanges, hg]
  rcases c.applied.syncingRanges with _ | ranges
  · exact iff_of_true h trivial
  · by_cases hv : ranges.all validSyncRange = true
    · simp [RangesValid, hv, h]
    · simp [RangesValid, hv, Changeset.addError]

/-- Where all else is in order, the ranges decide. -/
theorem errors_of_inOrder {status : ChainSyncStatus} {attrs : Attrs}
    (h : (castAttrs status attrs).applied.InOrder) :
    (changeset status attrs).errors = [] ↔ RangesValid (rangesAfter status attrs) := by
  rw [changeset, Changeset.validateRequired_of h.required,
    Changeset.validateInclusion_of h.status, validateBlockNumbers_of h]
  exact errors_validateSyncingRanges rfl

/-! ## What comes back -/

/-- The keys of a map that comes back are strings. -/
theorem lookup_atom_stored (range : RangeMap) (a : Atom) :
    (RangeMap.stored range).lookup (.atom a) = none := by
  induction range with
  | nil => rfl
  | cons e range ih =>
    obtain ⟨b | s, v⟩ := e <;> exact ih

/-- A range that comes back is not valid, whatever it was. -/
theorem validSyncRange_stored (range : RangeMap) :
    validSyncRange (RangeMap.stored range) = false := by
  rw [validSyncRange, lookup_atom_stored]

/-- Ranges that come back are accepted if and only if there are none. -/
theorem rangesValid_stored (ranges : Option (List RangeMap)) :
    RangesValid (ranges.map fun ranges => ranges.map RangeMap.stored) ↔ ranges.getD [] = [] := by
  rcases ranges with _ | _ | ⟨range, ranges⟩
  · simp [RangesValid]
  · simp [RangesValid]
  · simp [RangesValid, validSyncRange_stored]

theorem syncingRanges_of_store {now : ℤ} {s : ChainSyncStatus} {r : Row}
    (h : store now s = .ok r) :
    r.syncingRanges = s.syncingRanges.map fun ranges => ranges.map RangeMap.stored := by
  rw [store] at h
  split at h
  · split at h
    · cases h
      rfl
    · exact absurd h nofun
  · exact absurd h nofun

/-! ## What has been accepted -/

theorem applied_validateBlockNumbers (c : Changeset ChainSyncStatus) :
    (validateBlockNumbers c).applied = c.applied := by
  rw [validateBlockNumbers]
  split
  · split <;> rfl
  · rfl

theorem applied_validateSyncingRanges (c : Changeset ChainSyncStatus) :
    (validateSyncingRanges c).applied = c.applied := by
  rw [validateSyncingRanges]
  split
  · rfl
  · split <;> rfl

theorem heights_of_errors {c : Changeset ChainSyncStatus}
    (h : (validateBlockNumbers c).errors = []) :
    ∃ earliest safe latest, c.applied.earliestBlockNumber = some earliest ∧
      c.applied.safeBlockNumber = some safe ∧ c.applied.latestBlockNumber = some latest ∧
      earliest ≤ safe ∧ safe ≤ latest := by
  rw [validateBlockNumbers] at h
  split at h
  · rename_i earliest safe latest he hs hl
    split at h
    · exact ⟨earliest, safe, latest, he, hs, hl, ‹_›⟩
    · exact absurd h (List.cons_ne_nil _ _)
  · exact absurd h (List.cons_ne_nil _ _)

/-- A changeset that is accepted makes of the struct what the cast makes of it, and that is in
    order, for a struct with a valid status. -/
theorem inOrder_of_accepted {status : ChainSyncStatus} {attrs : Attrs}
    (h : (changeset status attrs).errors = []) :
    (changeset status attrs).applied = (castAttrs status attrs).applied ∧
      ((∀ v, status.syncStatus = some v → v ∈ validStatuses) →
        (castAttrs status attrs).applied.InOrder) := by
  -- Each validation only adds errors, so that none has found any, from the last to the first.
  have hb := Changeset.errors_eq_nil_of_suffix (suffix_validateSyncingRanges _) h
  have hi := Changeset.errors_eq_nil_of_suffix (suffix_validateBlockNumbers _) hb
  have hr := Changeset.errors_eq_nil_of_suffix
    (Changeset.suffix_validateChange _ syncStatusField _) hi
  obtain ⟨he, hm⟩ := Changeset.validateRequired_of_errors hr
  rw [he] at hi hb
  constructor
  · rw [changeset, applied_validateSyncingRanges, applied_validateBlockNumbers,
      Changeset.validateInclusion, Changeset.applied_validateChange, he]
  · intro hs
    have hh := heights_of_errors hb
    rw [Changeset.validateInclusion, Changeset.applied_validateChange] at hh
    refine ⟨hm, fun v hv => ?_, hh⟩
    -- A status that is not cast is that of the struct; one that is has been looked at.
    rcases Changeset.of_errors_validateChange hi hv with hd | hn
    · exact hs v hd
    · by_contra hne
      rw [if_neg hne] at hn
      exact absurd hn (List.cons_ne_nil _ _)

/-- What is in order can be stored. -/
theorem exists_store (now : ℤ) {s : ChainSyncStatus} (h : s.InOrder) :
    ∃ r, store now s = .ok r := by
  obtain ⟨earliest, safe, latest, he, hs, hl, hle⟩ := h.heights
  -- A column that may not be null is that of a required field.
  obtain ⟨name, hn⟩ := Field.exists_of_missing (f := chainNameField)
    (h.required (Changeset.required chainNameField) (by simp [requiredFields]))
  obtain ⟨hash, hh⟩ := Field.exists_of_missing (f := latestBlockHashField)
    (h.required (Changeset.required latestBlockHashField) (by simp [requiredFields]))
  obtain ⟨st, hst⟩ := Field.exists_of_missing (f := syncStatusField)
    (h.required (Changeset.required syncStatusField) (by simp [requiredFields]))
  have hv := h.status st hst
  change s.chainName = some name at hn
  change s.latestBlockHash = some hash at hh
  change s.syncStatus = some st at hst
  simp only [store, hn, hl, hh, he, hs, hst, dif_pos (And.intro hv hle)]
  exact ⟨_, rfl⟩

/-- What is accepted can be stored. -/
theorem exists_store_of_accepted (now : ℤ) {status : ChainSyncStatus} {attrs : Attrs}
    (hs : ∀ v, status.syncStatus = some v → v ∈ validStatuses)
    (ha : (changeset status attrs).errors = []) :
    ∃ r, store now (changeset status attrs).applied = .ok r := by
  obtain ⟨he, ho⟩ := inOrder_of_accepted ha
  rw [he]
  exact exists_store now (ho hs)

/-- A sync status that has been accepted, stored and loaded is accepted again, with parameters
    that keep all else in order, if and only if these give ranges of their own that are
    accepted, or there have been none. -/
theorem reload_accepted_iff (now : ℤ) (status : ChainSyncStatus) (attrs : Attrs) (r : Row)
    (attrs' : Attrs) (ha : (changeset status attrs).errors = [])
    (hr : store now (changeset status attrs).applied = .ok r)
    (ho : (castAttrs (load r) attrs').applied.InOrder) :
    (changeset (load r) attrs').errors = [] ↔
      (∃ given, attrs'.syncingRanges = some given ∧ RangesValid given) ∨
        attrs'.syncingRanges = none ∧ (rangesAfter status attrs).getD [] = [] := by
  have hs : (load r).syncingRanges =
      (rangesAfter status attrs).map fun ranges => ranges.map RangeMap.stored := by
    have := syncingRanges_of_store hr
    rw [(inOrder_of_accepted ha).1] at this
    exact this
  rw [errors_of_inOrder ho, rangesAfter, hs]
  rcases attrs'.syncingRanges with _ | given
  · -- The ranges are those that have come back.
    rw [Field.castValue, rangesValid_stored]
    simp
  · have he : syncingRangesField.castValue
        ((rangesAfter status attrs).map fun ranges => ranges.map RangeMap.stored) (some given) =
        given := by
      rcases given with _ | ranges <;> rfl
    rw [he]
    simp

/-- A status that syncs the blocks `1` and `2`. -/
def syncing : Attrs where
  chainName := some (some "ethereum")
  latestBlockNumber := some (some 9)
  latestBlockHash := some (some "0x09")
  earliestBlockNumber := some (some 0)
  safeBlockNumber := some (some 7)
  syncStatus := some (some "syncing")
  syncingRanges := some (some
    [[(.atom "start_block", .integer 1), (.atom "end_block", .integer 2)]])

/-- The struct that comes back. -/
def syncingStored : ChainSyncStatus where
  chainName := some "ethereum"
  latestBlockNumber := some 9
  latestBlockHash := some "0x09"
  earliestBlockNumber := some 0
  safeBlockNumber := some 7
  syncStatus := some "syncing"
  syncingRanges := some [[(.string "start_block", .integer 1), (.string "end_block", .integer 2)]]

theorem inOrder_syncingStored : syncingStored.InOrder where
  required := by
    simp only [requiredFields, List.forall_mem_cons]
    exact ⟨rfl, rfl, rfl, rfl, rfl, rfl, by simp⟩
  status v hv := by
    cases hv
    simp [validStatuses]
  heights := ⟨0, 7, 9, rfl, rfl, rfl, by decide, by decide⟩

theorem reload_accepted_iff_syncing : ∃ r, store 0 (changeset {} syncing).applied = .ok r ∧
    ((changeset (load r) {}).errors = [] ↔
      (∃ given, ({} : Attrs).syncingRanges = some given ∧ RangesValid given) ∨
        ({} : Attrs).syncingRanges = none ∧ (rangesAfter {} syncing).getD [] = []) :=
  ⟨_, rfl, reload_accepted_iff 0 {} syncing _ {} rfl rfl inOrder_syncingStored⟩

/-- Once stored with a range, a status is not accepted any more, even as it is. -/
theorem not_forall_reload_accepted : ¬∀ (now : ℤ) (status : ChainSyncStatus) (attrs : Attrs)
    (r : Row) (attrs' : Attrs), (changeset status attrs).errors = [] →
      store now (changeset status attrs).applied = .ok r →
      (castAttrs (load r) attrs').applied.InOrder → (changeset (load r) attrs').errors = [] := by
  intro h
  have ha : (changeset (load _) {}).errors = [] :=
    h 0 {} syncing _ {} rfl rfl inOrder_syncingStored
  exact absurd ha (List.cons_ne_nil _ _)

end ChainSyncStatus

end Sylph.Schema

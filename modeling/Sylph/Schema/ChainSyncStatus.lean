import Sylph.Lib.Ecto

/-!
# The sync status of a chain

`Core.Schema.ChainSyncStatus`: the struct and its changeset, and the rows of the table
`chain_sync_status`, one for each chain, with the constraints of the table.

A changeset needs the earliest block to be accepted: parameters without it are not, for
a struct that has none (`errors_changeset_ne_nil`).
-/

namespace Sylph.Schema

open Lib Elixir Ecto

/-- A key of a map: an atom, or a string where the map comes from the database. -/
inductive MapKey
  | atom (a : Atom)
  | string (s : String)
  deriving DecidableEq

/-- A value of a map. -/
inductive MapValue
  | integer (n : ℤ)
  | other (json : String)
  deriving DecidableEq

/-- A range, as a map with atoms or strings as keys. -/
abbrev RangeMap := List (MapKey × MapValue)

/-- The struct; its primary key is the name of the chain. -/
structure ChainSyncStatus where
  chainName : Option String := none
  latestBlockNumber : Option ℤ := none
  latestBlockHash : Option String := none
  earliestBlockNumber : Option ℤ := none
  earliestBlockHash : Option String := none
  safeBlockNumber : Option ℤ := none
  syncStatus : Option String := none
  errorMessage : Option String := none
  syncingRanges : Option (List RangeMap) := some []
  deriving DecidableEq

namespace ChainSyncStatus

/-! ## Fields -/

/-- The field `chain_name`. -/
def chainNameField : Field ChainSyncStatus String :=
  ⟨"chain_name", chainName, fun v s => { s with chainName := v }, none, isBlank⟩

/-- The field `latest_block_number`. -/
def latestBlockNumberField : Field ChainSyncStatus ℤ :=
  ⟨"latest_block_number", latestBlockNumber, fun v s => { s with latestBlockNumber := v }, none,
    fun _ => false⟩

/-- The field `latest_block_hash`. -/
def latestBlockHashField : Field ChainSyncStatus String :=
  ⟨"latest_block_hash", latestBlockHash, fun v s => { s with latestBlockHash := v }, none, isBlank⟩

/-- The field `earliest_block_number`. -/
def earliestBlockNumberField : Field ChainSyncStatus ℤ :=
  ⟨"earliest_block_number", earliestBlockNumber,
    fun v s => { s with earliestBlockNumber := v }, none, fun _ => false⟩

/-- The field `earliest_block_hash`. -/
def earliestBlockHashField : Field ChainSyncStatus String :=
  ⟨"earliest_block_hash", earliestBlockHash, fun v s => { s with earliestBlockHash := v }, none,
    isBlank⟩

/-- The field `safe_block_number`. -/
def safeBlockNumberField : Field ChainSyncStatus ℤ :=
  ⟨"safe_block_number", safeBlockNumber, fun v s => { s with safeBlockNumber := v }, none,
    fun _ => false⟩

/-- The field `sync_status`. -/
def syncStatusField : Field ChainSyncStatus String :=
  ⟨"sync_status", syncStatus, fun v s => { s with syncStatus := v }, none, isBlank⟩

/-- The field `error_message`. -/
def errorMessageField : Field ChainSyncStatus String :=
  ⟨"error_message", errorMessage, fun v s => { s with errorMessage := v }, none, isBlank⟩

/-- The field `syncing_ranges`, empty at first. -/
def syncingRangesField : Field ChainSyncStatus (List RangeMap) :=
  ⟨"syncing_ranges", syncingRanges, fun v s => { s with syncingRanges := v }, some [],
    fun _ => false⟩

/-! ## The changeset -/

/-- The parameters of a changeset: absent, `nil`, or a value. -/
structure Attrs where
  chainName : Option (Option String) := none
  latestBlockNumber : Option (Option ℤ) := none
  latestBlockHash : Option (Option String) := none
  earliestBlockNumber : Option (Option ℤ) := none
  earliestBlockHash : Option (Option String) := none
  safeBlockNumber : Option (Option ℤ) := none
  syncStatus : Option (Option String) := none
  errorMessage : Option (Option String) := none
  syncingRanges : Option (Option (List RangeMap)) := none

/-- The fields of `validate_required`. -/
def requiredFields : List (Changeset.Required ChainSyncStatus) :=
  [Changeset.required chainNameField, Changeset.required latestBlockNumberField,
    Changeset.required latestBlockHashField, Changeset.required earliestBlockNumberField,
    Changeset.required safeBlockNumberField, Changeset.required syncStatusField]

/-- The statuses that `validate_inclusion` accepts. -/
def validStatuses : List String := ["syncing", "synced", "error"]

/-- The attributes that are cast, in the order of the source. -/
def castAttrs (status : ChainSyncStatus) (attrs : Attrs) : Changeset ChainSyncStatus :=
  ((Changeset.change status).cast chainNameField attrs.chainName)
    |>.cast latestBlockNumberField attrs.latestBlockNumber
    |>.cast latestBlockHashField attrs.latestBlockHash
    |>.cast earliestBlockNumberField attrs.earliestBlockNumber
    |>.cast safeBlockNumberField attrs.safeBlockNumber
    |>.cast syncStatusField attrs.syncStatus
    |>.cast errorMessageField attrs.errorMessage
    |>.cast earliestBlockHashField attrs.earliestBlockHash
    |>.cast syncingRangesField attrs.syncingRanges

/-- `validate_block_numbers`: the three numbers are there, and in order. -/
def validateBlockNumbers (c : Changeset ChainSyncStatus) : Changeset ChainSyncStatus :=
  match c.getField earliestBlockNumberField, c.getField safeBlockNumberField,
    c.getField latestBlockNumberField with
  | some earliest, some safe, some latest =>
    if earliest ≤ safe ∧ safe ≤ latest then c else invalid
  | _, _, _ => invalid
where
  invalid : Changeset ChainSyncStatus := c.addError "block_numbers"
    "earliest_block_number <= safe_block_number <= latest_block_number must be satisfied"

/-- A range is valid under atom keys only. -/
def validSyncRange (range : RangeMap) : Bool :=
  match range.lookup (.atom "start_block"), range.lookup (.atom "end_block") with
  | some (.integer start), some (.integer endBlock) => start ≤ endBlock
  | _, _ => false

/-- `validate_syncing_ranges`: all ranges are valid, or there are none. -/
def validateSyncingRanges (c : Changeset ChainSyncStatus) : Changeset ChainSyncStatus :=
  match c.getField syncingRangesField with
  | none => c
  | some ranges =>
    if ranges.all validSyncRange then c
    else c.addError "syncing_ranges" "contains invalid range format"

/-- `changeset/2`: the attributes are cast, then validated. -/
def changeset (status : ChainSyncStatus) (attrs : Attrs) : Changeset ChainSyncStatus :=
  (castAttrs status attrs).validateRequired requiredFields
    |>.validateInclusion syncStatusField validStatuses
    |> validateBlockNumbers
    |> validateSyncingRanges

/-! ## The table -/

/-- A row of the table, with the constraints of its columns. -/
structure Row where
  chainName : String
  latestBlockNumber : ℤ
  latestBlockHash : String
  earliestBlockNumber : ℤ
  earliestBlockHash : Option String
  safeBlockNumber : ℤ
  syncStatus : String
  errorMessage : Option String
  syncingRanges : Option (List RangeMap)
  updatedAt : ℤ
  valid_sync_status : syncStatus ∈ validStatuses
  valid_block_numbers : earliestBlockNumber ≤ safeBlockNumber ∧ safeBlockNumber ≤ latestBlockNumber

/-- A map as it comes back from the database, in which its keys are strings. -/
def RangeMap.stored (range : RangeMap) : RangeMap :=
  range.map fun
    | (.atom a, v) => (.string a.name, v)
    | e => e

/-- The row stored for a struct: an empty column that must not be, and a constraint that is
    violated, are errors. -/
def store (now : ℤ) (s : ChainSyncStatus) : Except Exn Row :=
  match s.chainName, s.latestBlockNumber, s.latestBlockHash, s.earliestBlockNumber,
    s.safeBlockNumber, s.syncStatus with
  | some chainName, some latest, some latestBlockHash, some earliest, some safe, some syncStatus =>
    if h : syncStatus ∈ validStatuses ∧ earliest ≤ safe ∧ safe ≤ latest then
      .ok
        { chainName := chainName
          latestBlockNumber := latest
          latestBlockHash := latestBlockHash
          earliestBlockNumber := earliest
          earliestBlockHash := s.earliestBlockHash
          safeBlockNumber := safe
          syncStatus := syncStatus
          errorMessage := s.errorMessage
          syncingRanges := s.syncingRanges.map fun ranges => ranges.map RangeMap.stored
          updatedAt := now
          valid_sync_status := h.1
          valid_block_numbers := h.2 }
    else
      .error (.exception "Elixir.Ecto.ConstraintError")
  | _, _, _, _, _, _ => .error (.exception "Elixir.Postgrex.Error")

/-- The struct of a row. -/
def load (r : Row) : ChainSyncStatus where
  chainName := some r.chainName
  latestBlockNumber := some r.latestBlockNumber
  latestBlockHash := some r.latestBlockHash
  earliestBlockNumber := some r.earliestBlockNumber
  earliestBlockHash := r.earliestBlockHash
  safeBlockNumber := some r.safeBlockNumber
  syncStatus := some r.syncStatus
  errorMessage := r.errorMessage
  syncingRanges := r.syncingRanges

/-- A row with the changes of a changeset. -/
def write (now : ℤ) (c : Changeset ChainSyncStatus) (r : Row) : Except Exn Row :=
  store now
    { chainName := some r.chainName
      latestBlockNumber := c.written latestBlockNumberField r.latestBlockNumber
      latestBlockHash := c.written latestBlockHashField r.latestBlockHash
      earliestBlockNumber := c.written earliestBlockNumberField r.earliestBlockNumber
      earliestBlockHash := c.written earliestBlockHashField r.earliestBlockHash
      safeBlockNumber := c.written safeBlockNumberField r.safeBlockNumber
      syncStatus := c.written syncStatusField r.syncStatus
      errorMessage := c.written errorMessageField r.errorMessage
      syncingRanges := c.written syncingRangesField r.syncingRanges }

/-- The table, with the time of a write. -/
def schema (now : ℤ) : Ecto.Schema ChainSyncStatus Row String where
  key := Row.chainName
  constraint := "chain_sync_status_pkey"
  store := store now
  write := write now

/-- The rows of the chains. -/
abbrev Rows := Table Row.chainName

/-! ## What is not accepted -/

theorem suffix_validateBlockNumbers (c : Changeset ChainSyncStatus) :
    c.errors <:+ (validateBlockNumbers c).errors := by
  have hi : c.errors <:+ (validateBlockNumbers.invalid c).errors := List.suffix_cons _ _
  rw [validateBlockNumbers]
  split
  · split
    · exact List.suffix_refl _
    · exact hi
  · exact hi

theorem suffix_validateSyncingRanges (c : Changeset ChainSyncStatus) :
    c.errors <:+ (validateSyncingRanges c).errors := by
  rw [validateSyncingRanges]
  split
  · exact List.suffix_refl _
  · split
    · exact List.suffix_refl _
    · exact List.suffix_cons _ _

/-- A struct without an earliest block is not accepted, if the parameters give none. -/
theorem errors_changeset_ne_nil {status : ChainSyncStatus} {attrs : Attrs}
    (hs : status.earliestBlockNumber = none) (ha : attrs.earliestBlockNumber = none) :
    (changeset status attrs).errors ≠ [] := by
  have hm : earliestBlockNumberField.missing (castAttrs status attrs).applied = true := by
    have hg : (castAttrs status attrs).applied.earliestBlockNumber = none := by
      change earliestBlockNumberField.castValue status.earliestBlockNumber
        attrs.earliestBlockNumber = none
      rw [hs, ha]
      rfl
    exact congrArg (Option.all _) hg
  have hr : ((castAttrs status attrs).validateRequired requiredFields).errors ≠ [] :=
    Changeset.errors_validateRequired_ne_nil (f := Changeset.required earliestBlockNumberField)
      (by simp [requiredFields]) hm
  have hsuf : ((castAttrs status attrs).validateRequired requiredFields).errors <:+
      (changeset status attrs).errors :=
    (Changeset.suffix_validateChange _ syncStatusField _).trans
      ((suffix_validateBlockNumbers _).trans (suffix_validateSyncingRanges _))
  exact fun h => hr (List.suffix_nil.1 (h ▸ hsuf))

end ChainSyncStatus

end Sylph.Schema

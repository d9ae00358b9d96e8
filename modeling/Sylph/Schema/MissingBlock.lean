import Sylph.Lib.Ecto
import Sylph.Sync.BlockRange

/-!
# Missing blocks

`Core.Schema.MissingBlock`: the blocks that could not be processed, one row for each chain
and number.

* A failure is recorded in two steps: the row is looked up, then a new one is inserted or
  the one that has been found updated (`writeFailure`), with one attempt more. The sixth
  failure, and every one after it, gives the block up (`statusAfter`).
* A block is marked as resolved (`markResolved`), and the pending ones are listed
  (`getPendingBlocks`).
* The rows carry the constraints of the table. `exists_writeFailure_none`,
  `exists_writeFailure_some` and `exists_markResolved` say what the operations leave in the
  table, if their arguments are valid.
-/

namespace Sylph.Schema

open Lib Elixir Ecto Sync

/-- A map, by the text it is stored as. -/
abbrev Json := String

/-- The struct, with the defaults of its fields. -/
structure MissingBlock where
  chain : Option String := none
  blockNumber : Option ℤ := none
  blockHash : Option String := none
  errorType : Option String := none
  errorMessage : Option String := none
  attempts : Option ℤ := some 1
  lastAttemptAt : Option ℤ := none
  status : Option String := some "pending"
  priority : Option ℤ := some 0
  metadata : Option Json := some "{}"
  deriving DecidableEq

namespace MissingBlock

/-! ## Fields -/

/-- The field `chain`. -/
def chainField : Field MissingBlock String :=
  ⟨"chain", chain, fun v s => { s with chain := v }, none, isBlank⟩

/-- The field `block_number`. -/
def blockNumberField : Field MissingBlock ℤ :=
  ⟨"block_number", blockNumber, fun v s => { s with blockNumber := v }, none, fun _ => false⟩

/-- The field `block_hash`. -/
def blockHashField : Field MissingBlock String :=
  ⟨"block_hash", blockHash, fun v s => { s with blockHash := v }, none, isBlank⟩

/-- The field `error_type`. -/
def errorTypeField : Field MissingBlock String :=
  ⟨"error_type", errorType, fun v s => { s with errorType := v }, none, isBlank⟩

/-- The field `error_message`. -/
def errorMessageField : Field MissingBlock String :=
  ⟨"error_message", errorMessage, fun v s => { s with errorMessage := v }, none, isBlank⟩

/-- The field `attempts`, which starts at 1. -/
def attemptsField : Field MissingBlock ℤ :=
  ⟨"attempts", attempts, fun v s => { s with attempts := v }, some 1, fun _ => false⟩

/-- The field `last_attempt_at`, a time. -/
def lastAttemptAtField : Field MissingBlock ℤ :=
  ⟨"last_attempt_at", lastAttemptAt, fun v s => { s with lastAttemptAt := v }, none, fun _ => false⟩

/-- The field `status`, which starts as `pending`. -/
def statusField : Field MissingBlock String :=
  ⟨"status", status, fun v s => { s with status := v }, some "pending", isBlank⟩

/-- The field `priority`, which starts at 0. -/
def priorityField : Field MissingBlock ℤ :=
  ⟨"priority", priority, fun v s => { s with priority := v }, some 0, fun _ => false⟩

/-- The field `metadata`, an empty map at first. -/
def metadataField : Field MissingBlock Json :=
  ⟨"metadata", metadata, fun v s => { s with metadata := v }, some "{}", fun _ => false⟩

/-! ## The changeset -/

/-- The parameters of a changeset: absent, `nil`, or a value. -/
structure Attrs where
  chain : Option (Option String) := none
  blockNumber : Option (Option ℤ) := none
  blockHash : Option (Option String) := none
  errorType : Option (Option String) := none
  errorMessage : Option (Option String) := none
  attempts : Option (Option ℤ) := none
  lastAttemptAt : Option (Option ℤ) := none
  status : Option (Option String) := none
  priority : Option (Option ℤ) := none
  metadata : Option (Option Json) := none

/-- The fields of `validate_required`. -/
def requiredFields : List (Changeset.Required MissingBlock) :=
  [Changeset.required chainField, Changeset.required blockNumberField,
    Changeset.required errorTypeField, Changeset.required lastAttemptAtField]

/-- `@valid_chains` -/
def validChains : List String := ["ethereum", "solana"]

/-- `@valid_statuses` -/
def validStatuses : List String := ["pending", "retrying", "resolved", "failed"]

/-- The attributes that are cast, in the order of the source. -/
def castAttrs (s : MissingBlock) (attrs : Attrs) : Changeset MissingBlock :=
  ((Changeset.change s).cast chainField attrs.chain)
    |>.cast blockNumberField attrs.blockNumber
    |>.cast errorTypeField attrs.errorType
    |>.cast lastAttemptAtField attrs.lastAttemptAt
    |>.cast blockHashField attrs.blockHash
    |>.cast errorMessageField attrs.errorMessage
    |>.cast attemptsField attrs.attempts
    |>.cast statusField attrs.status
    |>.cast priorityField attrs.priority
    |>.cast metadataField attrs.metadata

/-- The name of the unique index of the table. -/
def uniqueIndex : Atom := "missing_blocks_chain_block_number_index"

/-- `changeset/2`: the attributes are cast, then validated. -/
def changeset (s : MissingBlock) (attrs : Attrs) : Changeset MissingBlock :=
  (castAttrs s attrs).validateRequired requiredFields
    |>.validateInclusion chainField validChains
    |>.validateInclusion statusField validStatuses
    |>.validateNumber attemptsField [.greaterThanOrEqualTo 1]
    |>.validateNumber priorityField [.greaterThanOrEqualTo 0, .lessThanOrEqualTo 10]
    |>.uniqueConstraint uniqueIndex "chain"

/-! ## The table -/

/-- A row of the table, with the constraints of its columns. -/
structure Row where
  chain : String
  blockNumber : ℤ
  blockHash : Option String
  errorType : String
  errorMessage : Option String
  attempts : ℤ
  lastAttemptAt : ℤ
  status : String
  priority : ℤ
  metadata : Option Json
  valid_chain : chain ∈ validChains
  valid_status : status ∈ validStatuses
  valid_attempts : 1 ≤ attempts
  valid_priority : 0 ≤ priority ∧ priority ≤ 10

/-- A block of a chain. -/
abbrev Key := String × ℤ

/-- A row is unique under its chain and its number. -/
def Row.key (r : Row) : Key := (r.chain, r.blockNumber)

/-- The table `missing_blocks`. -/
abbrev Rows := Table Row.key

/-- The row stored for a struct: an empty column that must not be, and a constraint that is
    violated, are errors. -/
def store (s : MissingBlock) : Except Exn Row :=
  match s.chain, s.blockNumber, s.errorType, s.attempts, s.lastAttemptAt, s.status, s.priority with
  | some chain, some blockNumber, some errorType, some attempts, some lastAttemptAt, some status,
    some priority =>
    if h : chain ∈ validChains ∧ status ∈ validStatuses ∧ 1 ≤ attempts ∧ 0 ≤ priority ∧
        priority ≤ 10 then
      .ok
        { chain := chain
          blockNumber := blockNumber
          blockHash := s.blockHash
          errorType := errorType
          errorMessage := s.errorMessage
          attempts := attempts
          lastAttemptAt := lastAttemptAt
          status := status
          priority := priority
          metadata := s.metadata
          valid_chain := h.1
          valid_status := h.2.1
          valid_attempts := h.2.2.1
          valid_priority := h.2.2.2 }
    else
      .error (.exception "Elixir.Ecto.ConstraintError")
  | _, _, _, _, _, _, _ => .error (.exception "Elixir.Postgrex.Error")

/-- The struct of a row. -/
def load (r : Row) : MissingBlock where
  chain := some r.chain
  blockNumber := some r.blockNumber
  blockHash := r.blockHash
  errorType := some r.errorType
  errorMessage := r.errorMessage
  attempts := some r.attempts
  lastAttemptAt := some r.lastAttemptAt
  status := some r.status
  priority := some r.priority
  metadata := r.metadata

/-- A row with the changes of a changeset. -/
def write (c : Changeset MissingBlock) (r : Row) : Except Exn Row :=
  store
    { chain := some r.chain
      blockNumber := some r.blockNumber
      blockHash := c.written blockHashField r.blockHash
      errorType := c.written errorTypeField r.errorType
      errorMessage := c.written errorMessageField r.errorMessage
      attempts := c.written attemptsField r.attempts
      lastAttemptAt := c.written lastAttemptAtField r.lastAttemptAt
      status := c.written statusField r.status
      priority := c.written priorityField r.priority
      metadata := c.written metadataField r.metadata }

/-- How missing blocks are stored. -/
def schema : Ecto.Schema MissingBlock Row Key where
  key := Row.key
  constraint := uniqueIndex
  store := store
  write := write

/-! ## Operations -/

/-- The options of `record_failure`. -/
structure Opts where
  blockHash : Option String := none
  errorMessage : Option String := none
  priority : Option ℤ := none
  metadata : Option Json := none

/-- A call of `record_failure`, at some time. -/
structure Failure where
  chain : Chain
  blockNumber : ℤ
  errorType : String
  opts : Opts := {}
  now : ℤ

/-- The key of the row of a failure. -/
def Failure.key (f : Failure) : Key := (f.chain.atom.name, f.blockNumber)

/-- The attributes that `record_failure` makes of its arguments. -/
def Failure.attrs (f : Failure) : Attrs where
  chain := some f.chain.atom.name
  blockNumber := some f.blockNumber
  errorType := some f.errorType
  blockHash := some f.opts.blockHash
  errorMessage := some f.opts.errorMessage
  lastAttemptAt := some f.now
  priority := some (f.opts.priority.getD 0)
  metadata := some (f.opts.metadata.getD "{}")

/-- The status of a block that has already been attempted `attempts` times. -/
def statusAfter (attempts : ℤ) : String := if attempts ≥ 5 then "failed" else "pending"

/-- The second step of `record_failure`, after the first one has found the row, or none. -/
def writeFailure (f : Failure) (existing : Option Row) (t : Rows) : Written MissingBlock × Rows :=
  match existing with
  | none => Repo.insert schema (changeset {} f.attrs) t
  | some existing =>
    Repo.update schema f.key (changeset (load existing)
      { f.attrs with
        attempts := some (some (existing.attempts + 1))
        status := some (statusAfter existing.attempts) }) t

/-- `record_failure`: the row of the block is made, or counts one more attempt. -/
def recordFailure (f : Failure) (t : Rows) : Written MissingBlock × Rows :=
  writeFailure f (t.find f.key) t

/-- `mark_resolved`: `none` if there is no row. -/
def markResolved (chain : Chain) (blockNumber : ℤ) (t : Rows) :
    Option (Written MissingBlock) × Rows :=
  match t.find (chain.atom.name, blockNumber) with
  | none => (none, t)
  | some missingBlock =>
    let r := Repo.update schema (chain.atom.name, blockNumber)
      (changeset (load missingBlock) { status := some "resolved" }) t
    (some r.1, r.2)

/-- `desc: priority, asc: attempts, asc: block_number` -/
def Row.before (r r' : Row) : Bool :=
  r'.priority < r.priority ∨ (r.priority = r'.priority ∧
    (r.attempts < r'.attempts ∨ (r.attempts = r'.attempts ∧ r.blockNumber ≤ r'.blockNumber)))

/-- `get_pending_blocks`: the first rows of a chain that are to be tried again, in their order. -/
def getPendingBlocks (chain : Chain) (limit : ℕ) (t : Rows) : List Row :=
  ((t.rows.filter fun r => r.chain = chain.atom.name ∧ r.status ∈ ["pending", "retrying"]).mergeSort
    Row.before).take limit

/-! ## What is accepted -/

/-- The struct meets what a changeset asks for. -/
structure Acceptable (s : MissingBlock) : Prop where
  chain : ∃ c ∈ validChains, s.chain = some c
  blockNumber : s.blockNumber ≠ none
  errorType : ∃ e, s.errorType = some e ∧ isBlank e = false
  lastAttemptAt : s.lastAttemptAt ≠ none
  status : ∀ v, s.status = some v → v ∈ validStatuses
  attempts : ∀ v, s.attempts = some v → 1 ≤ v
  priority : ∀ v, s.priority = some v → 0 ≤ v ∧ v ≤ 10

theorem not_isBlank_of_mem {c : String} (h : c ∈ validChains) : isBlank c = false := by
  rcases List.mem_pair.1 h with rfl | rfl <;> rfl

/-- A changeset of acceptable changes has no errors. -/
theorem changeset_of_acceptable {s : MissingBlock} {attrs : Attrs}
    (h : Acceptable (castAttrs s attrs).applied) :
    changeset s attrs = (castAttrs s attrs).uniqueConstraint uniqueIndex "chain" := by
  obtain ⟨c, hc, hchain⟩ := h.chain
  obtain ⟨n, hnumber⟩ := Option.ne_none_iff_exists'.1 h.blockNumber
  obtain ⟨e, herror, he⟩ := h.errorType
  obtain ⟨at', hat⟩ := Option.ne_none_iff_exists'.1 h.lastAttemptAt
  -- Each validation leaves the changeset as it is.
  have hr : (castAttrs s attrs).validateRequired requiredFields = castAttrs s attrs := by
    refine Changeset.validateRequired_of ?_
    intro f hf
    simp only [requiredFields, List.mem_cons, List.not_mem_nil, or_false] at hf
    rcases hf with rfl | rfl | rfl | rfl
    · exact (congrArg (Option.all _) hchain).trans (not_isBlank_of_mem hc)
    · exact congrArg (Option.all _) hnumber
    · exact (congrArg (Option.all _) herror).trans he
    · exact congrArg (Option.all _) hat
  have hi : (castAttrs s attrs).validateInclusion chainField validChains = castAttrs s attrs :=
    Changeset.validateInclusion_of fun v hv => by
      cases hchain.symm.trans hv
      exact hc
  have hs : (castAttrs s attrs).validateInclusion statusField validStatuses = castAttrs s attrs :=
    Changeset.validateInclusion_of h.status
  have ha : (castAttrs s attrs).validateNumber attemptsField [.greaterThanOrEqualTo 1] =
      castAttrs s attrs :=
    Changeset.validateNumber_of fun v hv b hb => by
      rw [List.mem_singleton.1 hb]
      exact decide_eq_true (h.attempts v hv)
  have hp : (castAttrs s attrs).validateNumber priorityField
      [.greaterThanOrEqualTo 0, .lessThanOrEqualTo 10] = castAttrs s attrs :=
    Changeset.validateNumber_of fun v hv b hb => by
      rcases List.mem_pair.1 hb with rfl | rfl
      · exact decide_eq_true (h.priority v hv).1
      · exact decide_eq_true (h.priority v hv).2
  rw [changeset, hr, hi, hs, ha, hp]

/-! ## What is written -/

theorem store_load (r : Row) : store (load r) = .ok r :=
  dif_pos ⟨r.valid_chain, r.valid_status, r.valid_attempts, r.valid_priority⟩

theorem acceptable_load (r : Row) (h : isBlank r.errorType = false) : Acceptable (load r) where
  chain := ⟨r.chain, r.valid_chain, rfl⟩
  blockNumber := Option.some_ne_none _
  errorType := ⟨r.errorType, rfl, h⟩
  lastAttemptAt := Option.some_ne_none _
  status _ hv := Option.some_inj.1 hv ▸ r.valid_status
  attempts _ hv := Option.some_inj.1 hv ▸ r.valid_attempts
  priority _ hv := Option.some_inj.1 hv ▸ r.valid_priority

/-- Changes that make a row of a row are written to any row. -/
theorem exists_write {c : Changeset MissingBlock} {r₀ : Row} (h : c.applied = load r₀) (r : Row) :
    ∃ r', write c r = .ok r' ∧ r'.key = r.key ∧
      some r'.errorType = c.written errorTypeField r.errorType ∧
      some r'.attempts = c.written attemptsField r.attempts ∧
      some r'.status = c.written statusField r.status := by
  obtain ⟨e, he, -⟩ := Changeset.exists_written (c := c) (f := errorTypeField) (P := fun _ => True)
    (congrArg errorType h) (x := r.errorType) trivial trivial
  obtain ⟨a, ha, hav⟩ := Changeset.exists_written (c := c) (f := attemptsField)
    (congrArg attempts h) r.valid_attempts r₀.valid_attempts
  obtain ⟨l, hl, -⟩ := Changeset.exists_written (c := c) (f := lastAttemptAtField)
    (P := fun _ => True) (congrArg lastAttemptAt h) (x := r.lastAttemptAt) trivial trivial
  obtain ⟨s, hs, hsv⟩ := Changeset.exists_written (c := c) (f := statusField)
    (congrArg status h) r.valid_status r₀.valid_status
  obtain ⟨p, hp, hpv⟩ := Changeset.exists_written (c := c) (f := priorityField)
    (P := fun p => 0 ≤ p ∧ p ≤ 10) (congrArg priority h) r.valid_priority r₀.valid_priority
  rw [write, he, ha, hl, hs, hp]
  exact ⟨_, dif_pos ⟨r.valid_chain, hsv, hav, hpv⟩, rfl, rfl, rfl, rfl⟩

/-- The arguments of a call are valid: the type of the error says something, and the
    priority is in its range. -/
structure Failure.Valid (f : Failure) : Prop where
  errorType : isBlank f.errorType = false
  priority : ∀ p, f.opts.priority = some p → 0 ≤ p ∧ p ≤ 10

theorem mem_validChains (chain : Chain) : chain.atom.name ∈ validChains := by
  rcases chain
  · exact List.mem_cons_self
  · exact List.mem_cons_of_mem _ (List.mem_singleton_self _)

theorem statusAfter_mem (attempts : ℤ) : statusAfter attempts ∈ ["failed", "pending"] := by
  by_cases h : attempts ≥ 5
  · rw [statusAfter, if_pos h]
    exact List.mem_cons_self
  · rw [statusAfter, if_neg h]
    exact List.mem_cons_of_mem _ (List.mem_singleton_self _)

theorem statusAfter_valid (attempts : ℤ) : statusAfter attempts ∈ validStatuses := by
  rcases List.mem_pair.1 (statusAfter_mem attempts) with h | h <;> rw [h]
  · exact .tail _ (.tail _ (.tail _ (.head _)))
  · exact .head _

/-- A row as a valid call makes it. -/
def Failure.row (f : Failure) (hv : f.Valid) (blockHash errorMessage : Option String) (attempts : ℤ)
    (ha : 1 ≤ attempts) (status : String) (hs : status ∈ validStatuses) : Row where
  chain := f.chain.atom.name
  blockNumber := f.blockNumber
  blockHash := blockHash
  errorType := f.errorType
  errorMessage := errorMessage
  attempts := attempts
  lastAttemptAt := f.now
  status := status
  priority := f.opts.priority.getD 0
  metadata := some (f.opts.metadata.getD "{}")
  valid_chain := mem_validChains f.chain
  valid_status := hs
  valid_attempts := ha
  valid_priority := by
    rcases hp : f.opts.priority with _ | p
    · exact ⟨le_refl _, by decide⟩
    · exact hv.priority p hp

/-- What the parameters of a valid call make of a struct. -/
theorem castAttrs_failure {f : Failure} (hv : f.Valid) (s : MissingBlock)
    (a : Option (Option ℤ)) (st : Option (Option String)) {attempts : ℤ} {status : String}
    (ha : 1 ≤ attempts) (hs : status ∈ validStatuses)
    (hattempts : attemptsField.castValue s.attempts a = some attempts)
    (hstatus : statusField.castValue s.status st = some status) :
    ∃ blockHash errorMessage,
      (castAttrs s { f.attrs with attempts := a, status := st }).applied =
        load (f.row hv blockHash errorMessage attempts ha status hs) := by
  have hc : chainField.castValue s.chain (some (some f.chain.atom.name)) = some f.chain.atom.name :=
    Field.castValue_some (f := chainField) (not_isBlank_of_mem (mem_validChains f.chain)) _
  have he : errorTypeField.castValue s.errorType (some (some f.errorType)) = some f.errorType :=
    Field.castValue_some (f := errorTypeField) hv.errorType _
  have h : (castAttrs s { f.attrs with attempts := a, status := st }).applied =
      { chain := chainField.castValue s.chain (some (some f.chain.atom.name))
        blockNumber := some f.blockNumber
        blockHash := blockHashField.castValue s.blockHash (some f.opts.blockHash)
        errorType := errorTypeField.castValue s.errorType (some (some f.errorType))
        errorMessage := errorMessageField.castValue s.errorMessage (some f.opts.errorMessage)
        attempts := attemptsField.castValue s.attempts a
        lastAttemptAt := some f.now
        status := statusField.castValue s.status st
        priority := some (f.opts.priority.getD 0)
        metadata := some (f.opts.metadata.getD "{}") } := rfl
  rw [hc, he, hattempts, hstatus] at h
  exact ⟨_, _, h⟩

/-- What a valid call makes of a new struct. -/
theorem changeset_new {f : Failure} (hv : f.Valid) :
    ∃ r : Row, r.key = f.key ∧ isBlank r.errorType = false ∧ r.attempts = 1 ∧
      r.status = "pending" ∧ (changeset {} f.attrs).errors = [] ∧
      (changeset {} f.attrs).applied = load r ∧
      ∃ e, (changeset {} f.attrs).constraints.lookup uniqueIndex = some e := by
  obtain ⟨blockHash, errorMessage, ha⟩ := castAttrs_failure hv {} none none
    (le_refl 1) (.head _) rfl rfl
  change (castAttrs {} f.attrs).applied = _ at ha
  have hc := changeset_of_acceptable (ha ▸ acceptable_load _ hv.errorType)
  refine ⟨f.row hv blockHash errorMessage 1 (le_refl 1) "pending" (.head _), rfl, hv.errorType, rfl,
    rfl, ?_, ?_, ?_⟩ <;> rw [hc]
  · rfl
  · exact ha
  · exact ⟨_, rfl⟩

/-- A call that has found no row leaves a new one in the table, if there still is none. -/
theorem exists_writeFailure_none {f : Failure} (hv : f.Valid) {t : Rows}
    (ht : t.find f.key = none) :
    ∃ s t' r, writeFailure f none t = (.ok s, t') ∧
      (∀ k, t'.find k = if f.key = k then some r else t.find k) ∧
      isBlank r.errorType = false ∧ r.attempts = 1 ∧ r.status = "pending" := by
  obtain ⟨r, hk, hb, ha, hs, hc, happ, -⟩ := changeset_new hv
  obtain ⟨t', hi, hf⟩ := Repo.insert_of_find_none schema hc
    ((congrArg store happ).trans (store_load r)) (hk ▸ ht)
  exact ⟨_, t', r, hi, fun k => (hf k).trans (by rw [← hk]; rfl), hb, ha, hs⟩

/-- If there is a row by now, the call is refused. -/
theorem exists_writeFailure_of_find {f : Failure} (hv : f.Valid) {t : Rows} {r : Row}
    (ht : t.find f.key = some r) : ∃ c, writeFailure f none t = (.error c, t) := by
  obtain ⟨r', hk, -, -, -, hc, happ, e, he⟩ := changeset_new hv
  have hi := Repo.insert_of_find_some schema hc ((congrArg store happ).trans (store_load r'))
    (hk ▸ ht)
  have hr : Repo.violation schema.constraint (changeset {} f.attrs) =
      .error { changeset {} f.attrs with errors := e :: (changeset {} f.attrs).errors } := by
    change Repo.violation uniqueIndex _ = _
    rw [Repo.violation, he]
  exact ⟨_, hi.trans (congrArg (fun w => (w, t)) hr)⟩

theorem castValue_statusAfter (current : Option String) (attempts : ℤ) :
    statusField.castValue current (some (some (statusAfter attempts))) =
      some (statusAfter attempts) := by
  refine Field.castValue_some (f := statusField) ?_ current
  rcases List.mem_pair.1 (statusAfter_mem attempts) with h | h <;> rw [h] <;> rfl

/-- An update, with changes that make the row `r₀` of the row `e` that has been loaded, of the
    row `r` that is there. -/
theorem exists_update {e r₀ r : Row} {attrs : Attrs}
    (ha : (castAttrs (load e) attrs).applied = load r₀)
    (hb : isBlank r₀.errorType = false) (hne : load r₀ ≠ load e) {t : Rows} {k : Key}
    (ht : t.find k = some r) :
    ∃ s t' r', Repo.update schema k (changeset (load e) attrs) t = (.ok s, t') ∧
      (∀ k', t'.find k' = if k = k' then some r' else t.find k') ∧
      (r₀.attempts ≠ e.attempts → r'.attempts = r₀.attempts) ∧
      (r = e → r'.errorType = r₀.errorType ∧ r'.attempts = r₀.attempts ∧
        r'.status = r₀.status) := by
  have hc := changeset_of_acceptable (ha ▸ acceptable_load r₀ hb)
  rw [hc]
  generalize hcs : (castAttrs (load e) attrs).uniqueConstraint uniqueIndex "chain" = c
  have hdata : c.data = load e := hcs ▸ rfl
  have happ : c.applied = load r₀ := hcs ▸ ha
  have herr : c.errors = [] := hcs ▸ rfl
  obtain ⟨r', hw, hk, he', ha', hs'⟩ := exists_write happ r
  obtain ⟨t', hu, hf⟩ := Repo.update_of_find_some schema herr
    (fun h => hne (happ.symm.trans (h.trans hdata))) ht hw (hk.trans (Table.key_of_find ht))
  refine ⟨_, t', r', hu, hf, fun hn => ?_, ?_⟩
  · -- A field that changes is written; the others keep what the row has.
    have hn' : attemptsField.get c.applied ≠ attemptsField.get c.data := by
      rw [happ, hdata]
      exact fun h => hn (Option.some_inj.1 h)
    exact Option.some_inj.1 ((ha'.trans (Changeset.written_of_ne hn' _)).trans
      (congrArg attempts happ))
  · rintro rfl
    exact ⟨Changeset.eq_of_written_self (f := errorTypeField) he' (congrArg errorType hdata)
        (congrArg errorType happ),
      Changeset.eq_of_written_self (f := attemptsField) ha' (congrArg attempts hdata)
        (congrArg attempts happ),
      Changeset.eq_of_written_self (f := statusField) hs' (congrArg status hdata)
        (congrArg status happ)⟩

/-- A call that has found a row writes one attempt more than it has found there. -/
theorem exists_writeFailure_some {f : Failure} (hv : f.Valid) {t : Rows} {e r : Row}
    (ht : t.find f.key = some r) :
    ∃ s t' r', writeFailure f (some e) t = (.ok s, t') ∧
      (∀ k, t'.find k = if f.key = k then some r' else t.find k) ∧
      r'.attempts = e.attempts + 1 ∧
      (r = e → isBlank r'.errorType = false ∧ r'.status = statusAfter e.attempts) := by
  have hat : 1 ≤ e.attempts + 1 := e.valid_attempts.trans (by omega)
  obtain ⟨blockHash, errorMessage, ha⟩ := castAttrs_failure hv (load e)
    (some (some (e.attempts + 1))) (some (some (statusAfter e.attempts))) hat
    (statusAfter_valid e.attempts) rfl (castValue_statusAfter _ e.attempts)
  have hn : e.attempts + 1 ≠ e.attempts := by omega
  obtain ⟨s, t', r', hu, hf, ha', hr⟩ := exists_update ha hv.errorType
    (fun h => hn (Option.some_inj.1 (congrArg attempts h))) ht
  exact ⟨s, t', r', hu, hf, ha' hn, fun h => ⟨(hr h).1 ▸ hv.errorType, (hr h).2.2⟩⟩

/-- A block with a row is marked as resolved there. -/
theorem exists_markResolved {chain : Chain} {n : ℤ} {t : Rows} {r : Row}
    (ht : t.find (chain.atom.name, n) = some r) (hb : isBlank r.errorType = false) :
    ∃ s t' r', markResolved chain n t = (some (.ok s), t') ∧
      (∀ k, t'.find k = if (chain.atom.name, n) = k then some r' else t.find k) ∧
      isBlank r'.errorType = false ∧ r'.attempts = r.attempts ∧ r'.status = "resolved" := by
  have hs : "resolved" ∈ validStatuses := .tail _ (.tail _ (.head _))
  have ha : (castAttrs (load r) { status := some "resolved" }).applied =
      load { r with status := "resolved", valid_status := hs } := rfl
  rw [markResolved, ht]
  by_cases hr : r.status = "resolved"
  · -- There is nothing to change.
    have hd : load { r with status := "resolved", valid_status := hs } = load r := by
      rw [load, load, hr]
    have hc : changeset (load r) { status := some "resolved" } = _ :=
      changeset_of_acceptable (by rw [ha]; exact acceptable_load _ hb)
    have hu := Repo.update_of_unchanged schema
      (c := changeset (load r) { status := some "resolved" })
      t (chain.atom.name, n) (by rw [hc]; rfl) (by rw [hc]; exact ha.trans hd)
    refine ⟨(changeset (load r) { status := some "resolved" }).data, t, r, by simp only [hu],
      fun k => ?_, hb, rfl, hr⟩
    · by_cases hk : (chain.atom.name, n) = k
      · rw [if_pos hk, ← hk, ht]
      · rw [if_neg hk]
  · obtain ⟨s, t', r', hu, hf, -, h⟩ := exists_update ha hb
      (fun h => hr (Option.some_inj.1 (congrArg status h)).symm) ht
    obtain ⟨he, ha', hs'⟩ := h rfl
    exact ⟨s, t', r', by simp only [hu], hf, he ▸ hb, ha', hs'⟩

end MissingBlock

end Sylph.Schema

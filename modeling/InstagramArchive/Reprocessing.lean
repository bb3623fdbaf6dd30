import InstagramArchive.Json
import InstagramArchive.Relational.Integrity
import InstagramArchive.Resolution
import Mathlib.Data.List.Sort

/-!
# Reprocessing of a retained export

A report is rendered from content-free inputs, in the order of their keys. Applying it inserts one
row for each of its items, at most so many in one call, in the transaction that checks the plan
against the one the operation was opened with.
-/

namespace InstagramArchive.Reprocessing

open Relational Relational.Tx Json

def SUPPORTED_REPROCESSING_LAYOUT : String := "instagram-json-saved-posts"

def SUPPORTED_REPROCESSING_PARSER : String := "instagram-saved-posts-json-v1"

/-! ## Reports -/

/-- Deterministic classification produced for one retained-export item. -/
inductive ReprocessClassification where
  | normalized
  | unknownRecord
  | unknownSection
  | conflict
  | warning
  | omitted
  deriving DecidableEq, Repr

/-- The stable database and report vocabulary value. -/
def ReprocessClassification.wireName : ReprocessClassification → String
  | .normalized => "normalized"
  | .unknownRecord => "unknown_record"
  | .unknownSection => "unknown_section"
  | .conflict => "conflict"
  | .warning => "warning"
  | .omitted => "omitted"

/-- Content-free planning input for one retained-export item. -/
structure ReprocessInput where
  itemKey : String
  classification : ReprocessClassification
  prospectiveDigest : Option String
  deriving DecidableEq, Repr

structure ReprocessReportItem where
  itemKey : String
  classification : ReprocessClassification
  digest : Option String
  /-- Whether apply deliberately retains an existing projection for this item. -/
  retainedPriorState : Bool
  deriving DecidableEq, Repr

/-- Canonical deterministic report excluding operation identity and timestamps. -/
structure ReprocessReport where
  items : List ReprocessReportItem
  counts : List (String × Nat)
  warnings : List String
  conflicts : List String
  completenessEvidence : List (String × Nat)
  planFingerprint : String
  stateFingerprint : String
  deriving DecidableEq, Repr

def ReprocessInput.item (input : ReprocessInput) : ReprocessReportItem where
  itemKey := input.itemKey
  classification := input.classification
  digest := input.prospectiveDigest
  retainedPriorState := input.classification = .omitted

/-- `*counts.entry(name).or_insert(0) += 1` of a map that is kept in the order of its names. -/
def bumpCount (name : String) : List (String × Nat) → List (String × Nat)
  | [] => [(name, 1)]
  | (other, count) :: rest =>
    if name = other then (other, count + 1) :: rest
    else if name < other then (name, 1) :: (other, count) :: rest
    else (other, count) :: bumpCount name rest

/-- One line of the canonical plan: the key after its length in bytes, then three fields. -/
def ReprocessReportItem.line (item : ReprocessReportItem) : List Char :=
  (toString item.itemKey.utf8ByteSize).toList ++ ':' :: item.itemKey.toList ++
    '|' :: item.classification.wireName.toList ++ '|' :: (item.digest.getD "-").toList ++
    '|' :: (if item.retainedPriorState then "retain" else "apply").toList ++ ['\n']

def canonicalPlan (items : List ReprocessReportItem) : String :=
  String.ofList (items.flatMap ReprocessReportItem.line)

def renderItems (inputs : List ReprocessInput) : List ReprocessReportItem :=
  (inputs.map ReprocessInput.item).insertionSort fun left right => left.itemKey ≤ right.itemKey

def keysClassified (classification : ReprocessClassification) (items : List ReprocessReportItem) :
    List String :=
  (items.filter fun item => item.classification = classification).map
    ReprocessReportItem.itemKey

def renderReport (lib : Externals) (inputs : List ReprocessInput) (stateFingerprint : String) :
    ReprocessReport :=
  let items := renderItems inputs
  let counts := items.foldl (fun counts item => bumpCount item.classification.wireName counts) []
  { items
    completenessEvidence := counts
    counts
    warnings := keysClassified .warning items
    conflicts := keysClassified .conflict items
    planFingerprint := hexEncode (lib.sha256 (canonicalPlan items))
    stateFingerprint }

/-- Renders a read-only parser-version reprocessing report. -/
def migrationDryRun (lib : Externals) (inputs : List ReprocessInput) (stateFingerprint : String) :
    ReprocessReport := renderReport lib inputs stateFingerprint

/-- Renders the report returned after applying the same proposed inputs. -/
def migrationApply (lib : Externals) (inputs : List ReprocessInput) (stateFingerprint : String) :
    ReprocessReport := renderReport lib inputs stateFingerprint

/-! ## Tables -/

inductive ReprocessingState where
  | running
  | completed
  | completedWithWarnings
  | failed
  deriving DecidableEq, Repr

inductive ReprocessingItemState where
  | planned
  | applied
  | skipped
  | conflict
  | warning
  deriving DecidableEq, Repr

/-- The stored JSON of a report; it leaves the items out. -/
structure StoredReport where
  counts : List (String × Nat)
  warnings : List String
  conflicts : List String
  completenessEvidence : List (String × Nat)
  planFingerprint : String
  stateFingerprint : String
  deriving DecidableEq, Repr

structure ReprocessingRun where
  reprocessingRunId : Uuid
  operationId : Uuid
  importRunId : Uuid
  userRef : Uuid
  detectedLayout : String
  parserId : String
  state : ReprocessingState
  planFingerprint : String
  stateFingerprint : String
  checkpointItemKey : Option String := none
  report : Option StoredReport := none
  startedAt : Instant
  updatedAt : Instant
  finishedAt : Option Instant := none
  deriving DecidableEq, Repr

structure ReprocessingItem where
  reprocessingRunId : Uuid
  itemKey : String
  classification : ReprocessClassification
  state : ReprocessingItemState
  prospectiveDigest : Option String
  appliedDigest : Option String
  deriving DecidableEq, Repr

/-- The archive with the two tables of reprocessing. -/
structure Store where
  archive : Db := {}
  runs : Table ReprocessingRun (fun r => r.reprocessingRunId) := .empty
  items : Table ReprocessingItem (fun i => (i.reprocessingRunId, i.itemKey)) := .empty

inductive ReprocessingError where
  | query (error : SqlError)
  /-- `reprocessing plan precondition changed`. -/
  | planPreconditionChanged
  deriving DecidableEq, Repr

instance : OfSql ReprocessingError := ⟨.query⟩

abbrev StoreTx := Tx Store ReprocessingError

/-- Restartable apply progress for one stable operation. -/
structure ReprocessApplyOutcome where
  reprocessingRunId : Uuid
  report : ReprocessReport
  completed : Bool
  deriving DecidableEq, Repr

/-! ## Opening the run -/

/-- The owner's reconciled import run with its layout and parser. -/
def receiptRow (owner importRunId : Uuid) (s : Store) : Option ImportRun :=
  (s.archive.importRuns.lookup importRunId).filter fun r =>
    r.userRef = owner && r.state = .reconciled

/-- Whether that run is of the supported layout and parser; the row is read as two texts. -/
def supportedReceipt (owner importRunId : Uuid) (s : Store) : Except SqlError (Bool × Store) :=
  match receiptRow owner importRunId s with
  | none => .ok (false, s)
  | some r =>
    match r.detectedLayout, r.parserId with
    | none, _ => .error (.columnDecode "detected_layout")
    | _, none => .error (.columnDecode "parser_id")
    | some layout, some parser =>
      .ok (layout = SUPPORTED_REPROCESSING_LAYOUT && parser = SUPPORTED_REPROCESSING_PARSER, s)

def findRun (owner operationId : Uuid) (s : Store) : Option ReprocessingRun :=
  s.runs.rows.find? fun r => r.userRef = owner && r.operationId = operationId

/-- The constraints of a new run. -/
def runGuard (run : ReprocessingRun) (s : Store) : Option SqlError :=
  if textHasNul run.stateFingerprint then some .untranslatableCharacter
  else if run.planFingerprint.length ≠ 64 ∨ run.stateFingerprint.length ≠ 64 then
    some (.checkViolation "export_reprocessing_runs_fingerprint_check")
  else if (findRun run.userRef run.operationId s).isSome then
    some (.uniqueViolation "export_reprocessing_runs_owner_operation_key")
  else if (s.archive.importRuns.lookup run.importRunId).isNone then
    some (.foreignKeyViolation "export_reprocessing_runs_import_run_id_fkey")
  else none

def newRun (runId owner importRunId operationId : Uuid) (report : ReprocessReport)
    (now : Instant) : ReprocessingRun where
  reprocessingRunId := runId
  operationId := operationId
  importRunId := importRunId
  userRef := owner
  detectedLayout := SUPPORTED_REPROCESSING_LAYOUT
  parserId := SUPPORTED_REPROCESSING_PARSER
  state := .running
  planFingerprint := report.planFingerprint
  stateFingerprint := report.stateFingerprint
  startedAt := now
  updatedAt := now

/-- `ensure_reprocessing_run`: the run of the operation and its state. -/
def ensureReprocessingRun (owner importRunId operationId : Uuid) (report : ReprocessReport) :
    StoreTx (Uuid × ReprocessingState) := do
  if ← statement (supportedReceipt owner importRunId) then
    match ← query (findRun owner operationId) with
    | some run =>
      if run.importRunId ≠ importRunId ∨ run.planFingerprint ≠ report.planFingerprint ∨
          run.stateFingerprint ≠ report.stateFingerprint then
        throw .planPreconditionChanged
      else return (run.reprocessingRunId, run.state)
    | none =>
      let runId ← nowV7
      let now ← Tx.now
      let run := newRun runId owner importRunId operationId report now
      insertInto "export_reprocessing_runs_pkey" Store.runs (fun s t => { s with runs := t })
        (runGuard run) run
      return (runId, .running)
  else throw (.query .rowNotFound)

/-! ## Applying a chunk -/

def itemState : ReprocessClassification → ReprocessingItemState
  | .conflict => .conflict
  | .warning => .warning
  | .omitted => .skipped
  | .normalized | .unknownRecord | .unknownSection => .applied

def ReprocessReportItem.row (runId : Uuid) (item : ReprocessReportItem) : ReprocessingItem where
  reprocessingRunId := runId
  itemKey := item.itemKey
  classification := item.classification
  state := itemState item.classification
  prospectiveDigest := item.digest
  appliedDigest := item.digest

/-- The checks of an item that its own values decide. -/
def ReprocessReportItem.unstorable (item : ReprocessReportItem) : Option SqlError :=
  if textHasNul item.itemKey || item.digest.any textHasNul then some .untranslatableCharacter
  else if item.itemKey.length < 1 ∨ 512 < item.itemKey.length then
    some (.checkViolation "export_reprocessing_items_item_key_check")
  else if item.digest.any fun digest => digest.length ≠ 64 then
    some (.checkViolation "export_reprocessing_items_digest_check")
  else none

def itemGuard (runId : Uuid) (item : ReprocessReportItem) (s : Store) : Option SqlError :=
  match item.unstorable with
  | some e => some e
  | none =>
    if (s.runs.lookup runId).isNone then
      some (.foreignKeyViolation "export_reprocessing_items_run_id_fkey")
    else none

/-- Inserts the items in order; the key of the last one. -/
def insertItems (runId : Uuid) : List ReprocessReportItem → Option String → StoreTx (Option String)
  | [], checkpoint => return checkpoint
  | item :: rest, _ => do
    insertInto "export_reprocessing_items_pkey" Store.items (fun s t => { s with items := t })
      (itemGuard runId item) (item.row runId)
    insertItems runId rest (some item.itemKey)

def itemsOf (runId : Uuid) (s : Store) : List ReprocessingItem :=
  s.items.rows.filter fun i => i.reprocessingRunId = runId

def existingKeys (runId : Uuid) (s : Store) : List String :=
  (itemsOf runId s).map ReprocessingItem.itemKey

def ReprocessReport.stored (report : ReprocessReport) : StoredReport where
  counts := report.counts
  warnings := report.warnings
  conflicts := report.conflicts
  completenessEvidence := report.completenessEvidence
  planFingerprint := report.planFingerprint
  stateFingerprint := report.stateFingerprint

/-- The state of a run that has every item. -/
def ReprocessReport.finalState (report : ReprocessReport) : ReprocessingState :=
  if !report.warnings.isEmpty || !report.conflicts.isEmpty then .completedWithWarnings
  else .completed

/-- The JSON of a report cannot hold a zero character. -/
def reportGuard (report : ReprocessReport) (_ : Store) : Option SqlError :=
  if report.warnings.any textHasNul || report.conflicts.any textHasNul ||
      textHasNul report.stateFingerprint then some .untranslatableCharacter
  else none

/-- A run after a chunk; the checkpoint stays where no item was inserted. -/
def ReprocessingRun.advanced (checkpoint : Option String) (report : ReprocessReport)
    (completed : Bool) (now : Instant) (run : ReprocessingRun) : ReprocessingRun :=
  { run with
    state := if completed then report.finalState else .running
    checkpointItemKey := checkpoint.or run.checkpointItemKey
    report := some report.stored
    updatedAt := now
    finishedAt := if completed then some now else none }

def finishRun (runId : Uuid) (checkpoint : Option String) (report : ReprocessReport)
    (completed : Bool) (now : Instant) (s : Store) : Store :=
  { s with
    runs := s.runs.update (fun r => r.reprocessingRunId = runId)
      (ReprocessingRun.advanced checkpoint report completed now) }

/-- `finish_reprocessing_run`: whether every planned item is committed. -/
def finishReprocessingRun (runId : Uuid) (checkpoint : Option String) (report : ReprocessReport) :
    StoreTx Bool := do
  let committedItems ← query fun s => (itemsOf runId s).length
  let completed := committedItems = report.items.length
  let now ← Tx.now
  executeChecked (reportGuard report) (finishRun runId checkpoint report completed now)
  return completed

/-- Applies at most `maxItems` deterministic plan items for one stable operation. -/
def applyChunk (lib : Externals) (owner importRunId operationId : Uuid)
    (inputs : List ReprocessInput) (stateFingerprint : String) (maxItems : Nat) :
    StoreTx ReprocessApplyOutcome := do
  let report := migrationApply lib inputs stateFingerprint
  let (runId, previousState) ← ensureReprocessingRun owner importRunId operationId report
  if previousState = .completed ∨ previousState = .completedWithWarnings then
    commit
    return ⟨runId, report, true⟩
  else
    let existing ← query (existingKeys runId)
    let checkpoint ← insertItems runId
      ((report.items.filter fun item => !existing.contains item.itemKey).take maxItems) none
    let completed ← finishReprocessingRun runId checkpoint report
    commit
    return ⟨runId, report, completed⟩

/-- Builds a reprocessing dry-run report for an owner-authorized receipt. -/
def dryRun (lib : Externals) (owner importRunId : Uuid) (inputs : List ReprocessInput)
    (stateFingerprint : String) : StoreTx ReprocessReport := do
  let authorized ← query fun s =>
    (s.archive.importRuns.lookup importRunId).any fun r => r.userRef = owner
  if authorized then return migrationDryRun lib inputs stateFingerprint
  else throw (.query .rowNotFound)

end InstagramArchive.Reprocessing

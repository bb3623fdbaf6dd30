import InstagramArchive.Json
import InstagramArchive.OwnMedia
import Mathlib.Data.Prod.Lex

/-!
# Data Export imports

An import run is received, inspected, parsed and reconciled. Each stage commits one
transaction that first checks the state it starts from; the work on the archive file lies
between the transactions. Reconciliation attaches every normalized record to the one media
row that its provider identity or its permalink names, keeps a record that names two rows as
a conflict, publishes each observation and reports what the export and the captures of the
owner have in common.

Counts that the source converts from `usize` to `i64` are lengths of vectors in memory and
always fit; the conversions are left out.
-/

namespace InstagramArchive.DataExport

open Relational Relational.Tx Permalink

/-! ## Errors -/

inductive ReceiptError where
  | bodyStream
  | bodyLimit
  | rawStorage
  | immutableConflict
  | persistence (error : SqlError)
  | corruptEvidence
  | blobContract
  deriving DecidableEq, Repr

inductive ArchiveFailureClass where
  | malformed
  | unsafePath
  | duplicateEntry
  | unsupportedEntryType
  | unsupportedEncoding
  | resourceLimit
  deriving DecidableEq, Repr

def ArchiveFailureClass.asStr : ArchiveFailureClass → String
  | .malformed => "archive_malformed"
  | .unsafePath => "archive_unsafe_path"
  | .duplicateEntry => "archive_duplicate_entry"
  | .unsupportedEntryType => "archive_unsupported_entry_type"
  | .unsupportedEncoding => "archive_unsupported_encoding"
  | .resourceLimit => "archive_resource_limit"

inductive ParserError where
  | archive (failure : ArchiveFailureClass)
  | unsupportedLayout
  | invalidJson
  deriving DecidableEq, Repr

/-- The stored failure class. -/
def ParserError.failureClass : ParserError → String
  | .archive _ => "parser_archive_refused"
  | .unsupportedLayout => "parser_unsupported_layout"
  | .invalidJson => "parser_invalid_json"

inductive ImportError where
  | archive (failure : ArchiveFailureClass)
  | parser (error : ParserError)
  | publish (error : PublishError)
  | reconciliation
  | receipt (error : ReceiptError)
  | stateConflict
  deriving DecidableEq, Repr

instance : OfSql ReceiptError := ⟨.persistence⟩
instance : OfSql ImportError := ⟨fun e => .receipt (.persistence e)⟩

abbrev ImportTx := ArchiveTx ImportError

/-! ## What the parser returns -/

def savedPostsPath : String := "your_instagram_activity/saved/saved_posts.json"
def detectedLayout : String := "instagram-json-saved-posts"
def dataExportParserId : String := "instagram-saved-posts-json-v1"

structure ParsedExportRecord where
  shortcode : String
  canonicalUrl : String
  displayAuthor : Option String
  observedAtUnix : Int
  semanticDigest : String
  deriving DecidableEq, Repr

structure UnknownExportEntry where
  path : String
  compressedSize : Nat
  decompressedSize : Nat
  mediaReference : Bool
  byteStatus : String
  deriving DecidableEq, Repr

structure UnknownExportRecord where
  evidenceKey : String
  semanticDigest : String
  raw : Json

structure ParserWarning where
  code : String
  evidenceKey : String
  deriving DecidableEq, Repr

/-- The output of the parser. Its identifier and layout are the constants above; the
category list and the digest of the whole section are read by no modelled function. -/
structure ParsedExport where
  records : List ParsedExportRecord
  unknownEntries : List UnknownExportEntry
  unknownRecords : List UnknownExportRecord
  warnings : List ParserWarning

/-! ## JSON texts of staged values -/

def ParsedExportRecord.json (r : ParsedExportRecord) : String :=
  jsonObject
    [("acquisition_method", jsonString "data_export"), ("canonical_url", jsonString r.canonicalUrl),
      ("display_author", jsonOption r.displayAuthor),
      ("observed_at_unix", toString r.observedAtUnix),
      ("saved_authority", jsonString "export_observation"),
      ("semantic_digest", jsonString r.semanticDigest), ("shortcode", jsonString r.shortcode)]

def UnknownExportEntry.json (e : UnknownExportEntry) : String :=
  jsonObject
    [("byte_status", jsonString e.byteStatus), ("compressed_size", toString e.compressedSize),
      ("decompressed_size", toString e.decompressedSize),
      ("media_reference", if e.mediaReference then "true" else "false"),
      ("path", jsonString e.path)]

def ParserWarning.json (w : ParserWarning) : String :=
  jsonObject [("code", jsonString w.code), ("evidence_key", jsonString w.evidenceKey)]

/-- The compact JSON text of a stored payload. -/
def payloadText : ExportPayload → String
  | .document json => json
  | .warning _ json => json
  | .conflict reason providerId canonicalUrl record =>
    jsonObject
      [("canonical_url", jsonString canonicalUrl), ("provider_id", jsonString providerId),
        ("reason", jsonString reason), ("record", payloadText record)]

/-! ## Digests -/

/-- `char::to_digit(16)`. -/
def hexValue? (c : Char) : Option Nat :=
  if '0' ≤ c ∧ c ≤ '9' then some (c.toNat - '0'.toNat)
  else if 'a' ≤ c ∧ c ≤ 'f' then some (c.toNat - 'a'.toNat + 10)
  else if 'A' ≤ c ∧ c ≤ 'F' then some (c.toNat - 'A'.toNat + 10)
  else none

/-- `u8::from_str_radix` of two characters: a leading `+` is a sign. -/
def radixByte? (high low : Char) : Option UInt8 :=
  if high = '+' then (hexValue? low).map Nat.toUInt8
  else (hexValue? high).bind fun h => (hexValue? low).map fun l => (16 * h + l).toUInt8

def decodePairs : List Char → Option (List UInt8)
  | [] => some []
  | [_] => none
  | high :: low :: rest =>
    (radixByte? high low).bind fun b => (decodePairs rest).map fun bytes => b :: bytes

def decodeSha256 (value : String) : Except ParserError (List UInt8) :=
  if value.utf8ByteSize ≠ 64 then .error .invalidJson
  else match decodePairs value.toList with
    | some bytes => .ok bytes
    | none => .error .invalidJson

/-! ## Rows -/

def transitionGuard (row : ImportRunTransition) (db : Db) : Option SqlError :=
  if db.importRunTransitions.rows.any fun t => t.runId = row.runId && t.ordinal = row.ordinal then
    some (.uniqueViolation "import_run_transitions_run_ordinal_key")
  else if (db.importRuns.lookup row.runId).isNone then
    some (.foreignKeyViolation "import_run_transitions_run_id_fkey")
  else none

def insertTransition {ε : Type} [OfSql ε] (row : ImportRunTransition) : ArchiveTx ε Unit :=
  insertInto "import_run_transitions_pkey" Db.importRunTransitions
    (fun db t => { db with importRunTransitions := t }) (transitionGuard row) row

def importRunGuard (row : ImportRun) (db : Db) : Option SqlError :=
  if db.importRuns.rows.any fun r => r.snapshotId = row.snapshotId then
    some (.uniqueViolation "import_runs_snapshot_id_key")
  else match db.exportSnapshots.lookup row.snapshotId with
    | none => some (.foreignKeyViolation "import_runs_snapshot_id_fkey")
    | some s => if s.userRef = row.userRef then none
      else some (.foreignKeyViolation "import_runs_snapshot_user_fkey")

def recordGuard (row : ExportRecord) (db : Db) : Option SqlError :=
  if db.exportRecords.rows.any fun r => r.runId = row.runId && r.evidenceKey = row.evidenceKey then
    some (.uniqueViolation "export_records_run_evidence_key")
  else if (db.importRuns.lookup row.runId).isNone then
    some (.foreignKeyViolation "export_records_run_id_fkey")
  else none

/-- The rows of a run that a compare-and-swap update reaches. -/
def ImportRun.inState (runId : Uuid) (state : ImportState) (r : ImportRun) : Bool :=
  r.runId = runId && r.state = state

/-- `update import_runs .. where run_id = $1 and state = $2`: whether exactly one row was
written. -/
def advanceRun (runId : Uuid) (state : ImportState) (f : ImportRun → ImportRun)
    (hf : ∀ r, (f r).runId = r.runId := by intro; rfl) : ImportTx Bool := statement fun db =>
  .ok ((db.importRuns.rows.filter (ImportRun.inState runId state)).length = 1,
    { db with importRuns := db.importRuns.update (ImportRun.inState runId state) f hf })

/-! ## Receipt -/

structure StoredArchive where
  archive : BlobRef
  digest : List UInt8
  byteSize : Nat
  deriving DecidableEq, Repr

structure ExportReceipt where
  runId : Uuid
  state : ImportState
  archive : BlobRef
  deriving DecidableEq, Repr

inductive ReceiptOutcome where
  | created (receipt : ExportReceipt)
  | replayed (receipt : ExportReceipt)
  deriving DecidableEq, Repr

/-- The snapshot of an owner's archive. -/
def snapshotOf (userRef : Uuid) (digest : List UInt8) (db : Db) : Option ExportSnapshot :=
  db.exportSnapshots.rows.find? fun s => s.userRef = userRef && s.archiveHash = digest

/-- The run of an owner's archive with the stored reference. -/
def receivedRun (userRef : Uuid) (digest : List UInt8) (db : Db) :
    Option (Uuid × ImportState × BlobRef) := do
  let s ← snapshotOf userRef digest db
  let r ← db.importRuns.rows.find? fun r => r.snapshotId = s.snapshotId
  return (r.runId, r.state, s.archive)

def persistReceipt (userRef : Uuid) (stored : StoredArchive) :
    ArchiveTx ReceiptError ReceiptOutcome := do
  let receivedAt ← nowUtc
  let snapshotId ← nowV7
  let created ← insertUnless "export_snapshots_pkey" Db.exportSnapshots
    (fun db t => { db with exportSnapshots := t }) (fun _ => none)
    (fun db => (snapshotOf userRef stored.digest db).isSome)
    { snapshotId, userRef, archiveHash := stored.digest, archive := stored.archive,
      archiveByteSize := stored.byteSize, receivedAt }
  if created then
    let runId ← nowV7
    let run : ImportRun :=
      { runId, snapshotId, userRef, state := .received, receivedAt, updatedAt := receivedAt }
    insertInto "import_runs_pkey" Db.importRuns (fun db t => { db with importRuns := t })
      (importRunGuard run) run
    let transitionId ← nowV7
    insertTransition
      { transitionId, runId, ordinal := 1, fromState := none, toState := .received,
        occurredAt := receivedAt }
    commit
    return .created ⟨runId, .received, stored.archive⟩
  else
    let (runId, state, existing) ← fetchOne .corruptEvidence
      fun db => receivedRun userRef stored.digest db
    if existing ≠ stored.archive then throw .corruptEvidence
    else
      commit
      return .replayed ⟨runId, state, existing⟩

/-! ## Inspection -/

def finishInspection (runId : Uuid) (failure : Option ArchiveFailureClass) : ImportTx Unit := do
  let occurredAt ← nowUtc
  let toState : ImportState := if failure.isSome then .failed else .inspected
  let failureClass := failure.map ArchiveFailureClass.asStr
  let advanced ← advanceRun runId .received fun r =>
    { r with
      state := toState
      failureClass
      updatedAt := occurredAt
      finishedAt := failure.map fun _ => occurredAt }
  if !advanced then throw .stateConflict
  else
    let transitionId ← nowV7
    insertTransition
      { transitionId, runId, ordinal := 2, fromState := some .received, toState, failureClass,
        occurredAt }
    commit

/-! ## Staging -/

/-- The identity of a staged record. -/
def stagedRecordId (lib : Externals) (runId : Uuid) (evidenceKey : String) : Uuid :=
  lib.newV5 (.named runId evidenceKey)

def insertStagedRecord (row : ExportRecord) : ImportTx Unit :=
  insertInto "export_records_pkey" Db.exportRecords (fun db t => { db with exportRecords := t })
    (recordGuard row) row

def normalizedKey (r : ParsedExportRecord) : String :=
  "normalized:" ++ r.shortcode ++ ":" ++ r.semanticDigest

def unknownSectionKey (e : UnknownExportEntry) : String := "unknown_section:" ++ e.path

def warningKey (w : ParserWarning) : String := "warning:" ++ w.code ++ ":" ++ w.evidenceKey

def stagedRecord (lib : Externals) (runId : Uuid) (processedAt : Instant) (evidenceKey : String)
    (recordKind : ExportRecordKind) (category entryPath : String)
    (entryDigest : Option (List UInt8)) (entryByteSize : Nat) (providerId canonicalUrl : Option String)
    (payload : ExportPayload) : ExportRecord :=
  { recordId := stagedRecordId lib runId evidenceKey, runId, evidenceKey, recordKind, category,
    entryPath, entryDigest, entryByteSize, providerId, canonicalUrl, payload, processedAt }

def stageRecords (lib : Externals) (runId : Uuid) (processedAt : Instant) :
    List ParsedExportRecord → ImportTx Unit
  | [] => return ()
  | r :: rest => do
    let digest ← mapError .parser (ofExcept (decodeSha256 r.semanticDigest))
    insertStagedRecord (stagedRecord lib runId processedAt (normalizedKey r) .normalized
      "saved_posts" savedPostsPath (some digest) r.json.utf8ByteSize (some r.shortcode)
      (some r.canonicalUrl) (.document r.json))
    stageRecords lib runId processedAt rest

def stageUnknownEntries (lib : Externals) (runId : Uuid) (processedAt : Instant) :
    List UnknownExportEntry → ImportTx Unit
  | [] => return ()
  | e :: rest => do
    if e.decompressedSize > i64Max then throw (.parser .invalidJson)
    else
      insertStagedRecord (stagedRecord lib runId processedAt (unknownSectionKey e) .unknownSection
        "unknown" e.path none e.decompressedSize none none (.document e.json))
      stageUnknownEntries lib runId processedAt rest

def stageUnknownRecords (lib : Externals) (runId : Uuid) (processedAt : Instant) :
    List UnknownExportRecord → ImportTx Unit
  | [] => return ()
  | r :: rest => do
    let digest ← mapError .parser (ofExcept (decodeSha256 r.semanticDigest))
    -- the other staged values hold no text from inside the archive that is not checked before
    if r.raw.hasNul then throw (OfSql.ofSql .untranslatableCharacter)
    else
      insertStagedRecord (stagedRecord lib runId processedAt r.evidenceKey .unknownRecord
        "saved_posts" savedPostsPath (some digest) r.raw.render.utf8ByteSize none none
        (.document r.raw.render))
      stageUnknownRecords lib runId processedAt rest

def stageWarnings (lib : Externals) (runId : Uuid) (processedAt : Instant) :
    List ParserWarning → ImportTx Unit
  | [] => return ()
  | w :: rest => do
    insertStagedRecord (stagedRecord lib runId processedAt (warningKey w) .warning "warning"
      savedPostsPath none w.json.utf8ByteSize none none (.warning w.code w.json))
    stageWarnings lib runId processedAt rest

def persistParsed (lib : Externals) (runId : Uuid) (parsed : ParsedExport) : ImportTx Unit := do
  let processedAt ← nowUtc
  let state ← query fun db => (db.importRuns.lookup runId).map ImportRun.state
  if state ≠ some .inspected then throw .stateConflict
  else
    stageRecords lib runId processedAt parsed.records
    stageUnknownEntries lib runId processedAt parsed.unknownEntries
    stageUnknownRecords lib runId processedAt parsed.unknownRecords
    stageWarnings lib runId processedAt parsed.warnings
    let advanced ← advanceRun runId .inspected fun r =>
      { r with
        state := .parsed
        detectedLayout := some detectedLayout
        parserId := some dataExportParserId
        recordsProcessed := parsed.records.length + parsed.unknownEntries.length +
          parsed.unknownRecords.length + parsed.warnings.length
        warningCount := parsed.warnings.length
        updatedAt := processedAt }
    if !advanced then throw .stateConflict
    else
      let transitionId ← nowV7
      insertTransition
        { transitionId, runId, ordinal := 3, fromState := some .inspected, toState := .parsed,
          occurredAt := processedAt }
      commit

def failParse (runId : Uuid) (failureClass : String) : ImportTx Unit := do
  let occurredAt ← nowUtc
  let advanced ← advanceRun runId .inspected fun r =>
    { r with
      state := .failed
      failureClass := some failureClass
      updatedAt := occurredAt
      finishedAt := some occurredAt }
  if !advanced then throw .stateConflict
  else
    let transitionId ← nowV7
    insertTransition
      { transitionId, runId, ordinal := 3, fromState := some .inspected, toState := .failed,
        failureClass := some failureClass, occurredAt }
    commit

/-! ## Reconciling one record -/

structure NormalizedRow where
  recordId : Uuid
  providerId : String
  canonicalUrl : String
  payload : ExportPayload
  digest : List UInt8
  byteSize : Nat
  deriving DecidableEq, Repr

/-- A record is read by the columns that are not null; its digest must be one of them. -/
def normalizedRow (r : ExportRecord) (providerId canonicalUrl : String) :
    Except SqlError NormalizedRow :=
  match r.entryDigest with
  | none => .error (.columnDecode "entry_digest")
  | some digest =>
    .ok ⟨r.recordId, providerId, canonicalUrl, r.payload, digest, r.entryByteSize⟩

/-- The order of the normalized records of a run. -/
def recordBefore (a b : ExportRecord) : Prop :=
  toLex (a.providerId.getD "", a.evidenceKey) ≤ toLex (b.providerId.getD "", b.evidenceKey)

instance : DecidableRel recordBefore := fun a b =>
  inferInstanceAs (Decidable (toLex (a.providerId.getD "", a.evidenceKey) ≤
    toLex (b.providerId.getD "", b.evidenceKey)))

def normalizedRecords (runId : Uuid) (db : Db) : List ExportRecord :=
  (db.exportRecords.rows.filter fun r =>
    r.runId = runId && r.recordKind = .normalized && r.providerId.isSome && r.canonicalUrl.isSome)
    |>.insertionSort recordBefore

def readRecords : List ExportRecord → Except SqlError (List NormalizedRow)
  | [] => .ok []
  | r :: rest =>
    match r.providerId, r.canonicalUrl with
    | some providerId, some url => do
      let row ← normalizedRow r providerId url
      let more ← readRecords rest
      return row :: more
    | _, _ => readRecords rest

/-- The media rows a record names. -/
def exportMatches (providerId canonicalUrl : String) (db : Db) : List Media :=
  (db.media.rows.filter fun m =>
    m.providerMediaId = some providerId || m.permalink = canonicalUrl)
    |>.insertionSort fun a b => a.mediaId ≤ b.mediaId

/-- A row whose provenance an export observation does not replace. -/
def Media.stronger (m : Media) : Bool :=
  (m.acquisitionMethod ≠ .dataExport && m.acquisitionMethod ≠ .legacyImport) ||
    (m.savedAuthority ≠ .exportObservation && m.savedAuthority ≠ .legacyObservation)

def newExportMedia (mediaId : Uuid) (row : NormalizedRow) (observedAt : Instant) : Media :=
  { mediaId
    providerMediaId := some row.providerId
    permalink := row.canonicalUrl
    mediaType := .unknown
    caption := none
    acquisitionMethod := .dataExport
    savedAuthority := .exportObservation
    upstreamStatus := .unknown
    createdAt := observedAt
    updatedAt := observedAt }

def rawEvidenceId (lib : Externals) (recordId : Uuid) : Uuid :=
  lib.newV5 (.named recordId "normalized-export-evidence")

def exportRevisionId (lib : Externals) (recordId : Uuid) : Uuid :=
  lib.newV5 (.named recordId "media-revision")

def rawEvidence (lib : Externals) (row : NormalizedRow) (observedAt : Instant) : RawRecord :=
  { rawRecordId := rawEvidenceId lib row.recordId
    recordKind := .exportSection
    blobRef := hexEncode row.digest
    contentHash := row.digest
    byteSize := row.byteSize
    body := payloadText row.payload
    observedAt }

def exportRevision (lib : Externals) (row : NormalizedRow) (mediaId : Uuid) (observedAt : Instant) :
    MediaRevision :=
  { revisionId := exportRevisionId lib row.recordId
    mediaId
    rawRecordId := rawEvidenceId lib row.recordId
    parserVersion := dataExportParserId
    resolvedAt := observedAt }

/-- Another row with the provider identity. -/
def providerTaken (mediaId : Uuid) (providerId : String) (db : Db) : Bool :=
  db.media.rows.any fun m => m.providerMediaId = some providerId && m.mediaId ≠ mediaId

/-- The observation becomes the projection of a row that nothing stronger describes. -/
def projectExport (lib : Externals) (row : NormalizedRow) (mediaId : Uuid) (observedAt : Instant) :
    ImportTx Unit :=
  executeChecked
    (fun db =>
      if providerTaken mediaId row.providerId db then
        some (.uniqueViolation "media_provider_media_id_key")
      else if permalinkTaken mediaId row.canonicalUrl db then
        some (.uniqueViolation "media_permalink_key")
      else if (db.mediaRevisions.lookup (exportRevisionId lib row.recordId)).isNone then
        some (.foreignKeyViolation "media_current_revision_id_fkey")
      else none)
    fun db => { db with
      media := db.media.update (fun m => m.mediaId = mediaId) fun m =>
        { m with
          providerMediaId := some row.providerId
          permalink := row.canonicalUrl
          acquisitionMethod := .dataExport
          savedAuthority := .exportObservation
          currentRevisionId := some (exportRevisionId lib row.recordId)
          updatedAt := observedAt } }

/-! ### Its fact -/

def partialWarning : String := "social.source.export_observation_partial"

def exportSnapshot (lib : Externals) (owner : Uuid) (row : NormalizedRow) (archive : BlobRef)
    (observedAt : Instant) : SocialSourceSnapshot :=
  { socialSourceId := ownMediaSourceIdentity lib owner row.providerId
    platform := socialPlatform
    externalPostId := row.providerId
    permalink := some row.canonicalUrl
    owner
    capturedAt := observedAt
    text := none
    media := []
    contentDigest := ⟨hexEncode row.digest⟩
    rawBlob := some archive
    acquisition := .dataExport
    savedAuthority := .exportObservation
    upstreamAvailability := .available
    warnings := [partialWarning] }

/-- The captured and updated facts that aggregate on a source. -/
def priorFacts (sourceId : Uuid) (db : Db) : List OutboxEvent :=
  (mediaEvents sourceId db).filter fun e =>
    e.eventType = .sourceCaptured || e.eventType = .sourceUpdated

/-- Appends one owner-scoped observation unless its digest is published for this source
already. The fact aggregates on the source, not on the media row. -/
def appendDataExportFact (lib : Externals) (mediaId owner : Uuid) (row : NormalizedRow)
    (archive : BlobRef) (observedAt : Instant) : ArchiveTx PublishError Bool := do
  let sourceId := ownMediaSourceIdentity lib owner row.providerId
  let prior ← query (priorFacts sourceId)
  if prior.any fun e => e.payload.payload.digestHex? = some (hexEncode row.digest) then
    return false
  else
    let kind : FactKind := if prior.isEmpty then .captured else .updated
    let snapshot := exportSnapshot lib owner row archive observedAt
    ofExcept (accepted lib mediaId (kind.payload snapshot))
    let eventId ← nowV7
    insertMediaFact (mediaAggregateRow kind sourceId snapshot eventId observedAt)

/-! ### The record -/

/-- What reconciliation knows of its run. -/
structure RunContext where
  runId : Uuid
  owner : Uuid
  observedAt : Instant
  archive : BlobRef
  deriving DecidableEq, Repr

def conflictReason : String := "provider_and_permalink_resolve_to_distinct_media"

/-- A record whose identities name distinct media rows, kept as evidence. -/
def conflictRecord (lib : Externals) (ctx : RunContext) (row : NormalizedRow) : ExportRecord :=
  { recordId := lib.newV5 (.named row.recordId "identity-conflict")
    runId := ctx.runId
    evidenceKey := "conflict:" ++ row.providerId ++ ":" ++ hexEncode row.digest
    recordKind := .conflict
    category := "saved_posts"
    entryPath := savedPostsPath
    entryDigest := some row.digest
    entryByteSize := row.byteSize
    providerId := some row.providerId
    canonicalUrl := some row.canonicalUrl
    payload := .conflict conflictReason row.providerId row.canonicalUrl row.payload
    processedAt := ctx.observedAt }

/-- `on conflict (run_id, evidence_key) do nothing`. -/
def persistConflict (lib : Externals) (ctx : RunContext) (row : NormalizedRow) : ImportTx Unit := do
  let record := conflictRecord lib ctx row
  let _ ← insertUnless "export_records_pkey" Db.exportRecords
    (fun db t => { db with exportRecords := t })
    (fun db => if (db.importRuns.lookup ctx.runId).isNone then
      some (.foreignKeyViolation "export_records_run_id_fkey") else none)
    (fun db => db.exportRecords.rows.any fun r =>
      r.runId = record.runId && r.evidenceKey = record.evidenceKey) record

def exportMediaGuard (row : Media) (db : Db) : Option SqlError :=
  if row.providerMediaId.any fun id => (mediaByProvider id db).isSome then
    some (.uniqueViolation "media_provider_media_id_key")
  else if permalinkTaken row.mediaId row.permalink db then
    some (.uniqueViolation "media_permalink_key")
  else none

/-- The media row of a record that names at most one. -/
def exportMediaId (lib : Externals) (ctx : RunContext) (row : NormalizedRow) :
    Option Media → ImportTx Uuid
  | some m => return m.mediaId
  | none => do
    let media := newExportMedia (sourceIdentity lib ctx.owner row.canonicalUrl) row ctx.observedAt
    insertInto "media_pkey" Db.media (fun db t => { db with media := t }) (exportMediaGuard media)
      media
    return media.mediaId

/-- The evidence and the revision of a record under its media row. -/
def insertEvidence (lib : Externals) (ctx : RunContext) (row : NormalizedRow) (mediaId : Uuid) :
    ImportTx Unit := do
  let raw := rawEvidence lib row ctx.observedAt
  let _ ← insertUnless "raw_records_pkey" Db.rawRecords (fun db t => { db with rawRecords := t })
    (fun _ => none) (fun db => (db.rawRecords.lookup raw.rawRecordId).isSome) raw
  let revision := exportRevision lib row mediaId ctx.observedAt
  let _ ← insertUnless "media_revisions_pkey" Db.mediaRevisions
    (fun db t => { db with mediaRevisions := t }) (revisionGuard revision)
    (fun db => (db.mediaRevisions.lookup revision.revisionId).isSome) revision

def reconcileRecord (lib : Externals) (ctx : RunContext) (row : NormalizedRow) : ImportTx Unit := do
  let found ← query (exportMatches row.providerId row.canonicalUrl)
  if found.length > 1 then persistConflict lib ctx row
  else
    let mediaId ← exportMediaId lib ctx row found.head?
    insertEvidence lib ctx row mediaId
    if !found.head?.any Media.stronger then projectExport lib row mediaId ctx.observedAt
    let _ ← mapError .publish
      (appendDataExportFact lib mediaId ctx.owner row ctx.archive ctx.observedAt)

def reconcileRecords (lib : Externals) (ctx : RunContext) : List NormalizedRow → ImportTx Unit
  | [] => return ()
  | row :: rest => do
    reconcileRecord lib ctx row
    reconcileRecords lib ctx rest

/-! ## The report -/

def authorityDisclaimer : String :=
  "An export is one observation; it does not prove complete account history or Instagram native Saved membership, and absence does not prove unsave or deletion."

structure CompletenessReport where
  matched : List String
  exportOnly : List String
  captureOnly : List String
  nonComparable : List String
  categories : List String
  warnings : List String
  authorityDisclaimer : String
  deriving DecidableEq, Repr

/-- A `BTreeSet` of strings as its ordered list. -/
def orderedSet (values : List String) : List String :=
  values.dedup.insertionSort (· ≤ ·)

/-- The captures of an owner that take part in the comparison. -/
def ownerCaptures (owner : Uuid) (db : Db) : List Capture :=
  db.captures.rows.filter fun c => c.userRef = owner && c.status ≠ .tombstoned

def ExportPayload.code? : ExportPayload → Option String
  | .warning code _ => some code
  | _ => none

def buildReport (ctx : RunContext) (records : List NormalizedRow) (db : Db) : CompletenessReport :=
  let exported := orderedSet (records.map NormalizedRow.providerId)
  let captures := ownerCaptures ctx.owner db
  let comparable := orderedSet (captures.filterMap fun c =>
    (canonicalize c.canonicalUrl).toOption.map CanonicalPermalink.shortcode)
  let staged := db.exportRecords.rows.filter fun r => r.runId = ctx.runId
  { matched := exported.filter fun id => comparable.contains id
    exportOnly := exported.filter fun id => !comparable.contains id
    captureOnly := comparable.filter fun id => !exported.contains id
    nonComparable := orderedSet ((captures.filter fun c =>
      !(canonicalize c.canonicalUrl).toOption.isSome).map fun c => toString c.captureId)
    categories := orderedSet ((staged.filter fun r => r.recordKind ≠ .warning).map
      ExportRecord.category)
    warnings := orderedSet ((staged.filter fun r => r.recordKind = .warning).filterMap fun r =>
      ExportPayload.code? r.payload)
    authorityDisclaimer }

def reportGuard (row : ExportCompletenessReport) (db : Db) : Option SqlError :=
  if db.exportReports.rows.any fun r => r.runId = row.runId then
    some (.uniqueViolation "export_completeness_reports_run_id_key")
  else if (db.importRuns.lookup row.runId).isNone then
    some (.foreignKeyViolation "export_completeness_reports_run_id_fkey")
  else none

def reportRow (lib : Externals) (ctx : RunContext) (report : CompletenessReport) :
    ExportCompletenessReport :=
  { reportId := lib.newV5 (.named ctx.runId "completeness-report")
    runId := ctx.runId
    matched := report.matched
    exportOnly := report.exportOnly
    captureOnly := report.captureOnly
    nonComparable := report.nonComparable
    categories := report.categories
    warnings := report.warnings
    authorityDisclaimer := report.authorityDisclaimer
    createdAt := ctx.observedAt }

def persistReport (lib : Externals) (ctx : RunContext) (report : CompletenessReport) :
    ImportTx Unit :=
  insertInto "export_completeness_reports_pkey" Db.exportReports
    (fun db t => { db with exportReports := t }) (reportGuard (reportRow lib ctx report))
    (reportRow lib ctx report)

def loadReport (runId : Uuid) (db : Db) : Option CompletenessReport :=
  (db.exportReports.rows.find? fun r => r.runId = runId).map fun r =>
    { matched := r.matched
      exportOnly := r.exportOnly
      captureOnly := r.captureOnly
      nonComparable := r.nonComparable
      categories := r.categories
      warnings := r.warnings
      authorityDisclaimer := r.authorityDisclaimer }

/-! ## Reconciliation -/

/-- The run with its snapshot. -/
def importContext (runId : Uuid) (db : Db) : Option (ImportState × RunContext) := do
  let r ← db.importRuns.lookup runId
  let s ← db.exportSnapshots.lookup r.snapshotId
  return (r.state, ⟨runId, r.userRef, r.receivedAt, s.archive⟩)

/-- The records, the report and the last transition of a parsed run. -/
def reconcileParsed (lib : Externals) (ctx : RunContext) : ImportTx CompletenessReport := do
  let stored ← query (normalizedRecords ctx.runId)
  let records ← ofExcept ((readRecords stored).mapError OfSql.ofSql)
  reconcileRecords lib ctx records
  let report ← query (buildReport ctx records)
  persistReport lib ctx report
  let advanced ← advanceRun ctx.runId .parsed fun r =>
    { r with
      state := .reconciled
      updatedAt := ctx.observedAt
      finishedAt := some ctx.observedAt }
  if !advanced then throw .stateConflict
  else
    let transitionId ← nowV7
    insertTransition
      { transitionId, runId := ctx.runId, ordinal := 4, fromState := some .parsed,
        toState := .reconciled, occurredAt := ctx.observedAt }
    commit
    return report

def reconcile (lib : Externals) (runId : Uuid) : ImportTx CompletenessReport := do
  let (state, ctx) ← fetchOne .stateConflict (importContext runId)
  match state with
  | .reconciled => fetchOne .reconciliation (loadReport runId)
  | .parsed => reconcileParsed lib ctx
  | _ => throw .stateConflict

end InstagramArchive.DataExport

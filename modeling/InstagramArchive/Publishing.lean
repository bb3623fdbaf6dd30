import InstagramArchive.Schema

/-!
# Social-source publishing

Snapshots are read back from stored rows, wrapped in an envelope and appended to
the outbox inside the caller's open transaction. `snapshotAt` is what
`buildSnapshot` reads from a store; the lemmas at the end say what each append
leaves in the database.
-/

namespace InstagramArchive

open Relational Relational.Tx Permalink

/-- Why an event could not be built or appended. -/
inductive PublishError where
  | nothingToPublish (captureId : Uuid)
  | invalidStoredPermalink (captureId : Uuid)
  | contractViolation (captureId : Uuid) (message : String)
  | persistence (error : SqlError)
  deriving DecidableEq, Repr

instance : OfSql PublishError := ⟨.persistence⟩

/-- Which fact a publication represents. -/
inductive FactKind where
  | captured
  | updated
  deriving DecidableEq, Repr

def FactKind.eventType : FactKind → EventType
  | .captured => .sourceCaptured
  | .updated => .sourceUpdated

def FactKind.payload : FactKind → SocialSourceSnapshot → EventPayload
  | .captured => .captured
  | .updated => .updated

def socialPlatform : String := "instagram"

def mediaWarning : String := "social.source.media_not_archived"

/-- The stable identity of one `(owner, permalink)` pair. -/
def sourceIdentity (lib : Externals) (owner : Uuid) (canonicalPermalink : String) : Uuid :=
  lib.newV5 (.captured owner canonicalPermalink)

/-- The stable identity of one official own-media item. -/
def ownMediaSourceIdentity (lib : Externals) (owner : Uuid) (providerMediaId : String) : Uuid :=
  lib.newV5 (.official owner providerMediaId)

/-! ## The content digest -/

def digestDomain : String := "instagram.snapshot-content"

def upstreamToken : UpstreamAvailability → String
  | .available => "available"
  | .deletedUpstream => "deleted"
  | .unavailable => "unavailable"

/-- The digest of what a snapshot states about the post. Capture time, provenance
and the raw blob are not content. -/
def snapshotContentDigest (lib : Externals) (snapshot : SocialSourceSnapshot) : ContentDigest :=
  lib.digestPreimage
    { domain := digestDomain
      permalink := snapshot.permalink
      externalPostId := snapshot.externalPostId
      caption := snapshot.text
      upstream := upstreamToken snapshot.upstreamAvailability
      media := snapshot.media }

/-! ## Snapshots -/

/-- The normalized content of the newest revision of a capture's media row. -/
structure CurrentRow where
  caption : Option String
  rawBlobHex : String
  byteSize : Nat
  upstreamStatus : UpstreamStatus
  observedAt : Instant

/-- The join of a capture, its media row, the current revision and its raw record. -/
def currentRow (db : Db) (captureId : Uuid) : Option CurrentRow := do
  let c ← db.captures.lookup captureId
  let mediaId ← c.mediaId
  let m ← db.media.lookup mediaId
  let revisionId ← m.currentRevisionId
  let r ← db.mediaRevisions.lookup revisionId
  let b ← db.rawRecords.lookup r.rawRecordId
  return { caption := m.caption, rawBlobHex := b.blobRef, byteSize := b.byteSize,
           upstreamStatus := m.upstreamStatus,
           observedAt := max c.capturedAt (max r.resolvedAt m.updatedAt) }

/-- The text of a stored caption: nothing for a missing or empty one, and a refusal
when the contract refuses it. -/
def snapshotText (lib : Externals) (captureId : Uuid) :
    Option String → Except PublishError (Option String)
  | none => .ok none
  | some body =>
    if body.isEmpty then .ok none
    else match lib.parsePostText body with
      | some text => .ok (some text)
      | none => .error (.contractViolation captureId "stored caption rejected")

def upstreamAvailability : UpstreamStatus → UpstreamAvailability
  | .available => .available
  | .deleted => .deletedUpstream
  | _ => .unavailable

/-- A captured fact keeps the capture's own time; an updated fact is observed later. -/
def factTime (kind : FactKind) (capturedAt observedAt : Instant) : Instant :=
  match kind with
  | .captured => capturedAt
  | .updated => observedAt

/-- The snapshot of the rows read, its content digest filled in last. -/
def assemble (lib : Externals) (kind : FactKind) (capture : Capture)
    (permalink : CanonicalPermalink) (row : CurrentRow) (text : Option String) :
    SocialSourceSnapshot :=
  let snapshot : SocialSourceSnapshot :=
    { socialSourceId := sourceIdentity lib capture.userRef permalink.url
      platform := socialPlatform
      externalPostId := permalink.shortcode
      permalink := some permalink.url
      owner := capture.userRef
      capturedAt := factTime kind capture.capturedAt row.observedAt
      text
      media := []
      contentDigest := ⟨row.rawBlobHex⟩
      rawBlob := some ⟨row.rawBlobHex, "application/json", row.byteSize⟩
      acquisition := capture.acquisitionMethod
      savedAuthority := .explicitUserCapture
      upstreamAvailability := upstreamAvailability row.upstreamStatus
      warnings := [mediaWarning] }
  { snapshot with contentDigest := snapshotContentDigest lib snapshot }

/-- The stored URL, canonicalized again. -/
def storedPermalink (captureId : Uuid) (capture : Capture) :
    Except PublishError CanonicalPermalink :=
  (canonicalize capture.canonicalUrl).mapError fun _ => .invalidStoredPermalink captureId

/-- A payload the contracts accept. -/
def accepted (lib : Externals) (subject : Uuid) (payload : EventPayload) :
    Except PublishError Unit :=
  match lib.refusal payload with
  | none => .ok ()
  | some message => .error (.contractViolation subject message)

/-- Reads stored rows back into one snapshot. -/
def buildSnapshot (lib : Externals) (captureId : Uuid) (kind : FactKind) :
    ArchiveTx PublishError SocialSourceSnapshot := do
  let capture ← fetchOne (.persistence .rowNotFound) fun db => db.captures.lookup captureId
  let permalink ← ofExcept (storedPermalink captureId capture)
  let row ← fetchOne (.nothingToPublish captureId) fun db => currentRow db captureId
  let text ← ofExcept (snapshotText lib captureId row.caption)
  let snapshot := assemble lib kind capture permalink row text
  ofExcept (accepted lib captureId (kind.payload snapshot))
  return snapshot

/-- The digest of the capture's current snapshot. -/
def currentContentDigest (lib : Externals) (captureId : Uuid) :
    ArchiveTx PublishError ContentDigest := do
  let snapshot ← buildSnapshot lib captureId .captured
  return snapshot.contentDigest

/-! ## Outbox appends -/

def insertOutboxEvent {ε : Type} [OfSql ε] (row : OutboxEvent) : ArchiveTx ε Unit :=
  insertInto "outbox_events_pkey" Db.outboxEvents (fun db t => { db with outboxEvents := t })
    (fun _ => none) row

/-- The outbox row of a captured or updated fact. -/
def factRow (kind : FactKind) (captureId : Uuid) (snapshot : SocialSourceSnapshot)
    (eventId : Uuid) (occurredAt : Instant) : OutboxEvent :=
  { eventId
    eventType := kind.eventType
    aggregateType := .capture
    aggregateId := captureId
    payload :=
      { eventId
        aggregate := .socialSource snapshot.socialSourceId
        tenantId := tenantRef snapshot.owner
        payload := kind.payload snapshot }
    correlationId := some eventId
    causationId := none
    occurredAt }

/-- Appends one social-source fact inside the caller's open transaction. -/
def appendFact (lib : Externals) (kind : FactKind) (captureId : Uuid) :
    ArchiveTx PublishError Uuid := do
  let snapshot ← buildSnapshot lib captureId kind
  let eventId ← nowV7
  let occurredAt ← nowUtc
  insertOutboxEvent (factRow kind captureId snapshot eventId occurredAt)
  return eventId

/-- The outbox row of a removal fact; it occurs when the caller says the source was
removed. -/
def removalRow (aggregateType : AggregateType) (aggregateId : Uuid)
    (removal : SocialSourceRemoved) (eventId : Uuid) : OutboxEvent :=
  { eventId
    eventType := .sourceRemoved
    aggregateType
    aggregateId
    payload :=
      { eventId
        aggregate := .socialSource removal.socialSourceId
        tenantId := tenantRef removal.owner
        payload := .removed removal }
    correlationId := some eventId
    causationId := none
    occurredAt := removal.removedAt }

/-- Appends the removal of an already derived source. -/
def appendSourceRemovalFact (lib : Externals) (owner sourceId : Uuid)
    (aggregateType : AggregateType) (aggregateId : Uuid) (reason : RemovalReason)
    (removedAt : Instant) : ArchiveTx PublishError Uuid := do
  let removal := { socialSourceId := sourceId, owner, reason, removedAt }
  ofExcept (accepted lib aggregateId (.removed removal))
  let eventId ← nowV7
  insertOutboxEvent (removalRow aggregateType aggregateId removal eventId)
  return eventId

/-- Appends a local removal fact for one capture. -/
def appendRemovalFact (lib : Externals) (captureId : Uuid) (reason : RemovalReason)
    (removedAt : Instant) : ArchiveTx PublishError Uuid := do
  let capture ← fetchOne (.persistence .rowNotFound) fun db => db.captures.lookup captureId
  let permalink ← ofExcept (storedPermalink captureId capture)
  appendSourceRemovalFact lib capture.userRef (sourceIdentity lib capture.userRef permalink.url)
    .capture captureId reason removedAt

/-- A report the contracts accept for `subject`. -/
def buildReport (lib : Externals) (subject operationId : Uuid) (body : ReportBody) :
    Except PublishError OperationReported :=
  (accepted lib subject (.reported { operationId, body })).map fun _ => { operationId, body }

/-- The outbox row of an operation report; without a capture it aggregates on the
operation itself. -/
def reportRow (captureId : Option Uuid) (owner commandId : Uuid) (report : OperationReported)
    (eventId : Uuid) (occurredAt : Instant) : OutboxEvent :=
  { eventId
    eventType := .operationReported
    aggregateType := if captureId.isSome then .capture else .operation
    aggregateId := captureId.getD report.operationId
    payload :=
      { eventId
        aggregate := match captureId with
          | some capture => .capture capture
          | none => .operation report.operationId
        tenantId := tenantRef owner
        payload := .reported report }
    correlationId := some report.operationId
    causationId := some commandId
    occurredAt }

/-- Appends one operation report inside the caller's transaction. -/
def appendOperationReport (captureId : Option Uuid) (owner commandId : Uuid)
    (report : OperationReported) : ArchiveTx PublishError Uuid := do
  let eventId ← nowV7
  let occurredAt ← nowUtc
  insertOutboxEvent (reportRow captureId owner commandId report eventId occurredAt)
  return eventId

/-! ## What an append leaves in the database -/

/-- The snapshot `buildSnapshot` reads from a store. -/
def snapshotAt (lib : Externals) (db : Db) (captureId : Uuid) (kind : FactKind) :
    Option SocialSourceSnapshot := do
  let capture ← db.captures.lookup captureId
  let permalink ← (canonicalize capture.canonicalUrl).toOption
  let row ← currentRow db captureId
  let text ← (snapshotText lib captureId row.caption).toOption
  let snapshot := assemble lib kind capture permalink row text
  (accepted lib captureId (kind.payload snapshot)).toOption
  return snapshot

/-- `db'` is `db` with one more outbox row. -/
def Appends (db : Db) (row : OutboxEvent) (db' : Db) : Prop :=
  ∃ t, db.outboxEvents.insert? row = some t ∧ db' = { db with outboxEvents := t }

theorem Appends.rows {db db' : Db} {row : OutboxEvent} (h : Appends db row db') :
    db'.outboxEvents.rows = db.outboxEvents.rows ++ [row] := by
  obtain ⟨t, ht, rfl⟩ := h
  exact (Table.insert?_eq_some ht).1

theorem Appends.eq {db db' : Db} {row : OutboxEvent} (h : Appends db row db') :
    db' = { db with outboxEvents := db'.outboxEvents } := by
  obtain ⟨t, -, rfl⟩ := h
  rfl

variable {lib : Externals} {env : Env} {db db' : Db}

theorem insertOutboxEvent_yields {ε : Type} [OfSql ε] {row : OutboxEvent} {u : Unit}
    (h : (insertOutboxEvent row : ArchiveTx ε Unit).Yields env db u db') : Appends db row db' :=
  (Yields.insertInto h).2

theorem buildSnapshot_yields {captureId : Uuid} {kind : FactKind} {snapshot : SocialSourceSnapshot}
    (h : (buildSnapshot lib captureId kind).Yields env db snapshot db') :
    snapshotAt lib db captureId kind = some snapshot ∧ db = db' := by
  obtain ⟨capture, _, h1, h⟩ := h.bind
  obtain ⟨hcapture, rfl⟩ := h1.fetchOne
  obtain ⟨permalink, _, h2, h⟩ := h.bind
  obtain ⟨hpermalink, rfl⟩ := h2.ofExcept
  obtain ⟨row, _, h3, h⟩ := h.bind
  obtain ⟨hrow, rfl⟩ := h3.fetchOne
  obtain ⟨text, _, h4, h⟩ := h.bind
  obtain ⟨htext, rfl⟩ := h4.ofExcept
  obtain ⟨_, _, h5, h⟩ := h.bind
  obtain ⟨haccepted, rfl⟩ := h5.ofExcept
  obtain ⟨rfl, rfl⟩ := yields_pure.mp h
  simp [snapshotAt, hcapture, mapError_ok hpermalink, hrow, htext, haccepted,
    Except.toOption]

theorem buildReport_ok {subject operationId : Uuid} {body : ReportBody} {report : OperationReported}
    (h : buildReport lib subject operationId body = .ok report) : report = { operationId, body } := by
  unfold buildReport at h
  cases ha : accepted lib subject (.reported { operationId, body }) with
  | error e => rw [ha] at h; cases h
  | ok u => rw [ha] at h; cases h; rfl

theorem appendFact_yields {captureId eventId : Uuid} {kind : FactKind}
    (h : (appendFact lib kind captureId).Yields env db eventId db') :
    ∃ snapshot occurredAt, snapshotAt lib db captureId kind = some snapshot ∧
      Appends db (factRow kind captureId snapshot eventId occurredAt) db' := by
  obtain ⟨snapshot, _, h1, h⟩ := h.bind
  obtain ⟨hsnapshot, rfl⟩ := buildSnapshot_yields h1
  obtain ⟨id, _, h2, h⟩ := h.bind
  obtain rfl := h2.nowV7
  obtain ⟨occurredAt, _, h3, h⟩ := h.bind
  obtain rfl := h3.nowUtc
  obtain ⟨_, _, h4, h⟩ := h.bind
  obtain ⟨rfl, rfl⟩ := yields_pure.mp h
  exact ⟨snapshot, occurredAt, hsnapshot, insertOutboxEvent_yields h4⟩

theorem appendSourceRemovalFact_yields {owner sourceId aggregateId eventId : Uuid}
    {aggregateType : AggregateType} {reason : RemovalReason} {removedAt : Instant}
    (h : (appendSourceRemovalFact lib owner sourceId aggregateType aggregateId reason
      removedAt).Yields env db eventId db') :
    Appends db (removalRow aggregateType aggregateId
      { socialSourceId := sourceId, owner, reason, removedAt } eventId) db' := by
  obtain ⟨_, _, h0, h⟩ := h.bind
  obtain ⟨-, rfl⟩ := h0.ofExcept
  obtain ⟨id, _, h1, h⟩ := h.bind
  obtain rfl := h1.nowV7
  obtain ⟨_, _, h2, h⟩ := h.bind
  obtain ⟨rfl, rfl⟩ := yields_pure.mp h
  exact insertOutboxEvent_yields h2

theorem appendRemovalFact_yields {captureId eventId : Uuid} {reason : RemovalReason}
    {removedAt : Instant}
    (h : (appendRemovalFact lib captureId reason removedAt).Yields env db eventId db') :
    ∃ capture permalink, db.captures.lookup captureId = some capture ∧
      canonicalize capture.canonicalUrl = .ok permalink ∧
      Appends db (removalRow .capture captureId
        { socialSourceId := sourceIdentity lib capture.userRef permalink.url
          owner := capture.userRef, reason, removedAt } eventId) db' := by
  obtain ⟨capture, _, h1, h⟩ := h.bind
  obtain ⟨hcapture, rfl⟩ := h1.fetchOne
  obtain ⟨permalink, _, h2, h⟩ := h.bind
  obtain ⟨hpermalink, rfl⟩ := h2.ofExcept
  exact ⟨capture, permalink, hcapture, mapError_ok hpermalink,
    appendSourceRemovalFact_yields h⟩

theorem appendOperationReport_yields {captureId : Option Uuid} {owner commandId eventId : Uuid}
    {report : OperationReported}
    (h : (appendOperationReport captureId owner commandId report).Yields env db eventId db') :
    ∃ occurredAt, Appends db (reportRow captureId owner commandId report eventId occurredAt) db' := by
  obtain ⟨id, _, h1, h⟩ := h.bind
  obtain rfl := h1.nowV7
  obtain ⟨occurredAt, _, h2, h⟩ := h.bind
  obtain rfl := h2.nowUtc
  obtain ⟨_, _, h3, h⟩ := h.bind
  obtain ⟨rfl, rfl⟩ := yields_pure.mp h
  exact ⟨occurredAt, insertOutboxEvent_yields h3⟩

end InstagramArchive

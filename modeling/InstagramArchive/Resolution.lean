import InstagramArchive.Capture

/-!
# Public resolution of captured permalinks

`applySurfaceOutcome` is the half of a resolution that follows the fetch. A readable
payload is preserved as evidence, a revision and a normalized media row shared by
every capture of the permalink; any other outcome records its availability kind.
Both branches are one transaction each and append the facts they owe.
-/

namespace InstagramArchive

open Relational Relational.Tx Permalink

def oembedParserVersion : String := "instagram.oembed.v1"

/-- What the approved public surface answered for one permalink. -/
inductive SurfaceOutcome where
  | payload (body : String)
  | deleted
  | priv
  | temporarilyUnavailable
  | unavailable
  | unsupported
  | transportFailure
  deriving DecidableEq, Repr

def SurfaceOutcome.observation : SurfaceOutcome → AvailabilityObservationKind
  | .payload _ => .available
  | .deleted => .deleted
  | .priv => .priv
  | .temporarilyUnavailable => .temporarilyUnavailable
  | .unavailable | .transportFailure => .resolutionFailed
  | .unsupported => .unsupported

structure StoredResolution where
  mediaId : Uuid
  revisionId : Uuid
  rawRecordId : Uuid
  deriving DecidableEq, Repr

inductive ResolutionOutcome where
  | resolved (stored : StoredResolution)
  | unavailable (observed : AvailabilityObservationKind)
  deriving DecidableEq, Repr

inductive ResolutionError where
  | unknownCapture
  | invalidStoredPermalink (error : PermalinkError)
  | payloadTooLarge
  | persistence (error : SqlError)
  | publishing (error : PublishError)
  deriving DecidableEq, Repr

instance : OfSql ResolutionError := ⟨.persistence⟩

/-! ## Normalization -/

/-- The projection written into the media row for one payload. -/
structure NormalizedMedia where
  mediaType : MediaType
  caption : Option String
  deriving DecidableEq, Repr

def kindMediaType : PermalinkKind → MediaType
  | .post => .unknown
  | .reel => .reel
  | .igtv => .video

/-- Normalizes one payload document; `none` is the malformed refusal. -/
def normalize (lib : Externals) (payload : String) (kind : PermalinkKind) :
    Option NormalizedMedia :=
  (lib.parseGrammar payload).map fun title =>
    { mediaType := kindMediaType kind
      caption := (title.map fun text => String.ofList (trim text.toList)).filter
        fun text => !text.isEmpty }

/-! ## Storing a payload -/

def hexDigit (n : Nat) : Char := "0123456789abcdef".toList.getD n '0'

/-- Lowercase hex encoding for content addresses. -/
def hexEncode (bytes : List UInt8) : String :=
  String.ofList (bytes.flatMap fun b => [hexDigit (b.toNat / 16), hexDigit (b.toNat % 16)])

/-- The media row of a permalink. -/
def findMedia (db : Db) (permalink : String) : Option Media :=
  db.media.rows.find? fun m => m.permalink = permalink

def projectMedia (mediaId : Uuid) (normalized : NormalizedMedia) (resolvedAt : Instant) (db : Db) :
    Db :=
  { db with
    media := db.media.update (fun m => m.mediaId = mediaId) fun m =>
      { m with
        mediaType := normalized.mediaType
        caption := normalized.caption
        upstreamStatus := .available
        updatedAt := resolvedAt } }

def newMedia (mediaId : Uuid) (permalink : CanonicalPermalink) (normalized : NormalizedMedia)
    (now : Instant) : Media :=
  { mediaId
    permalink := permalink.url
    mediaType := normalized.mediaType
    caption := normalized.caption
    acquisitionMethod := .publicResolution
    savedAuthority := .explicitUserCapture
    upstreamStatus := .available
    createdAt := now
    updatedAt := now }

def mediaGuard (row : Media) (db : Db) : Option SqlError :=
  if (findMedia db row.permalink).isSome then some (.uniqueViolation "media_permalink_key")
  else none

/-- Finds the source by its permalink or creates it; an update touches only the
projection columns. -/
def upsertMediaProjection (permalink : CanonicalPermalink) (normalized : NormalizedMedia)
    (resolvedAt : Instant) : ArchiveTx ResolutionError Uuid := do
  match ← query fun db => (findMedia db permalink.url).map Media.mediaId with
  | some mediaId =>
    execute (projectMedia mediaId normalized resolvedAt)
    return mediaId
  | none =>
    let mediaId ← nowV7
    let createdAt ← now
    let row := newMedia mediaId permalink normalized createdAt
    insertInto "media_pkey" Db.media (fun db t => { db with media := t }) (mediaGuard row) row
    return mediaId

/-- The captured and updated facts of one capture, in append order. -/
def captureFacts (captureId : Uuid) (rows : List OutboxEvent) : List OutboxEvent :=
  rows.filter fun e => e.aggregateType = .capture && e.aggregateId = captureId &&
    (e.eventType = .sourceCaptured || e.eventType = .sourceUpdated)

def captureHasFact (captureId : Uuid) (db : Db) : Bool :=
  !(captureFacts captureId db.outboxEvents.rows).isEmpty

def revisionGuard (row : MediaRevision) (db : Db) : Option SqlError :=
  if (db.media.lookup row.mediaId).isNone then
    some (.foreignKeyViolation "media_revisions_media_id_fkey")
  else if (db.rawRecords.lookup row.rawRecordId).isNone then
    some (.foreignKeyViolation "media_revisions_raw_record_id_fkey")
  else none

def setCurrentRevision (mediaId revisionId : Uuid) (db : Db) : Db :=
  { db with
    media := db.media.update (fun m => m.mediaId = mediaId)
      fun m => { m with currentRevisionId := some revisionId } }

/-- A successful resolution concludes the intake; a failed capture stays failed. -/
def concludeResolved (captureId mediaId : Uuid) (db : Db) : Db :=
  { db with
    captures := db.captures.update (fun c => c.captureId = captureId && c.status ≠ .failed)
      fun c => { c with status := .resolved, mediaId := some mediaId } }

/-- Whether the payload differs from the projection stored before. -/
def normalizedChanged (prior : Option (MediaType × Option String)) (normalized : NormalizedMedia) :
    Bool :=
  prior.all fun p => p.1 ≠ normalized.mediaType || p.2 ≠ normalized.caption

/-- The stored projection of a permalink. -/
def priorProjection (permalink : CanonicalPermalink) (db : Db) :
    Option (MediaType × Option String) :=
  (findMedia db permalink.url).map fun m => (m.mediaType, m.caption)

/-- The content-addressed evidence of one response. -/
def rawResponse (lib : Externals) (body : String) (resolvedAt : Instant) (rawRecordId : Uuid) :
    RawRecord :=
  { rawRecordId
    recordKind := .oembedResponse
    blobRef := hexEncode (lib.sha256 body)
    contentHash := lib.sha256 body
    byteSize := body.utf8ByteSize
    body
    observedAt := resolvedAt }

/-- Preserves one payload answer in one transaction. -/
def storeResolution (lib : Externals) (captureId : Uuid) (permalink : CanonicalPermalink)
    (normalized : NormalizedMedia) (body : String) (resolvedAt : Instant) :
    ArchiveTx ResolutionError StoredResolution := do
  let rawRecordId ← nowV7
  insertInto "raw_records_pkey" Db.rawRecords (fun db t => { db with rawRecords := t })
    (fun _ => none) (rawResponse lib body resolvedAt rawRecordId)
  let prior ← query (priorProjection permalink)
  let mediaId ← upsertMediaProjection permalink normalized resolvedAt
  let hasFact ← query (captureHasFact captureId)
  let revisionId ← nowV7
  let revision : MediaRevision :=
    { revisionId, mediaId, rawRecordId, parserVersion := oembedParserVersion, resolvedAt }
  insertInto "media_revisions_pkey" Db.mediaRevisions (fun db t => { db with mediaRevisions := t })
    (revisionGuard revision) revision
  execute (setCurrentRevision mediaId revisionId)
  let observationId ← nowV7
  insertObservation
    { observationId, mediaId := some mediaId, captureId := some captureId,
      availability := .available, resolverVersion := some oembedParserVersion,
      observedAt := resolvedAt }
  execute (concludeResolved captureId mediaId)
  if !hasFact || normalizedChanged prior normalized then
    let _ ← mapError ResolutionError.publishing
      (appendFact lib (if hasFact then .updated else .captured) captureId)
  commit
  return { mediaId, revisionId, rawRecordId }

/-! ## Recording a failed attempt -/

def setUpstreamDeleted (mediaId : Uuid) (resolvedAt : Instant) (db : Db) : Db :=
  { db with
    media := db.media.update (fun m => m.mediaId = mediaId)
      fun m => { m with upstreamStatus := .deleted, updatedAt := resolvedAt } }

/-- The media row a capture is linked to. -/
def linkedMedia (captureId : Uuid) (db : Db) : Option Uuid :=
  (db.captures.lookup captureId).bind Capture.mediaId

/-- Records a failed resolution attempt verbatim. An observed upstream deletion of a
preserved source also moves the media row and republishes it. -/
def recordFailedResolution (lib : Externals) (captureId : Uuid)
    (observed : AvailabilityObservationKind) (resolvedAt : Instant) :
    ArchiveTx ResolutionError ResolutionOutcome := do
  let observationId ← nowV7
  insertObservation
    { observationId, mediaId := none, captureId := some captureId, availability := observed,
      resolverVersion := some oembedParserVersion, observedAt := resolvedAt }
  execute (setStatus captureId CaptureStatus.live .unavailable)
  if observed = .deleted then
    match ← query (linkedMedia captureId) with
    | some mediaId =>
      execute (setUpstreamDeleted mediaId resolvedAt)
      let _ ← mapError ResolutionError.publishing (appendFact lib .updated captureId)
    | none => pure ()
  commit
  return .unavailable observed

/-! ## Applying an outcome -/

/-- The largest size `i64` can hold. -/
def maxByteSize : Nat := 2 ^ 63 - 1

/-- Applies what the approved surface answered for one capture's permalink. An
unreadable payload is a failed attempt of this service. -/
def applySurfaceOutcome (lib : Externals) (captureId : Uuid) (permalink : CanonicalPermalink)
    (outcome : SurfaceOutcome) (resolvedAt : Instant) :
    ArchiveTx ResolutionError ResolutionOutcome :=
  match outcome with
  | .payload body =>
    match normalize lib body permalink.kind with
    | none => recordFailedResolution lib captureId .resolutionFailed resolvedAt
    | some normalized =>
      if body.utf8ByteSize ≤ maxByteSize then do
        let stored ← storeResolution lib captureId permalink normalized body resolvedAt
        return .resolved stored
      else Tx.throw .payloadTooLarge
  | other => recordFailedResolution lib captureId other.observation resolvedAt

/-- Reads back and canonicalizes the capture's stored permalink. -/
def storedCapturePermalink (captureId : Uuid) : ArchiveTx ResolutionError CanonicalPermalink := do
  let capture ← fetchOne .unknownCapture fun db => db.captures.lookup captureId
  ofExcept ((canonicalize capture.canonicalUrl).mapError .invalidStoredPermalink)

/-! ## What a resolution leaves in the database -/

section Effects

variable {lib : Externals} {env : Env} {db db' : Db}

theorem findMedia_eq_some {permalink : String} {m : Media} (h : findMedia db permalink = some m) :
    m ∈ db.media ∧ m.permalink = permalink :=
  ⟨List.mem_of_find?_eq_some h, by simpa using List.find?_some h⟩

theorem findMedia_eq_none {permalink : String} (h : findMedia db permalink = none) :
    ∀ m ∈ db.media, m.permalink ≠ permalink := by
  intro m hm
  simpa using List.find?_eq_none.mp h m hm

/-- What `upsertMediaProjection` does to the media row of a permalink. -/
def Upserts (permalink : CanonicalPermalink) (normalized : NormalizedMedia) (resolvedAt : Instant)
    (db : Db) (mediaId : Uuid) (db' : Db) : Prop :=
  (∃ m, findMedia db permalink.url = some m ∧ mediaId = m.mediaId ∧
      db' = projectMedia mediaId normalized resolvedAt db) ∨
    (findMedia db permalink.url = none ∧
      ∃ createdAt t, db.media.insert? (newMedia mediaId permalink normalized createdAt) = some t ∧
        db' = { db with media := t })

theorem upsertMediaProjection_yields {permalink : CanonicalPermalink}
    {normalized : NormalizedMedia} {resolvedAt : Instant} {mediaId : Uuid}
    (h : (upsertMediaProjection permalink normalized resolvedAt).Yields env db mediaId db') :
    Upserts permalink normalized resolvedAt db mediaId db' := by
  obtain ⟨existing, _, h1, h⟩ := h.bind
  obtain ⟨hex, rfl⟩ := h1.query
  cases existing with
  | some id =>
    obtain ⟨_, _, h2, h⟩ := h.bind
    obtain rfl := h2.execute
    obtain ⟨rfl, rfl⟩ := yields_pure.mp h
    obtain ⟨m, hm, rfl⟩ := Option.map_eq_some_iff.mp hex.symm
    exact Or.inl ⟨m, hm, rfl, rfl⟩
  | none =>
    obtain ⟨id, _, h2, h⟩ := h.bind
    obtain rfl := h2.nowV7
    obtain ⟨createdAt, _, h3, h⟩ := h.bind
    obtain ⟨rfl, rfl⟩ := h3.now
    obtain ⟨_, _, h4, h⟩ := h.bind
    obtain ⟨-, t, ht, rfl⟩ := h4.insertInto
    obtain ⟨rfl, rfl⟩ := yields_pure.mp h
    exact Or.inr ⟨Option.map_eq_none_iff.mp hex.symm, env.now, t, ht, rfl⟩

/-- The fact a transaction appends for a capture once its rows are written. -/
def Publishes (lib : Externals) (kind : FactKind) (captureId : Uuid) (db db' : Db) : Prop :=
  ∃ snapshot eventId occurredAt, snapshotAt lib db captureId kind = some snapshot ∧
    Appends db (factRow kind captureId snapshot eventId occurredAt) db'

/-- The rows a stored payload leaves before its fact: evidence, the projection with
its new revision, the observation and the concluded capture. -/
def Stores (lib : Externals) (captureId : Uuid) (permalink : CanonicalPermalink)
    (normalized : NormalizedMedia) (body : String) (resolvedAt : Instant) (db : Db)
    (stored : StoredResolution) (mid : Db) : Prop :=
  ∃ raws upserted revisions observations,
    db.rawRecords.insert? (rawResponse lib body resolvedAt stored.rawRecordId) = some raws ∧
    Upserts permalink normalized resolvedAt { db with rawRecords := raws } stored.mediaId upserted ∧
    db.mediaRevisions.insert?
      ⟨stored.revisionId, stored.mediaId, stored.rawRecordId, oembedParserVersion, resolvedAt⟩ =
        some revisions ∧
    mid = concludeResolved captureId stored.mediaId
      { setCurrentRevision stored.mediaId stored.revisionId
          { upserted with mediaRevisions := revisions } with
        availabilityObservations := observations }

/-- Whether a payload owes a fact, read before anything is written. -/
def owesFact (captureId : Uuid) (permalink : CanonicalPermalink) (normalized : NormalizedMedia)
    (db : Db) : Bool :=
  !captureHasFact captureId db || normalizedChanged (priorProjection permalink db) normalized

/-- The kind of the fact a payload owes. -/
def owedKind (captureId : Uuid) (db : Db) : FactKind :=
  if captureHasFact captureId db then .updated else .captured

theorem Upserts.frame {permalink : CanonicalPermalink} {normalized : NormalizedMedia}
    {resolvedAt : Instant} {mediaId : Uuid}
    (h : Upserts permalink normalized resolvedAt db mediaId db') :
    db' = { db with media := db'.media } := by
  rcases h with ⟨_, _, _, rfl⟩ | ⟨_, _, _, _, rfl⟩ <;> rfl

theorem linkedMedia_setStatus (captureId id : Uuid) (p : CaptureStatus → Bool)
    (status : CaptureStatus) (db : Db) :
    linkedMedia captureId (setStatus id p status db) = linkedMedia captureId db := by
  unfold linkedMedia setStatus
  rw [Table.lookup_update]
  cases db.captures.lookup captureId with
  | none => rfl
  | some c =>
    simp only [Option.map_some, Option.bind_some]
    split <;> rfl

/-- **What storing a payload does.** The rows are written and the fact follows
exactly when one is owed. -/
theorem storeResolution_yields {captureId : Uuid} {permalink : CanonicalPermalink}
    {normalized : NormalizedMedia} {body : String} {resolvedAt : Instant} {stored : StoredResolution}
    (h : (storeResolution lib captureId permalink normalized body resolvedAt).Yields env db
      stored db') :
    ∃ mid, Stores lib captureId permalink normalized body resolvedAt db stored mid ∧
      if owesFact captureId permalink normalized db then
        Publishes lib (owedKind captureId db) captureId mid db'
      else db' = mid := by
  obtain ⟨rawRecordId, _, h1, h⟩ := h.bind
  obtain rfl := h1.nowV7
  obtain ⟨_, _, h2, h⟩ := h.bind
  obtain ⟨-, raws, hraws, rfl⟩ := h2.insertInto
  obtain ⟨prior, _, h3, h⟩ := h.bind
  obtain ⟨hprior, rfl⟩ := h3.query
  have hprior : prior = priorProjection permalink db := hprior
  obtain ⟨mediaId, upserted, h4, h⟩ := h.bind
  have hup := upsertMediaProjection_yields h4
  obtain ⟨hasFact, _, h5, h⟩ := h.bind
  obtain ⟨hhas, rfl⟩ := h5.query
  have hhas : hasFact = captureHasFact captureId db := by
    rw [hhas, hup.frame]
    rfl
  obtain ⟨revisionId, _, h6, h⟩ := h.bind
  obtain rfl := h6.nowV7
  obtain ⟨_, _, h7, h⟩ := h.bind
  obtain ⟨-, revisions, hrevisions, rfl⟩ := h7.insertInto
  obtain ⟨_, _, h8, h⟩ := h.bind
  obtain rfl := h8.execute
  obtain ⟨observationId, _, h9, h⟩ := h.bind
  obtain rfl := h9.nowV7
  obtain ⟨_, _, h10, h⟩ := h.bind
  obtain ⟨observations, -, rfl⟩ := insertObservation_yields h10
  obtain ⟨_, mid, h11, h⟩ := h.bind
  have hmid := h11.execute
  have hrev : db.mediaRevisions.insert?
      ⟨revisionId, mediaId, rawRecordId, oembedParserVersion, resolvedAt⟩ = some revisions := by
    rw [hup.frame] at hrevisions
    exact hrevisions
  subst hprior hhas
  have howes : (!captureHasFact captureId db ||
      normalizedChanged (priorProjection permalink db) normalized) =
      owesFact captureId permalink normalized db := rfl
  by_cases hgate : owesFact captureId permalink normalized db = true
  · rw [howes, if_pos hgate] at h
    obtain ⟨eventId, _, h12, h⟩ := h.bind
    obtain ⟨snapshot, occurredAt, hsnapshot, happ⟩ := appendFact_yields h12.mapError
    obtain ⟨_, _, h13, h⟩ := h.bind
    obtain rfl := h13.commit
    obtain ⟨rfl, rfl⟩ := yields_pure.mp h
    refine ⟨mid, ⟨raws, upserted, revisions, observations, hraws, hup, hrev, hmid⟩, ?_⟩
    rw [if_pos hgate]
    exact ⟨snapshot, eventId, occurredAt, hsnapshot, happ⟩
  · rw [howes, if_neg hgate] at h
    obtain ⟨_, _, h13, h⟩ := h.bind
    obtain rfl := h13.commit
    obtain ⟨rfl, rfl⟩ := yields_pure.mp h
    refine ⟨mid, ⟨raws, upserted, revisions, observations, hraws, hup, hrev, hmid⟩, ?_⟩
    rw [if_neg hgate]

/-- **What a failed attempt does.** The observation and the status move always; the
media row and the fact follow only for an observed deletion of a linked capture. -/
theorem recordFailedResolution_yields {captureId : Uuid} {observed : AvailabilityObservationKind}
    {resolvedAt : Instant} {out : ResolutionOutcome}
    (h : (recordFailedResolution lib captureId observed resolvedAt).Yields env db out db') :
    ∃ observations mid,
      mid = setStatus captureId CaptureStatus.live .unavailable
        { db with availabilityObservations := observations } ∧
      ((∃ mediaId, observed = .deleted ∧ linkedMedia captureId db = some mediaId ∧
          Publishes lib .updated captureId (setUpstreamDeleted mediaId resolvedAt mid) db') ∨
        ((observed = .deleted → linkedMedia captureId db = none) ∧ db' = mid)) := by
  obtain ⟨observationId, _, h1, h⟩ := h.bind
  obtain rfl := h1.nowV7
  obtain ⟨_, _, h2, h⟩ := h.bind
  obtain ⟨observations, -, rfl⟩ := insertObservation_yields h2
  obtain ⟨_, mid, h3, h⟩ := h.bind
  have hmid := h3.execute
  refine ⟨observations, mid, hmid, ?_⟩
  by_cases hd : observed = .deleted
  · rw [if_pos hd] at h
    obtain ⟨linked, _, h4, h⟩ := h.bind
    obtain ⟨hlinked, rfl⟩ := h4.query
    have hlinked : linked = linkedMedia captureId db := by
      rw [hlinked, hmid]
      exact linkedMedia_setStatus _ _ _ _ _
    cases linked with
    | some mediaId =>
      obtain ⟨_, _, h5, h⟩ := h.bind
      obtain rfl := h5.execute
      obtain ⟨eventId, _, h6, h⟩ := h.bind
      obtain ⟨snapshot, occurredAt, hsnapshot, happ⟩ := appendFact_yields h6.mapError
      obtain ⟨_, _, h7, h⟩ := h.bind
      obtain rfl := h7.commit
      obtain ⟨rfl, rfl⟩ := yields_pure.mp h
      exact Or.inl ⟨mediaId, hd, hlinked.symm, snapshot, eventId, occurredAt, hsnapshot, happ⟩
    | none =>
      obtain ⟨_, _, h7, h⟩ := h.bind
      obtain rfl := h7.commit
      obtain ⟨rfl, rfl⟩ := yields_pure.mp h
      exact Or.inr ⟨fun _ => hlinked.symm, rfl⟩
  · rw [if_neg hd] at h
    obtain ⟨_, _, h7, h⟩ := h.bind
    obtain rfl := h7.commit
    obtain ⟨rfl, rfl⟩ := yields_pure.mp h
    exact Or.inr ⟨fun h => (hd h).elim, rfl⟩

/-- A stored payload touches evidence, media, observations and its capture. -/
theorem Stores.frame {captureId : Uuid} {permalink : CanonicalPermalink}
    {normalized : NormalizedMedia} {body : String} {resolvedAt : Instant} {stored : StoredResolution}
    (h : Stores lib captureId permalink normalized body resolvedAt db stored db') :
    db' = { db with
      rawRecords := db'.rawRecords, media := db'.media, mediaRevisions := db'.mediaRevisions,
      availabilityObservations := db'.availabilityObservations, captures := db'.captures } := by
  obtain ⟨raws, upserted, revisions, observations, -, hup, -, rfl⟩ := h
  rw [hup.frame]
  rfl

/-- **What applying an outcome does.** A readable payload is stored; everything else is
a failed attempt, and only the answer `Deleted` is recorded as a deletion. -/
theorem applySurfaceOutcome_yields {captureId : Uuid} {permalink : CanonicalPermalink}
    {outcome : SurfaceOutcome} {resolvedAt : Instant} {out : ResolutionOutcome}
    (h : (applySurfaceOutcome lib captureId permalink outcome resolvedAt).Yields env db out db') :
    (∃ body normalized stored, outcome = .payload body ∧
        normalize lib body permalink.kind = some normalized ∧ out = .resolved stored ∧
        (storeResolution lib captureId permalink normalized body resolvedAt).Yields env db
          stored db') ∨
      (∃ observed, (observed = .deleted ↔ outcome = .deleted) ∧
        (∀ body, outcome = .payload body → normalize lib body permalink.kind = none) ∧
        (recordFailedResolution lib captureId observed resolvedAt).Yields env db out db') := by
  unfold applySurfaceOutcome at h
  split at h
  · rename_i body
    split at h
    · rename_i hn
      exact Or.inr ⟨.resolutionFailed, by simp, by rintro _ ⟨⟩; exact hn, h⟩
    · rename_i normalized hn
      split at h
      · obtain ⟨stored, m, h1, h⟩ := h.bind
        obtain ⟨rfl, rfl⟩ := yields_pure.mp h
        exact Or.inl ⟨body, normalized, stored, rfl, hn, rfl, h1⟩
      · exact h.throw.elim
  · rename_i hp
    refine Or.inr ⟨outcome.observation, ?_, fun body hb => (hp body hb).elim, h⟩
    cases outcome <;> simp [SurfaceOutcome.observation]

end Effects

end InstagramArchive

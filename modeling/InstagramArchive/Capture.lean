import InstagramArchive.Publishing

/-!
# Explicit capture intake and the unavailable fallback

`submitCaptureInTransaction` stores one explicit capture under its identity
`(user_ref, canonical_url)` or reads the existing one back.
`recordCaptureUnavailable` preserves a failed attempt. Its status read takes no
lock, so the read and the write that follows it are separate definitions: other
transactions can commit in between.
-/

namespace InstagramArchive

open Relational Relational.Tx Permalink

/-- The acquisition method a client source implies, or `none` when the contract has
no value for it yet. -/
def ClientSource.acquisitionMethod : ClientSource → Option AcquisitionMethod
  | .iosShareExtension | .androidShareTarget => some .shareExtension
  | .browserExtension => some .browserExtension
  | .telegram => none

/-- One explicit capture submission before persistence. -/
structure CaptureRequest where
  userRef : Uuid
  url : String
  capturedAt : Instant
  clientSource : ClientSource
  note : Option String
  clientIdempotencyKey : Option String
  deriving DecidableEq, Repr

structure CaptureRecord where
  captureId : Uuid
  canonicalUrl : String
  acquisitionMethod : AcquisitionMethod
  savedAuthority : SavedAuthority
  clientSource : ClientSource
  status : CaptureStatus
  note : Option String
  capturedAt : Instant
  deriving DecidableEq, Repr

inductive CaptureSubmission where
  | created (record : CaptureRecord)
  | reused (record : CaptureRecord)
  deriving DecidableEq, Repr

def CaptureSubmission.record : CaptureSubmission → CaptureRecord
  | .created record | .reused record => record

/-- Why intake or fallback refused to act. -/
inductive CaptureError where
  | invalidUrl (error : PermalinkError)
  | unsupportedClientSource
  | unknownCapture
  | persistence (error : SqlError)
  deriving DecidableEq, Repr

instance : OfSql CaptureError := ⟨.persistence⟩

def explicitAuthority : SavedAuthority := .explicitUserCapture

/-! ## Intake -/

/-- The capture of `user_ref` under `canonical_url`. -/
def findCapture (db : Db) (userRef : Uuid) (canonicalUrl : String) : Option Capture :=
  db.captures.rows.find? fun c => c.userRef = userRef && c.canonicalUrl = canonicalUrl

/-- The row a submission inserts. -/
def newCapture (request : CaptureRequest) (permalink : CanonicalPermalink)
    (method : AcquisitionMethod) (captureId : Uuid) (createdAt : Instant) : Capture :=
  { captureId
    userRef := request.userRef
    canonicalUrl := permalink.url
    acquisitionMethod := method
    savedAuthority := explicitAuthority
    clientSource := request.clientSource
    status := .accepted
    note := request.note
    clientIdempotencyKey := request.clientIdempotencyKey
    capturedAt := request.capturedAt
    createdAt }

/-- `on conflict on constraint captures_user_canonical_key do nothing`. -/
def insertCapture (row : Capture) : ArchiveTx CaptureError Bool :=
  insertUnless "captures_pkey" Db.captures (fun db t => { db with captures := t })
    (fun _ => none) (fun db => (findCapture db row.userRef row.canonicalUrl).isSome) row

def captureRecord (c : Capture) : CaptureRecord :=
  { captureId := c.captureId
    canonicalUrl := c.canonicalUrl
    acquisitionMethod := c.acquisitionMethod
    savedAuthority := c.savedAuthority
    clientSource := c.clientSource
    status := c.status
    note := c.note
    capturedAt := c.capturedAt }

/-- Reads one existing capture by its identity pair. -/
def readCapture (userRef : Uuid) (canonicalUrl : String) :
    ArchiveTx CaptureError CaptureRecord := do
  let capture ← fetchOne .unknownCapture fun db => findCapture db userRef canonicalUrl
  if capture.savedAuthority ≠ explicitAuthority then
    Tx.throw (.persistence (.columnDecode "status"))
  else return captureRecord capture

/-- Applies explicit capture persistence within a caller-owned transaction. One read
serves both branches of the insert. -/
def submitCaptureInTransaction (request : CaptureRequest) :
    ArchiveTx CaptureError CaptureSubmission := do
  let permalink ← ofExcept ((canonicalize request.url).mapError .invalidUrl)
  let method ← ofExcept (request.clientSource.acquisitionMethod.elim
    (.error .unsupportedClientSource) .ok)
  let captureId ← nowV7
  let createdAt ← now
  let created ← insertCapture (newCapture request permalink method captureId createdAt)
  let record ← readCapture request.userRef permalink.url
  return if created then .created record else .reused record

/-- Submits one explicit capture. -/
def submitCapture (request : CaptureRequest) : ArchiveTx CaptureError CaptureSubmission := do
  let submission ← submitCaptureInTransaction request
  commit
  return submission

/-! ## The unavailable fallback -/

def observationGuard (row : AvailabilityObservation) (db : Db) : Option SqlError :=
  if row.captureId.any fun id => (db.captures.lookup id).isNone then
    some (.foreignKeyViolation "availability_observations_capture_id_fkey")
  else if row.mediaId.any fun id => (db.media.lookup id).isNone then
    some (.foreignKeyViolation "availability_observations_media_id_fkey")
  else none

def insertObservation {ε : Type} [OfSql ε] (row : AvailabilityObservation) : ArchiveTx ε Unit :=
  insertInto "availability_observations_pkey" Db.availabilityObservations
    (fun db t => { db with availabilityObservations := t }) (observationGuard row) row

/-- `update captures set status = .. where capture_id = .. and p status`. -/
def setStatus (captureId : Uuid) (p : CaptureStatus → Bool) (status : CaptureStatus) (db : Db) :
    Db :=
  { db with
    captures := db.captures.update (fun c => c.captureId = captureId && p c.status)
      fun c => { c with status } }

/-- The statuses a failed attempt moves to `unavailable`. -/
def CaptureStatus.live : CaptureStatus → Bool
  | .accepted | .resolved => true
  | _ => false

/-- The unlocked read that opens `record_capture_unavailable`. -/
def readStatus (captureId : Uuid) : ArchiveTx CaptureError CaptureStatus :=
  fetchOne .unknownCapture fun db => (db.captures.lookup captureId).map Capture.status

/-- The writes of `record_capture_unavailable`, decided by the status read before. -/
def writeUnavailable (captureId : Uuid) (observed : AvailabilityObservationKind)
    (observedAt : Instant) (currentStatus : CaptureStatus) :
    ArchiveTx CaptureError CaptureStatus := do
  let observationId ← nowV7
  insertObservation { observationId, mediaId := none, captureId := some captureId,
                      availability := observed, observedAt }
  if currentStatus.live then execute (setStatus captureId (fun _ => true) .unavailable)
  commit
  return if currentStatus.live then .unavailable else currentStatus

/-! ## What intake leaves in the database -/

theorem findCapture_eq_some {db : Db} {userRef : Uuid} {canonicalUrl : String} {c : Capture}
    (h : findCapture db userRef canonicalUrl = some c) :
    c ∈ db.captures ∧ c.userRef = userRef ∧ c.canonicalUrl = canonicalUrl := by
  have hc := List.find?_some h
  simp only [Bool.and_eq_true, decide_eq_true_eq] at hc
  exact ⟨List.mem_of_find?_eq_some h, hc.1, hc.2⟩

theorem findCapture_eq_none {db : Db} {userRef : Uuid} {canonicalUrl : String}
    (h : findCapture db userRef canonicalUrl = none) :
    ∀ c ∈ db.captures, ¬ (c.userRef = userRef ∧ c.canonicalUrl = canonicalUrl) := by
  intro c hc
  have hn := List.find?_eq_none.mp h c hc
  simpa using hn

variable {env : Env} {db db' : Db}

theorem readCapture_yields {userRef : Uuid} {canonicalUrl : String} {record : CaptureRecord}
    (h : (readCapture userRef canonicalUrl).Yields env db record db') :
    ∃ c, findCapture db userRef canonicalUrl = some c ∧ record = captureRecord c ∧ db = db' := by
  obtain ⟨c, _, h1, h⟩ := h.bind
  obtain ⟨hc, rfl⟩ := h1.fetchOne
  split at h
  · exact h.throw.elim
  · obtain ⟨rfl, rfl⟩ := yields_pure.mp h
    exact ⟨c, hc, rfl, rfl⟩

/-- **What a submission does.** It inserts the row of a new identity, or leaves the
database alone and answers the capture that holds the identity. -/
theorem submitCaptureInTransaction_yields {request : CaptureRequest} {submission : CaptureSubmission}
    (h : (submitCaptureInTransaction request).Yields env db submission db') :
    ∃ permalink method, canonicalize request.url = .ok permalink ∧
      request.clientSource.acquisitionMethod = some method ∧
      ((∃ captureId t, findCapture db request.userRef permalink.url = none ∧
          db.captures.insert? (newCapture request permalink method captureId env.now) = some t ∧
          db' = { db with captures := t } ∧
          submission =
            .created (captureRecord (newCapture request permalink method captureId env.now))) ∨
        (∃ c, findCapture db request.userRef permalink.url = some c ∧ db' = db ∧
          submission = .reused (captureRecord c))) := by
  obtain ⟨permalink, _, h1, h⟩ := h.bind
  obtain ⟨hp, rfl⟩ := h1.ofExcept
  have hp : canonicalize request.url = .ok permalink := mapError_ok hp
  obtain ⟨method, _, h2, h⟩ := h.bind
  obtain ⟨hm, rfl⟩ := h2.ofExcept
  have hm : request.clientSource.acquisitionMethod = some method := by
    cases hc : request.clientSource.acquisitionMethod with
    | none => rw [hc] at hm; cases hm
    | some m => rw [hc] at hm; cases hm; rfl
  obtain ⟨captureId, _, h3, h⟩ := h.bind
  obtain rfl := h3.nowV7
  obtain ⟨createdAt, _, h4, h⟩ := h.bind
  obtain ⟨rfl, rfl⟩ := h4.now
  obtain ⟨created, m, h5, h⟩ := h.bind
  obtain ⟨record, _, h6, h⟩ := h.bind
  obtain ⟨c, hc, rfl, rfl⟩ := readCapture_yields h6
  obtain ⟨rfl, rfl⟩ := yields_pure.mp h
  refine ⟨permalink, method, hp, hm, ?_⟩
  rcases h5.insertUnless with ⟨-, rfl, rfl⟩ | ⟨hfresh, rfl, -, t, ht, rfl⟩
  · exact Or.inr ⟨c, hc, rfl, rfl⟩
  · have hnone : findCapture db request.userRef permalink.url = none := by
      simpa [newCapture] using hfresh
    have hc' : findCapture { db with captures := t } request.userRef permalink.url =
        some (newCapture request permalink method captureId env.now) := by
      unfold findCapture at hnone ⊢
      rw [(Table.insert?_eq_some ht).1, List.find?_append, hnone]
      simp [newCapture]
    rw [hc'] at hc
    cases hc
    exact Or.inl ⟨captureId, t, hnone, ht, rfl, rfl⟩

/-- Only a URL that is no permalink is refused as one. -/
theorem submitCaptureInTransaction_invalidUrl {request : CaptureRequest} {e : PermalinkError}
    (h : (submitCaptureInTransaction request).Fails env db (.invalidUrl e)) :
    canonicalize request.url = .error e := by
  rcases h.bind with h | ⟨permalink, _, -, h⟩
  · have hp := h.ofExcept
    cases hc : canonicalize request.url with
    | error e' => rw [hc] at hp; cases hp; rfl
    | ok p => rw [hc] at hp; cases hp
  exfalso
  rcases h.bind with h | ⟨method, _, -, h⟩
  · have hm := h.ofExcept
    cases hc : request.clientSource.acquisitionMethod with
    | none => rw [hc] at hm; cases hm
    | some m => rw [hc] at hm; cases hm
  rcases h.bind with h | ⟨captureId, _, -, h⟩
  · exact h.nowV7
  rcases h.bind with h | ⟨createdAt, _, -, h⟩
  · exact h.now
  rcases h.bind with h | ⟨created, _, -, h⟩
  · unfold insertCapture insertUnless at h
    obtain ⟨q, hq⟩ := h.statement
    cases hq
  rcases h.bind with h | ⟨record, _, -, h⟩
  · rcases h.bind with h | ⟨capture, _, -, h⟩
    · rcases h.fetchOne with hq | ⟨q, hq⟩ <;> cases hq
    · split at h
      · cases h.throw
      · exact h.pure
  · exact h.pure

theorem submitCapture_yields {request : CaptureRequest} {submission : CaptureSubmission}
    (h : (submitCapture request).Yields env db submission db') :
    (submitCaptureInTransaction request).Yields env db submission db' := by
  obtain ⟨_, _, h1, h⟩ := h.bind
  obtain ⟨_, _, h2, h⟩ := h.bind
  obtain rfl := h2.commit
  obtain ⟨rfl, rfl⟩ := yields_pure.mp h
  exact h1

theorem insertObservation_yields {ε : Type} [OfSql ε] {row : AvailabilityObservation} {u : Unit}
    (h : (insertObservation row : ArchiveTx ε Unit).Yields env db u db') :
    ∃ t, db.availabilityObservations.insert? row = some t ∧
      db' = { db with availabilityObservations := t } :=
  h.insertInto.2

theorem writeUnavailable_yields {captureId : Uuid} {observed : AvailabilityObservationKind}
    {observedAt : Instant} {currentStatus status : CaptureStatus}
    (h : (writeUnavailable captureId observed observedAt currentStatus).Yields env db status db') :
    ∃ m t, m = { db with availabilityObservations := t } ∧
      db' = if currentStatus.live then setStatus captureId (fun _ => true) .unavailable m else m := by
  obtain ⟨observationId, _, h1, h⟩ := h.bind
  obtain rfl := h1.nowV7
  obtain ⟨_, m, h2, h⟩ := h.bind
  obtain ⟨t, -, rfl⟩ := insertObservation_yields h2
  refine ⟨_, t, rfl, ?_⟩
  by_cases hl : currentStatus.live
  · simp only [hl, if_true] at h ⊢
    obtain ⟨_, _, h3, h⟩ := h.bind
    obtain rfl := h3.execute
    obtain ⟨_, _, h4, h⟩ := h.bind
    obtain rfl := h4.commit
    exact (yields_pure.mp h).2.symm
  · simp only [hl] at h ⊢
    obtain ⟨_, _, h4, h⟩ := h.bind
    obtain rfl := h4.commit
    exact (yields_pure.mp h).2.symm

end InstagramArchive

import InstagramArchive.Resolution

/-!
# Local capture tombstones

A tombstone changes only the archive's own preservation state and appends the removal
fact of the source in the same transaction.
-/

namespace InstagramArchive

open Relational Relational.Tx Permalink

inductive TombstoneOutcome where
  | tombstoned
  | duplicate
  deriving DecidableEq, Repr

inductive TombstoneError where
  | unknownCapture
  | publish (error : PublishError)
  | persistence (error : SqlError)
  deriving DecidableEq, Repr

instance : OfSql TombstoneError := ⟨.persistence⟩

/-- The CHECK on a stored removal reason; a reason without a wire value breaks it. -/
def reasonGuard (constraint : String) (reason : RemovalReason) : Option SqlError :=
  if reason = .other then some (.checkViolation constraint) else none

/-- `on conflict (operation_id) do nothing`; the CHECK applies before the conflict. -/
def insertDeletionOperation (row : DeletionOperation) : ArchiveTx TombstoneError Unit :=
  statement fun db =>
    match reasonGuard "deletion_operations_reason_check" row.reason with
    | some e => .error e
    | none =>
      match db.deletionOperations.insert? row with
      | none => .ok ((), db)
      | some t => .ok ((), { db with deletionOperations := t })

def insertRemoval (row : LocalSourceRemoval) : ArchiveTx TombstoneError Unit :=
  insertInto "local_source_removals_pkey" Db.localSourceRemovals
    (fun db t => { db with localSourceRemovals := t })
    (fun _ => reasonGuard "local_source_removals_reason_check" row.reason) row

/-- Tombstones a local capture and appends its downstream removal fact. -/
def tombstoneCapture (lib : Externals) (captureId : Uuid) (reason : RemovalReason)
    (removedAt : Instant) : ArchiveTx TombstoneError TombstoneOutcome := do
  let capture ← fetchOne .unknownCapture fun db => db.captures.lookup captureId
  let socialSourceId := sourceIdentity lib capture.userRef capture.canonicalUrl
  match ← query fun db => db.localSourceRemovals.lookup (capture.userRef, socialSourceId) with
  | some removal =>
    ofExcept (removal.captureId.elim (.error (.persistence (.columnDecode "capture_id")))
      fun _ => .ok ())
    commit
    return .duplicate
  | none =>
    insertDeletionOperation
      { operationId := captureId
        userRef := capture.userRef
        targetKind := .capture
        targetId := captureId
        reason
        state := .complete
        requestedAt := removedAt
        updatedAt := removedAt
        finishedAt := some removedAt }
    let _ ← mapError .publish (appendRemovalFact lib captureId reason removedAt)
    insertRemoval
      { userRef := capture.userRef
        socialSourceId
        captureId := some captureId
        operationId := captureId
        reason
        removedAt }
    execute (setStatus captureId (fun _ => true) .tombstoned)
    commit
    return .tombstoned

/-! ## What a tombstone leaves in the database -/

variable {lib : Externals} {env : Env} {db db' : Db}

/-- The removal fact of a tombstone. -/
def tombstoneFact (lib : Externals) (capture : Capture) (permalink : CanonicalPermalink)
    (reason : RemovalReason) (removedAt : Instant) (eventId : Uuid) : OutboxEvent :=
  removalRow .capture capture.captureId
    { socialSourceId := sourceIdentity lib capture.userRef permalink.url
      owner := capture.userRef, reason, removedAt } eventId

theorem insertDeletionOperation_yields {row : DeletionOperation} {u : Unit}
    (h : (insertDeletionOperation row).Yields env db u db') :
    ∃ t, db' = { db with deletionOperations := t } := by
  have h := h.statement
  split at h
  · cases h
  · split at h
    · cases h
      exact ⟨db.deletionOperations, rfl⟩
    · cases h
      exact ⟨_, rfl⟩

/-- **What a tombstone does.** A repeated one changes nothing; a new one appends the
removal fact, records the removal and moves the capture to `tombstoned`. -/
theorem tombstoneCapture_yields {captureId : Uuid} {reason : RemovalReason} {removedAt : Instant}
    {out : TombstoneOutcome}
    (h : (tombstoneCapture lib captureId reason removedAt).Yields env db out db') :
    ∃ capture, db.captures.lookup captureId = some capture ∧
      ((out = .duplicate ∧ db' = db ∧
          (db.localSourceRemovals.lookup
            (capture.userRef, sourceIdentity lib capture.userRef capture.canonicalUrl)).isSome) ∨
        (out = .tombstoned ∧
          ∃ permalink eventId deletions removals m,
            canonicalize capture.canonicalUrl = .ok permalink ∧
            db.localSourceRemovals.insert?
              ⟨capture.userRef, sourceIdentity lib capture.userRef capture.canonicalUrl,
                some captureId, none, captureId, reason, removedAt⟩ = some removals ∧
            Appends { db with deletionOperations := deletions }
              (tombstoneFact lib capture permalink reason removedAt eventId) m ∧
            db' = setStatus captureId (fun _ => true) .tombstoned
              { m with localSourceRemovals := removals })) := by
  obtain ⟨capture, _, h1, h⟩ := h.bind
  obtain ⟨hcapture, rfl⟩ := h1.fetchOne
  refine ⟨capture, hcapture, ?_⟩
  obtain ⟨present, _, h2, h⟩ := h.bind
  obtain ⟨hpresent, rfl⟩ := h2.query
  cases present with
  | some removal =>
    obtain ⟨_, _, h3, h⟩ := h.bind
    obtain ⟨-, rfl⟩ := h3.ofExcept
    obtain ⟨_, _, h4, h⟩ := h.bind
    obtain rfl := h4.commit
    obtain ⟨rfl, rfl⟩ := yields_pure.mp h
    exact Or.inl ⟨rfl, rfl, by rw [← hpresent]; rfl⟩
  | none =>
    obtain ⟨_, _, h3, h⟩ := h.bind
    obtain ⟨deletions, rfl⟩ := insertDeletionOperation_yields h3
    obtain ⟨eventId, m, h4, h⟩ := h.bind
    obtain ⟨c, permalink, hc, hpermalink, happ⟩ := appendRemovalFact_yields h4.mapError
    obtain ⟨_, _, h5, h⟩ := h.bind
    obtain ⟨-, removals, hremovals, rfl⟩ := h5.insertInto
    obtain ⟨_, _, h6, h⟩ := h.bind
    obtain rfl := h6.execute
    obtain ⟨_, _, h7, h⟩ := h.bind
    obtain rfl := h7.commit
    obtain ⟨rfl, rfl⟩ := yields_pure.mp h
    have hcc : c = capture := by
      rw [hcapture] at hc
      exact (Option.some.inj hc).symm
    subst hcc
    have hid : c.captureId = captureId := (Table.lookup_eq_some.mp hcapture).2
    subst hid
    rw [happ.eq] at hremovals
    exact Or.inr ⟨rfl, permalink, eventId, deletions, removals, m, hpermalink, hremovals, happ, rfl⟩

end InstagramArchive

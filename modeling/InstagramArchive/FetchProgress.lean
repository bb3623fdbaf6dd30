import InstagramArchive.Provenance
import InstagramArchive.Reopening
import InstagramArchive.Erasure
import InstagramArchive.Relational.Commit

/-!
# Progress of a fetch

A capture is fetched while it is accepted, and its row counts the attempts. `resolve_progress`
is the step lemma: when the contracts accept the fact an answer owes, the transaction after the
fetch concludes the capture or counts the attempt. It needs the total reading of
`storeResolution` and `recordFailedResolution`, since a refused fact leaves nothing behind.
-/

namespace InstagramArchive

open Relational Relational.Tx Permalink

/-! ## The attempts of an accepted capture -/

/-- The attempts a capture counts while it waits for a fetch. -/
def acceptedAttempts (captureId : Uuid) (db : Db) : Option Nat :=
  (db.captures.lookup captureId).bind fun c =>
    if c.status = .accepted then some c.resolutionAttempts else none

/-- The capture is as it was, or it was opened. -/
def Opens (before after : Option Nat) : Prop :=
  after = before ∨ (before = none ∧ after = some 0)

/-- The capture is as it was, or it is no longer accepted. -/
def Closes (before after : Option Nat) : Prop := after = before ∨ after = none

theorem Opens.refl (a : Option Nat) : Opens a a := .inl rfl

theorem Closes.refl (a : Option Nat) : Closes a a := .inl rfl

theorem Opens.trans {a b c : Option Nat} (h : Opens a b) (h' : Opens b c) : Opens a c := by
  rcases h with rfl | ⟨ha, hb⟩
  · exact h'
  · rcases h' with rfl | ⟨hb', -⟩
    · exact .inr ⟨ha, hb⟩
    · rw [hb] at hb'
      cases hb'

theorem Closes.trans {a b c : Option Nat} (h : Closes a b) (h' : Closes b c) : Closes a c := by
  rcases h' with rfl | h'
  · exact h
  · exact .inr h'

section Acceptance

variable {lib : Externals} {env : Env} {db db' : Db} {id : Uuid}

theorem acceptedAttempts_congr (h : db'.captures = db.captures) :
    acceptedAttempts id db' = acceptedAttempts id db := by
  unfold acceptedAttempts
  rw [h]

theorem acceptedAttempts_eq_some {n : Nat} : acceptedAttempts id db = some n ↔
    ∃ c ∈ db.captures, c.captureId = id ∧ c.status = .accepted ∧ c.resolutionAttempts = n := by
  unfold acceptedAttempts
  rw [Option.bind_eq_some_iff]
  constructor
  · rintro ⟨c, hc, hn⟩
    obtain ⟨hmem, hid⟩ := Table.lookup_eq_some.mp hc
    split at hn
    · next hst =>
      cases hn
      exact ⟨c, hmem, hid, hst, rfl⟩
    · cases hn
  · rintro ⟨c, hmem, rfl, hst, rfl⟩
    exact ⟨c, Table.lookup_mem hmem, by rw [if_pos hst]⟩

theorem acceptedAttempts_map {f : Capture → Capture}
    (hlookup : db'.captures.lookup id = (db.captures.lookup id).map f) :
    acceptedAttempts id db' = (db.captures.lookup id).bind fun c =>
      if (f c).status = .accepted then some (f c).resolutionAttempts else none := by
  unfold acceptedAttempts
  rw [hlookup, Option.bind_map]
  rfl

/-- A statement that accepts no capture and counts no attempt. -/
theorem closes_map {f : Capture → Capture}
    (hlookup : db'.captures.lookup id = (db.captures.lookup id).map f)
    (h : ∀ c, (f c).status ≠ .accepted ∨
      ((f c).status = c.status ∧ (f c).resolutionAttempts = c.resolutionAttempts)) :
    Closes (acceptedAttempts id db) (acceptedAttempts id db') := by
  rw [acceptedAttempts_map hlookup, acceptedAttempts]
  cases db.captures.lookup id with
  | none => exact .refl _
  | some c =>
    simp only [Option.bind_some]
    rcases h c with hst | ⟨hst, hn⟩
    · right
      simp [hst]
    · left
      simp [hst, hn]

/-- A statement that leaves status and count alone. -/
theorem acceptedAttempts_kept {f : Capture → Capture}
    (hlookup : db'.captures.lookup id = (db.captures.lookup id).map f)
    (h : ∀ c, (f c).status = c.status ∧ (f c).resolutionAttempts = c.resolutionAttempts) :
    acceptedAttempts id db' = acceptedAttempts id db := by
  rw [acceptedAttempts_map hlookup, acceptedAttempts]
  cases db.captures.lookup id with
  | none => rfl
  | some c => simp [h c]

theorem opens_reopenCapture (captureId : Uuid) (now : Instant) (db : Db) :
    Opens (acceptedAttempts id db) (acceptedAttempts id (reopenCapture captureId now db)) := by
  have hlookup : (reopenCapture captureId now db).captures.lookup id =
      (db.captures.lookup id).map fun c =>
        if c.captureId = captureId && c.status.open then reopened now c else c :=
    Table.lookup_update db.captures _ (reopened now) (fun _ => rfl) id
  rw [acceptedAttempts_map hlookup, acceptedAttempts]
  cases db.captures.lookup id with
  | none => exact .refl _
  | some c =>
    simp only [Option.bind_some]
    cases hp : decide (c.captureId = captureId) && c.status.open with
    | false => exact .refl _
    | true =>
      simp only [Bool.and_eq_true, CaptureStatus.open] at hp
      cases hst : c.status <;> simp [hst, reopened, Opens] at hp ⊢

theorem closes_setStatus (captureId : Uuid) (p : CaptureStatus → Bool) {status : CaptureStatus}
    (hst : status ≠ .accepted) (db : Db) :
    Closes (acceptedAttempts id db) (acceptedAttempts id (setStatus captureId p status db)) := by
  have hlookup : (setStatus captureId p status db).captures.lookup id =
      (db.captures.lookup id).map fun c =>
        if c.captureId = captureId && p c.status then { c with status } else c :=
    Table.lookup_update db.captures _ (fun c => { c with status }) (fun _ => rfl) id
  apply closes_map hlookup
  intro c
  split
  · exact .inl hst
  · exact .inr ⟨rfl, rfl⟩

theorem opens_insert {c : Capture} {t : Table Capture Capture.captureId}
    (h : db.captures.insert? c = some t) (hst : c.status = .accepted)
    (hn : c.resolutionAttempts = 0) :
    Opens (acceptedAttempts id db) (acceptedAttempts id { db with captures := t }) := by
  unfold acceptedAttempts
  have hlookup := Table.lookup_of_insert? h id
  by_cases hid : c.captureId = id
  · subst hid
    have hnone : db.captures.lookup c.captureId = none :=
      Table.lookup_eq_none.mpr (Table.insert?_eq_some h).2
    right
    simp [hlookup, hnone, hst, hn]
  · left
    simp [hlookup, hid]

theorem closes_delete (p : Capture → Bool) (db : Db) :
    Closes (acceptedAttempts id db)
      (acceptedAttempts id { db with captures := db.captures.delete p }) := by
  cases hafter : acceptedAttempts id { db with captures := db.captures.delete p } with
  | none => exact .inr rfl
  | some n =>
    obtain ⟨c, hc, hid, hst, hn⟩ := acceptedAttempts_eq_some.mp hafter
    have hbefore : acceptedAttempts id db = some n :=
      acceptedAttempts_eq_some.mpr ⟨c, ((Table.mem_delete ..).mp hc).1, hid, hst, hn⟩
    exact .inl hbefore.symm

/-! ## What a call does to it -/

theorem submitCapture_opens {request : CaptureRequest} {submission : CaptureSubmission}
    (h : (submitCaptureInTransaction request).Yields env db submission db') :
    Opens (acceptedAttempts id db) (acceptedAttempts id db') := by
  obtain ⟨permalink, method, -, -, ⟨captureId, t, -, ht, rfl, -⟩ | ⟨c, -, rfl, -⟩⟩ :=
    submitCaptureInTransaction_yields h
  · exact opens_insert ht rfl rfl
  · exact .refl _

theorem recordOperation_opens {command : BrowserCaptureCommand} {captureId : Uuid} {u : Unit}
    (h : (recordOperation lib command captureId).Yields env db u db') :
    Opens (acceptedAttempts id db) (acceptedAttempts id db') := by
  rcases recordOperation_yields h with ⟨-, rfl⟩ | ⟨-, ops, eventId, occurredAt, -, happ⟩
  · exact opens_reopenCapture ..
  · have hcaptures : db'.captures =
        (reopenCapture captureId env.now { db with captureOperations := ops }).captures := by
      rw [happ.eq]
    rw [acceptedAttempts_congr hcaptures]
    exact opens_reopenCapture captureId env.now { db with captureOperations := ops }

theorem ingestBrowserCaptureCommand_opens {delivery : CommandDelivery}
    {out : BrowserCaptureIngested}
    (h : (ingestBrowserCaptureCommand lib delivery).Yields env db out db') :
    Opens (acceptedAttempts id db) (acceptedAttempts id db') := by
  obtain ⟨command, -, ⟨-, rfl, -⟩ | ⟨-, t, -, hh⟩⟩ := ingestBrowserCaptureCommand_yields h
  · exact .refl _
  rcases handleCommand_yields hh with ⟨e, -, hr⟩ | ⟨submission, m, m', -, hs, hrec, rfl⟩
  · obtain ⟨-, eventId, occurredAt, m, happ, rfl⟩ := rejectCommand_yields hr
    have hcaptures : m.captures = db.captures := by rw [happ.eq]
    exact .inl (acceptedAttempts_congr hcaptures)
  · have hsubmit : Opens (acceptedAttempts id { db with inboxEvents := t })
        (acceptedAttempts id m) :=
      submitCapture_opens hs
    have hrecord : Opens (acceptedAttempts id m) (acceptedAttempts id m') :=
      recordOperation_opens hrec
    exact hsubmit.trans hrecord

theorem claimEach_acceptedAttempts {now : Instant} {batch : List Capture}
    {out : List Leased × Nat} (h : (claimEach lib now batch).Yields env db out db') :
    acceptedAttempts id db' = acceptedAttempts id db := by
  refine claimEach_invariant (fun m => acceptedAttempts id m = acceptedAttempts id db) ?_ ?_ h rfl
  · intro m captureId deadline hm
    have hlookup : (leaseCapture captureId deadline m).captures.lookup id =
        (m.captures.lookup id).map fun c =>
          if decide (c.captureId = captureId) then { c with nextResolutionAt := some deadline }
          else c :=
      Table.lookup_update m.captures _ (fun c => { c with nextResolutionAt := some deadline })
        (fun _ => rfl) id
    rw [acceptedAttempts_kept hlookup fun c => by split <;> exact ⟨rfl, rfl⟩, hm]
  · intro m m' captureId n hreport hm
    obtain ⟨c, -, ⟨-, rfl⟩ | ⟨conclusion, -, hr⟩⟩ := reportPending_yields hreport
    · exact hm
    · have hcaptures : m'.captures = m.captures := by
        rw [hr.1]
        rfl
      rw [acceptedAttempts_congr hcaptures, hm]

theorem Publishes.captures_eq {kind : FactKind} {captureId : Uuid}
    (h : Publishes lib kind captureId db db') : db'.captures = db.captures := by
  obtain ⟨snapshot, eventId, occurredAt, -, happ⟩ := h
  rw [happ.eq]

theorem recordFailedResolution_closes {captureId : Uuid} {observed : AvailabilityObservationKind}
    {resolvedAt : Instant} {out : ResolutionOutcome}
    (h : (recordFailedResolution lib captureId observed resolvedAt).Yields env db out db') :
    Closes (acceptedAttempts id db) (acceptedAttempts id db') := by
  obtain ⟨observations, mid, rfl, hcases⟩ := recordFailedResolution_yields h
  have hclosed : Closes (acceptedAttempts id db) (acceptedAttempts id
      (setStatus captureId CaptureStatus.live .unavailable
        { db with availabilityObservations := observations })) :=
    closes_setStatus captureId _ (by decide) { db with availabilityObservations := observations }
  rcases hcases with ⟨mediaId, -, -, hfact⟩ | ⟨-, rfl⟩
  · rw [acceptedAttempts_congr hfact.captures_eq]
    exact hclosed
  · exact hclosed

theorem storeResolution_closes {captureId : Uuid} {permalink : CanonicalPermalink}
    {normalized : NormalizedMedia} {body : String} {resolvedAt : Instant}
    {stored : StoredResolution}
    (h : (storeResolution lib captureId permalink normalized body resolvedAt).Yields env db
      stored db') :
    Closes (acceptedAttempts id db) (acceptedAttempts id db') := by
  have hrows := (storeResolution_linked h).captures
  have hlookup : db'.captures.lookup id = (db.captures.lookup id).map fun c =>
      if c.captureId = captureId && c.status ≠ .failed then
        { c with status := .resolved, mediaId := some stored.mediaId } else c := by
    have hsame : db'.captures = (concludeResolved captureId stored.mediaId db).captures :=
      Table.ext hrows
    rw [hsame]
    exact Table.lookup_update db.captures _
      (fun c => { c with status := .resolved, mediaId := some stored.mediaId }) (fun _ => rfl) id
  apply closes_map hlookup
  intro c
  split
  · left
    simp
  · exact .inr ⟨rfl, rfl⟩

theorem Erasure.closes {request : DeletionRequest} (h : Erasure lib request db db') :
    Closes (acceptedAttempts id db) (acceptedAttempts id db') := by
  cases h with
  | capture captureId htarget => exact closes_delete _ db
  | removal happ =>
    have hcaptures : db'.captures = db.captures := by rw [happ.eq]
    exact .inl (acceptedAttempts_congr hcaptures)
  | _ => exact .refl _

theorem applyDeletion_closes {request : DeletionRequest} {result : DeletionResult}
    (h : (applyDeletion lib request).Yields env db result db') :
    Closes (acceptedAttempts id db) (acceptedAttempts id db') := by
  rcases applyDeletion_yields h with ⟨-, rfl⟩ |
    ⟨-, -, -, operations, effects, mid, pending, -, ht, rfl⟩
  · exact .refl _
  · have herases := applyTargetRows_erases env _ _ _ ht
    exact herases.invariant (P := fun m => Closes (acceptedAttempts id db) (acceptedAttempts id m))
      (fun a b ha hb => ha.trans hb.closes) (.refl _)

/-- **What a call does to accepted captures**: it counts an attempt, or opens some, or closes
some. -/
theorem Effect.acceptance {call : Call} (h : Effect lib env db call db') :
    (∃ lease now policy outcome, call = .resolve lease now policy outcome ∧
        db' = rescheduleCapture lease.captureId lease.attempt now db) ∨
      (call.Intake ∧ ∀ id, Opens (acceptedAttempts id db) (acceptedAttempts id db')) ∨
      ∀ id, Closes (acceptedAttempts id db) (acceptedAttempts id db') := by
  have hsame : db'.captures = db.captures →
      ∀ id, Closes (acceptedAttempts id db) (acceptedAttempts id db') :=
    fun hcaptures id => .inl (acceptedAttempts_congr hcaptures)
  cases h with
  | idle => exact .inr (.inr fun id => .refl _)
  | submit h => exact .inr (.inl ⟨trivial, fun id => submitCapture_opens h⟩)
  | command h => exact .inr (.inl ⟨trivial, fun id => ingestBrowserCaptureCommand_opens h⟩)
  | analysis h =>
    obtain ⟨completion, -, ⟨-, rfl, -⟩ | ⟨-, t, -, hh⟩⟩ := ingestAnalysisCompleted_yields h
    · exact .inr (.inr fun id => .refl _)
    · obtain ⟨-, outcome, links, rfl⟩ := handleCompletion_yields hh
      exact .inr (.inr fun id => .refl _)
  | claim h => exact .inr (.inr fun id => .inl (claimEach_acceptedAttempts h))
  | reschedule => exact .inl ⟨_, _, _, _, rfl, rfl⟩
  | store hcall hn h => exact .inr (.inr fun id => storeResolution_closes h)
  | fail hcall ho h => exact .inr (.inr fun id => recordFailedResolution_closes h)
  | unmapped h => exact .inr (.inr fun id => recordFailedResolution_closes h)
  | report h =>
    obtain ⟨c, -, ⟨-, rfl⟩ | ⟨conclusion, -, hr⟩⟩ := reportPending_yields h
    · exact .inr (.inr fun id => .refl _)
    · right; right
      apply hsame
      rw [hr.1]
      rfl
  | unavailable h =>
    obtain ⟨m, t, rfl, rfl⟩ := writeUnavailable_yields h
    right; right
    intro id
    split
    · exact closes_setStatus _ _ (by decide) { db with availabilityObservations := t }
    · exact .refl _
  | tombstone h =>
    obtain ⟨c, -, ⟨-, rfl, -⟩ | ⟨-, permalink, eventId, deletions, removals, m, -, -, happ, rfl⟩⟩ :=
      tombstoneCapture_yields h
    · exact .inr (.inr fun id => .refl _)
    · right; right
      intro id
      have hcaptures : m.captures = db.captures := by rw [happ.eq]
      have hsame : acceptedAttempts id m = acceptedAttempts id db :=
        acceptedAttempts_congr hcaptures
      have hclosed : ∀ captureId, Closes (acceptedAttempts id m) (acceptedAttempts id
          (setStatus captureId (fun _ => true) .tombstoned
            { m with localSourceRemovals := removals })) :=
        fun captureId => closes_setStatus captureId _ (by decide)
          { m with localSourceRemovals := removals }
      rw [← hsame]
      exact hclosed _
  | mediaFact h =>
    right; right
    apply hsame
    rw [h.eq]
  | book h => exact .inr (.inr fun id => .refl _)
  | acknowledge => exact .inr (.inr fun id => .refl _)
  | delete h => exact .inr (.inr fun id => applyDeletion_closes h)

end Acceptance

/-! ## When an answer concludes -/

/-- The identifiers of a transaction are new to the tables a conclusion inserts into. -/
structure Undrawn (env : Env) (db : Db) : Prop where
  raws : ∀ k, ∀ r ∈ db.rawRecords, r.rawRecordId ≠ env.uuid k
  media : ∀ k, ∀ m ∈ db.media, m.mediaId ≠ env.uuid k
  revisions : ∀ k, ∀ r ∈ db.mediaRevisions, r.revisionId ≠ env.uuid k
  observations : ∀ k, ∀ o ∈ db.availabilityObservations, o.observationId ≠ env.uuid k
  events : ∀ k, ∀ e ∈ db.outboxEvents, e.eventId ≠ env.uuid k

/-- The snapshot of a capture for the content of a row, when the contracts accept it. -/
def snapshotOf (lib : Externals) (kind : FactKind) (capture : Capture) (row : CurrentRow) :
    Option SocialSourceSnapshot := do
  let permalink ← (canonicalize capture.canonicalUrl).toOption
  let text ← (snapshotText lib capture.captureId row.caption).toOption
  let snapshot := assemble lib kind capture permalink row text
  (accepted lib capture.captureId (kind.payload snapshot)).toOption
  return snapshot

/-- The content a stored payload gives its capture. -/
def storedRow (lib : Externals) (env : Env) (capture : Capture) (permalink : CanonicalPermalink)
    (normalized : NormalizedMedia) (body : String) (resolvedAt : Instant) (db : Db) : CurrentRow :=
  { caption := normalized.caption
    rawBlobHex := hexEncode (lib.sha256 body)
    byteSize := body.utf8ByteSize
    upstreamStatus := .available
    observedAt := max capture.capturedAt (max resolvedAt
      (if (findMedia db permalink.url).isSome then resolvedAt else env.now)) }

/-- The contracts accept the fact the payload owes, if it owes one. -/
def PayloadAccepted (lib : Externals) (env : Env) (capture : Capture)
    (permalink : CanonicalPermalink) (normalized : NormalizedMedia) (body : String)
    (resolvedAt : Instant) (db : Db) : Prop :=
  owesFact capture.captureId permalink normalized db = true →
    (snapshotOf lib (owedKind capture.captureId db) capture
      (storedRow lib env capture permalink normalized body resolvedAt db)).isSome

/-- The contracts accept the fact an observed deletion owes, if it owes one. -/
def DeletionAccepted (lib : Externals) (captureId : Uuid) (resolvedAt : Instant) (db : Db) : Prop :=
  ∀ mediaId, linkedMedia captureId db = some mediaId →
    (snapshotAt lib (setUpstreamDeleted mediaId resolvedAt db) captureId .updated).isSome

section Totality

variable {lib : Externals} {env : Env} {db : Db} {ses : Session Db} {c : Capture}

theorem currentRow_eq {captureId mediaId revisionId : Uuid} {m : Media} {r : MediaRevision}
    {b : RawRecord} (hc : db.captures.lookup captureId = some c) (hlink : c.mediaId = some mediaId)
    (hm : db.media.lookup mediaId = some m) (hcurrent : m.currentRevisionId = some revisionId)
    (hr : db.mediaRevisions.lookup revisionId = some r)
    (hb : db.rawRecords.lookup r.rawRecordId = some b) :
    currentRow db captureId = some ⟨m.caption, b.blobRef, b.byteSize, m.upstreamStatus,
      max c.capturedAt (max r.resolvedAt m.updatedAt)⟩ := by
  simp [currentRow, hc, hlink, hm, hcurrent, hr, hb]

theorem snapshotAt_isSome {captureId : Uuid} {kind : FactKind} {row : CurrentRow}
    (hc : db.captures.lookup captureId = some c) (hrow : currentRow db captureId = some row)
    (h : (snapshotOf lib kind c row).isSome) : (snapshotAt lib db captureId kind).isSome := by
  have hid : c.captureId = captureId := (Table.lookup_eq_some.mp hc).2
  have heq : snapshotAt lib db captureId kind = snapshotOf lib kind c row := by
    simp only [snapshotAt, snapshotOf, hc, hrow, hid, Option.bind_eq_bind, Option.bind_some]
  rw [heq]
  exact h

theorem appendFact_ends {captureId : Uuid} {kind : FactKind} (hq : env.Quiet)
    (hsnapshot : (snapshotAt lib ses.store captureId kind).isSome)
    (hevents : ∀ k, ∀ e ∈ ses.store.outboxEvents, e.eventId ≠ env.uuid k) :
    (appendFact lib kind captureId).Ends env ses fun _ _ => True := by
  obtain ⟨snapshot, hsnapshot⟩ := Option.isSome_iff_exists.mp hsnapshot
  unfold snapshotAt at hsnapshot
  obtain ⟨c, hc, h⟩ := Option.bind_eq_some_iff.mp hsnapshot
  obtain ⟨permalink, hp, h⟩ := Option.bind_eq_some_iff.mp h
  obtain ⟨row, hrow, h⟩ := Option.bind_eq_some_iff.mp h
  obtain ⟨text, htext, h⟩ := Option.bind_eq_some_iff.mp h
  obtain ⟨u, haccepted, h⟩ := Option.bind_eq_some_iff.mp h
  have hpermalink : storedPermalink captureId c = .ok permalink := by
    unfold storedPermalink
    cases hcan : canonicalize c.canonicalUrl with
    | ok p =>
      rw [hcan] at hp
      cases hp
      rfl
    | error e =>
      rw [hcan] at hp
      cases hp
  have hok : ∀ {α ε : Type} {r : Except ε α} {a : α}, r.toOption = some a → r = .ok a := by
    intro α ε r a hr
    cases r with
    | ok b =>
      cases hr
      rfl
    | error e => cases hr
  refine .bind (.bind (.fetchOne hq hc ?_))
  refine .bind (.ofExcept hpermalink ?_)
  refine .bind (.fetchOne hq hrow ?_)
  refine .bind (.ofExcept (hok htext) ?_)
  refine .bind (.ofExcept (hok haccepted) (.pure ?_))
  refine .bind (.nowV7 (.bind (.nowUtc (.bind ?_))))
  exact .insertInto hq rfl (hevents _) fun t ht => .pure trivial

theorem snapshotAt_setStatus {captureId : Uuid} {kind : FactKind} (id : Uuid)
    (p : CaptureStatus → Bool) (status : CaptureStatus) (db : Db) :
    snapshotAt lib (setStatus id p status db) captureId kind =
      snapshotAt lib db captureId kind := by
  have hlookup : (setStatus id p status db).captures.lookup captureId =
      (db.captures.lookup captureId).map fun c =>
        if c.captureId = id && p c.status then { c with status } else c :=
    Table.lookup_update db.captures _ (fun c => { c with status }) (fun _ => rfl) captureId
  simp only [snapshotAt, currentRow, hlookup]
  cases db.captures.lookup captureId with
  | none => rfl
  | some c =>
    simp only [Option.map_some, Option.bind_eq_bind, Option.bind_some]
    split <;> rfl

/-- A failed attempt of a stored capture is recorded. -/
theorem recordFailedResolution_ends {captureId : Uuid} {observed : AvailabilityObservationKind}
    {resolvedAt : Instant} (hq : env.Quiet) (hu : Undrawn env ses.store)
    (hc : ses.store.captures.lookup captureId = some c)
    (hfact : observed = .deleted → DeletionAccepted lib captureId resolvedAt ses.store) :
    (recordFailedResolution lib captureId observed resolvedAt).Ends env ses fun _ _ => True := by
  refine .bind (.nowV7 (.bind (.insertInto hq ?_ (hu.observations _) fun observations _ => ?_)))
  · simp [observationGuard, hc]
  refine .bind (.execute hq ?_)
  by_cases hd : observed = .deleted
  · rw [if_pos hd]
    refine .bind (.query hq ?_)
    have hlinked : linkedMedia captureId (setStatus captureId CaptureStatus.live .unavailable
        { ses.store with availabilityObservations := observations }) =
        linkedMedia captureId ses.store := linkedMedia_setStatus ..
    rw [hlinked]
    cases hmedia : linkedMedia captureId ses.store with
    | none => exact .bind (.commit hq (.pure trivial))
    | some mediaId =>
      have hsnapshot := hfact hd mediaId hmedia
      refine .bind (.execute hq (.bind (.mapError (.mono (appendFact_ends hq ?_ hu.events) ?_))))
      · have hsame : snapshotAt lib (setUpstreamDeleted mediaId resolvedAt
            (setStatus captureId CaptureStatus.live .unavailable
              { ses.store with availabilityObservations := observations })) captureId .updated =
            snapshotAt lib (setUpstreamDeleted mediaId resolvedAt ses.store) captureId .updated :=
          snapshotAt_setStatus captureId CaptureStatus.live .unavailable
            (setUpstreamDeleted mediaId resolvedAt
              { ses.store with availabilityObservations := observations })
        rw [hsame]
        exact hsnapshot
      · exact fun _ _ _ => .bind (.commit hq (.pure trivial))
  · rw [if_neg hd]
    exact .bind (.commit hq (.pure trivial))

/-- The media row of a permalink is projected or created. -/
theorem upsertMediaProjection_ends {permalink : CanonicalPermalink} {normalized : NormalizedMedia}
    {resolvedAt : Instant} (hq : env.Quiet)
    (hmedia : ∀ k, ∀ m ∈ ses.store.media, m.mediaId ≠ env.uuid k) :
    (upsertMediaProjection permalink normalized resolvedAt).Ends env ses fun mediaId ses' =>
      ∃ media m, ses'.store = { ses.store with media } ∧ media.lookup mediaId = some m ∧
        m.caption = normalized.caption ∧ m.upstreamStatus = .available ∧
        m.updatedAt = if (findMedia ses.store permalink.url).isSome then resolvedAt
          else env.now := by
  refine .bind (.query hq ?_)
  cases hfind : findMedia ses.store permalink.url with
  | some m =>
    have hlookup := Table.lookup_update ses.store.media (fun x => x.mediaId = m.mediaId)
      (fun x => { x with mediaType := normalized.mediaType, caption := normalized.caption,
                         upstreamStatus := .available, updatedAt := resolvedAt })
      (fun _ => rfl) m.mediaId
    rw [Table.lookup_mem (findMedia_eq_some hfind).1] at hlookup
    simp only [Option.map_some, decide_true, if_true] at hlookup
    exact .bind (.execute hq (.pure ⟨_, _, rfl, hlookup, rfl, rfl, rfl⟩))
  | none =>
    refine .bind (.nowV7 (.bind (.now (.bind (.insertInto hq ?_ (hmedia _) fun media ht => ?_)))))
    · have hnone : findMedia ses.store (newMedia (env.uuid (ses.tick + 1)) permalink normalized
          env.now).permalink = none := hfind
      simp [mediaGuard, hnone]
    · have hlookup := Table.lookup_mem ((Table.mem_of_insert? ht _).mpr (.inr rfl))
      exact .pure ⟨media, _, rfl, hlookup, rfl, rfl, rfl⟩

/-- A payload whose owed fact the contracts accept is stored. -/
theorem storeResolution_ends {permalink : CanonicalPermalink} {normalized : NormalizedMedia}
    {body : String} {resolvedAt : Instant} (hq : env.Quiet) (hu : Undrawn env ses.store)
    (hc : ses.store.captures.lookup c.captureId = some c) (hst : c.status ≠ .failed)
    (hfact : PayloadAccepted lib env c permalink normalized body resolvedAt ses.store) :
    (storeResolution lib c.captureId permalink normalized body resolvedAt).Ends env ses
      fun _ _ => True := by
  refine .bind (.nowV7 (.bind (.insertInto hq rfl (hu.raws _) fun raws hraws => ?_)))
  refine .bind (.query hq (.bind
    (.mono (upsertMediaProjection_ends hq fun k m hm => hu.media k m hm) ?_)))
  rintro mediaId ⟨_, n⟩ ⟨media, m, rfl, hm, hcaption, hstatus, hupdated⟩
  have hraw := Table.lookup_mem ((Table.mem_of_insert? hraws _).mpr (.inr rfl))
  simp only at hm hraw hupdated
  refine .bind (.query hq (.bind (.nowV7 (.bind (.insertInto hq ?_
    (fun r hr => hu.revisions _ r hr) fun revisions hrevisions => ?_)))))
  · simp only [revisionGuard, hm]
    have hfound : (raws.lookup (env.uuid ses.tick)).isNone = false := by
      rw [show env.uuid ses.tick = (rawResponse lib body resolvedAt
        (env.uuid ses.tick)).rawRecordId from rfl, hraw]
      rfl
    simp [hfound]
  have hrevision := Table.lookup_mem ((Table.mem_of_insert? hrevisions _).mpr (.inr rfl))
  simp only at hrevision
  have hcurrent := Table.lookup_update media (fun x => x.mediaId = mediaId)
    (fun x => { x with currentRevisionId := some (env.uuid (n + 1)) }) (fun _ => rfl) mediaId
  rw [hm] at hcurrent
  simp only [Option.map_some, (Table.lookup_eq_some.mp hm).2, decide_true, if_true] at hcurrent
  refine .bind (.execute hq (.bind (.nowV7 (.bind (.insertInto hq ?_
    (fun o ho => hu.observations _ o ho) fun observations _ => ?_)))))
  · have hcapture : ¬ (ses.store.captures.lookup c.captureId).isNone := by simp [hc]
    have hmedia : ¬ ((media.update (fun x => x.mediaId = mediaId)
      (fun x => { x with currentRevisionId := some (env.uuid (n + 1)) }) (fun _ => rfl)).lookup
        mediaId).isNone := by simp [hcurrent]
    exact (if_neg hcapture).trans (if_neg hmedia)
  refine .bind (.execute hq ?_)
  split
  · rename_i howes
    have hconcluded := Table.lookup_update ses.store.captures
      (fun x => x.captureId = c.captureId && x.status ≠ .failed)
      (fun x => { x with status := .resolved, mediaId := some mediaId }) (fun _ => rfl) c.captureId
    rw [hc] at hconcluded
    simp only [Option.map_some, decide_true, Bool.true_and, decide_eq_true_eq, if_pos hst]
      at hconcluded
    refine .bind (.mapError (.mono (appendFact_ends hq ?_ hu.events) ?_))
    · refine snapshotAt_isSome hconcluded
        (currentRow_eq hconcluded rfl hcurrent rfl hrevision hraw) ?_
      have hrow : storedRow lib env c permalink normalized body resolvedAt ses.store =
          ⟨m.caption, hexEncode (lib.sha256 body), body.utf8ByteSize, m.upstreamStatus,
            max c.capturedAt (max resolvedAt m.updatedAt)⟩ := by
        rw [hcaption, hstatus, hupdated]
        rfl
      have hsome := hfact howes
      rw [hrow] at hsome
      exact hsome
    · exact fun _ _ _ => .bind (.commit hq (.pure trivial))
  · exact .bind (.commit hq (.pure trivial))

end Totality

/-! ## The transaction after a fetch -/

/-- The answer concludes the leased capture or counts an attempt: the connection holds, the
identifiers are new, the size fits its column, and the contracts accept the fact it owes. -/
structure AnswerConcludes (lib : Externals) (env : Env) (lease : Leased) (now : Instant)
    (outcome : SurfaceOutcome) (db : Db) : Prop where
  quiet : env.Quiet
  undrawn : Undrawn env db
  payload : ∀ c permalink body normalized, db.captures.lookup lease.captureId = some c →
    canonicalize lease.canonicalUrl = .ok permalink → outcome = .payload body →
    normalize lib body permalink.kind = some normalized → body.utf8ByteSize ≤ maxByteSize ∧
      PayloadAccepted lib env c permalink normalized body now db
  deletion : outcome = .deleted → DeletionAccepted lib lease.captureId now db

section Fetch

variable {lib : Externals} {env : Env} {db db' : Db} {id : Uuid} {lease : Leased} {now : Instant}
  {policy : ResolutionPolicy} {outcome : SurfaceOutcome}

theorem acceptedAttempts_reschedule (attempt : Nat) :
    acceptedAttempts id (rescheduleCapture lease.captureId attempt now db) =
      if lease.captureId = id then (acceptedAttempts id db).map fun _ => min attempt maxI32
      else acceptedAttempts id db := by
  have hlookup : (rescheduleCapture lease.captureId attempt now db).captures.lookup id =
      (db.captures.lookup id).map fun c =>
        if decide (c.captureId = lease.captureId) then
          { c with resolutionAttempts := min attempt maxI32
                   nextResolutionAt := some (now + retryDelay attempt) } else c :=
    Table.lookup_update db.captures _ (fun c =>
      { c with resolutionAttempts := min attempt maxI32
               nextResolutionAt := some (now + retryDelay attempt) }) (fun _ => rfl) id
  rw [acceptedAttempts_map hlookup, acceptedAttempts]
  cases hc : db.captures.lookup id with
  | none => simp
  | some c =>
    have hid : c.captureId = id := (Table.lookup_eq_some.mp hc).2
    simp only [Option.bind_some, hid]
    by_cases h : lease.captureId = id
    · by_cases hst : c.status = .accepted <;> simp [h, hst]
    · simp [h, Ne.symm h]

theorem storeResolution_concludes {captureId : Uuid} {permalink : CanonicalPermalink}
    {normalized : NormalizedMedia} {body : String} {resolvedAt : Instant}
    {stored : StoredResolution}
    (h : (storeResolution lib captureId permalink normalized body resolvedAt).Yields env db
      stored db') : acceptedAttempts captureId db' = none := by
  have hsame : db'.captures = (concludeResolved captureId stored.mediaId db).captures :=
    Table.ext (storeResolution_linked h).captures
  have hlookup : db'.captures.lookup captureId = (db.captures.lookup captureId).map fun c =>
      if c.captureId = captureId && c.status ≠ .failed then
        { c with status := .resolved, mediaId := some stored.mediaId } else c := by
    rw [hsame]
    exact Table.lookup_update db.captures _
      (fun c => { c with status := .resolved, mediaId := some stored.mediaId }) (fun _ => rfl)
      captureId
  rw [acceptedAttempts_map hlookup]
  cases hc : db.captures.lookup captureId with
  | none => rfl
  | some c =>
    have hid : c.captureId = captureId := (Table.lookup_eq_some.mp hc).2
    by_cases hst : c.status = .failed <;> simp [hid, hst]

theorem recordFailedResolution_concludes {captureId : Uuid} {observed : AvailabilityObservationKind}
    {resolvedAt : Instant} {out : ResolutionOutcome}
    (h : (recordFailedResolution lib captureId observed resolvedAt).Yields env db out db') :
    acceptedAttempts captureId db' = none := by
  obtain ⟨observations, mid, rfl, hcases⟩ := recordFailedResolution_yields h
  have hnone : acceptedAttempts captureId (setStatus captureId CaptureStatus.live .unavailable
      { db with availabilityObservations := observations }) = none := by
    have hlookup : (setStatus captureId CaptureStatus.live .unavailable
        { db with availabilityObservations := observations }).captures.lookup captureId =
        (db.captures.lookup captureId).map fun c =>
          if c.captureId = captureId && c.status.live then { c with status := .unavailable }
          else c :=
      Table.lookup_update db.captures _ (fun c => { c with status := .unavailable })
        (fun _ => rfl) captureId
    rw [acceptedAttempts_map hlookup]
    cases hc : db.captures.lookup captureId with
    | none => rfl
    | some c =>
      have hid : c.captureId = captureId := (Table.lookup_eq_some.mp hc).2
      cases hst : c.status <;> simp [hid, hst, CaptureStatus.live]
  rcases hcases with ⟨mediaId, -, -, hfact⟩ | ⟨-, rfl⟩
  · rw [acceptedAttempts_congr hfact.captures_eq]
    exact hnone
  · exact hnone

theorem applySurfaceOutcome_concludes {captureId : Uuid} {permalink : CanonicalPermalink}
    {resolvedAt : Instant} {out : ResolutionOutcome}
    (h : (applySurfaceOutcome lib captureId permalink outcome resolvedAt).Yields env db out db') :
    acceptedAttempts captureId db' = none := by
  rcases applySurfaceOutcome_yields h with ⟨body, normalized, stored, -, -, -, hs⟩ |
    ⟨observed, -, -, hf⟩
  · exact storeResolution_concludes hs
  · exact recordFailedResolution_concludes hf

/-- What the transaction after a fetch does to accepted captures. -/
theorem resolve_acceptance :
    (lease.attempt < policy.maxAttempts ∧
        (Call.resolve lease now policy outcome).perform lib env db =
          rescheduleCapture lease.captureId lease.attempt now db) ∨
      ∀ id, Closes (acceptedAttempts id db)
        (acceptedAttempts id ((Call.resolve lease now policy outcome).perform lib env db)) := by
  have hfail : ∀ {captureId observed out m}, (recordFailedResolution lib captureId observed
      now).Yields env db out m → ∀ id, Closes (acceptedAttempts id db) (acceptedAttempts id m) :=
    fun h id => recordFailedResolution_closes h
  refine exec_rel (fun _ m => (lease.attempt < policy.maxAttempts ∧
      m = rescheduleCapture lease.captureId lease.attempt now db) ∨
    ∀ id, Closes (acceptedAttempts id db) (acceptedAttempts id m)) _ env db
    (.inr fun id => .refl _) fun attempt m h => ?_
  unfold resolveOne at h
  split at h
  · obtain ⟨out, mid, h1, h⟩ := h.bind
    obtain ⟨-, rfl⟩ := yields_pure.mp h
    exact .inr (hfail h1.mapError)
  · split at h
    · rename_i hretry
      obtain ⟨_, mid, h1, h⟩ := h.bind
      obtain ⟨-, rfl⟩ := yields_pure.mp h
      simp only [Bool.and_eq_true, decide_eq_true_eq] at hretry
      exact .inl ⟨hretry.2, h1.execute⟩
    · obtain ⟨out, mid, h1, h⟩ := h.bind
      obtain ⟨-, rfl⟩ := yields_pure.mp h
      right
      rcases applySurfaceOutcome_yields h1.mapError with ⟨_, _, stored, -, -, -, hs⟩ |
        ⟨observed, -, -, hf⟩
      · exact fun id => storeResolution_closes hs
      · exact hfail hf

/-- An answer that concludes is applied. -/
theorem applySurfaceOutcome_ends {c : Capture} {permalink : CanonicalPermalink}
    (h : AnswerConcludes lib env lease now outcome db)
    (hc : db.captures.lookup lease.captureId = some c) (hst : c.status = .accepted)
    (hp : canonicalize lease.canonicalUrl = .ok permalink) :
    (applySurfaceOutcome lib lease.captureId permalink (spentOutcome outcome) now).Ends env ⟨db, 0⟩
      fun _ _ => True := by
  have hfail : ∀ {observed}, observed ≠ .deleted →
      (recordFailedResolution lib lease.captureId observed now).Ends env ⟨db, 0⟩ fun _ _ => True :=
    fun hne => recordFailedResolution_ends h.quiet h.undrawn hc fun hd => (hne hd).elim
  have hid : c.captureId = lease.captureId := (Table.lookup_eq_some.mp hc).2
  cases outcome with
  | payload body =>
    simp only [spentOutcome, SurfaceOutcome.isTransient, Bool.false_eq_true, if_false,
      applySurfaceOutcome]
    cases hn : normalize lib body permalink.kind with
    | none =>
      apply hfail
      decide
    | some normalized =>
      obtain ⟨hsize, hfact⟩ := h.payload c permalink body normalized hc hp rfl hn
      simp only [if_pos hsize]
      rw [← hid] at hc ⊢
      exact .bind (.mono (storeResolution_ends h.quiet h.undrawn hc (by simp [hst]) hfact)
        fun _ _ _ => .pure trivial)
  | deleted => exact recordFailedResolution_ends h.quiet h.undrawn hc fun _ => h.deletion rfl
  | _ =>
    apply hfail
    decide

/-- **A fetch makes progress.** The accepted capture is concluded, or counts the attempt the
lease stands for. -/
theorem resolve_progress {k : Nat} {permalink : CanonicalPermalink}
    (h : AnswerConcludes lib env lease now outcome db)
    (hk : acceptedAttempts lease.captureId db = some k)
    (hp : canonicalize lease.canonicalUrl = .ok permalink) :
    acceptedAttempts lease.captureId ((Call.resolve lease now policy outcome).perform lib env db) =
        none ∨
      (lease.attempt < policy.maxAttempts ∧
        acceptedAttempts lease.captureId
          ((Call.resolve lease now policy outcome).perform lib env db) =
            some (min lease.attempt maxI32)) := by
  obtain ⟨c, hmem, hid, hst, -⟩ := acceptedAttempts_eq_some.mp hk
  have hc : db.captures.lookup lease.captureId = some c := hid ▸ Table.lookup_mem hmem
  simp only [Call.perform]
  unfold resolveOne
  rw [hp]
  simp only
  split
  · rename_i hretry
    simp only [Bool.and_eq_true, decide_eq_true_eq] at hretry
    right
    have hends : (reschedule lease.captureId lease.attempt now >>= fun _ =>
        (return Attempt.retried : ArchiveTx CaptureResolutionError Attempt)).Ends env ⟨db, 0⟩
        fun _ ses' => ses'.store = rescheduleCapture lease.captureId lease.attempt now db :=
      .bind (.execute h.quiet (.pure rfl))
    obtain ⟨a, ses', hexec, hstore⟩ := hends.exec
    rw [hexec, hstore, acceptedAttempts_reschedule, if_pos rfl, hk]
    exact ⟨hretry.2, rfl⟩
  · left
    obtain ⟨out, ses', hcommit, -⟩ := applySurfaceOutcome_ends h hc hst hp
    have hnone := applySurfaceOutcome_concludes hcommit.yields
    have hends : ((applySurfaceOutcome lib lease.captureId permalink (spentOutcome outcome)
        now).mapError CaptureResolutionError.resolution >>= fun _ =>
          (return Attempt.concluded true : ArchiveTx CaptureResolutionError Attempt)).Ends env
        ⟨db, 0⟩ fun _ m => m.store = ses'.store :=
      .bind (.mapError ⟨out, ses', hcommit, .pure rfl⟩)
    obtain ⟨a, m, hexec, hstore⟩ := hends.exec
    rw [hexec, hstore]
    exact hnone

end Fetch

end InstagramArchive

import InstagramArchive.Erasure
import InstagramArchive.ImportStages
import InstagramArchive.OwnMediaWrites
import InstagramArchive.Service

/-!
# What the other lanes write

Each lane writes tables of its own and shares the evidence, the media projection and the outbox
with the capture lane. `AccountWrites` and `SyncWrites` name the tables of an account program
and of an own-media pass, with the evidence they append.
-/

namespace InstagramArchive

open Relational Relational.Tx Permalink

/-- Raw records with the property were appended to the evidence. -/
def AppendsRaws (P : RawRecord → Prop) (db db' : Db) : Prop :=
  ∃ raws, db'.rawRecords.rows = db.rawRecords.rows ++ raws ∧ ∀ r ∈ raws, P r

/-- The raw record of a provider response. -/
def IsPage (lib : Externals) (r : RawRecord) : Prop :=
  ∃ body now rawRecordId, r = rawPage lib body now rawRecordId

/-- The raw record of a payload of the public surface. -/
def IsResponse (lib : Externals) (r : RawRecord) : Prop :=
  ∃ body resolvedAt rawRecordId, r = rawResponse lib body resolvedAt rawRecordId

abbrev AppendsPages (lib : Externals) : Db → Db → Prop := AppendsRaws (IsPage lib)

section Evidence

variable {P Q : RawRecord → Prop} {db db' db'' : Db}

theorem AppendsRaws.of_eq (h : db'.rawRecords = db.rawRecords) : AppendsRaws P db db' :=
  ⟨[], by simp [h], by simp⟩

theorem AppendsRaws.trans (h : AppendsRaws P db db') (h' : AppendsRaws P db' db'') :
    AppendsRaws P db db'' :=
  DataExport.append_of_append h h'

theorem AppendsRaws.mono (h : AppendsRaws P db db') (hPQ : ∀ r, P r → Q r) :
    AppendsRaws Q db db' := by
  obtain ⟨raws, hrows, hraws⟩ := h
  exact ⟨raws, hrows, fun r hr => hPQ r (hraws r hr)⟩

end Evidence

/-! ## Account programs -/

/-- Only account tables change, and responses are appended to the evidence. -/
structure AccountWrites (lib : Externals) (db db' : Db) : Prop where
  tables : ∃ accounts capabilities permissions credentials audits flows raws, db' = { db with
    accounts := accounts
    accountCapabilities := capabilities
    permissionObservations := permissions
    credentials := credentials
    credentialAudits := audits
    oauthFlows := flows
    rawRecords := raws }
  pages : AppendsPages lib db db'

section Accounts

variable {lib : Externals} {ε : Type} [OfSql ε] {accountId userRef : Uuid} {now : Instant}

instance : IsPreorder Db (AccountWrites lib) where
  refl _ := ⟨⟨_, _, _, _, _, _, _, rfl⟩, .of_eq rfl⟩
  trans := by
    rintro a b c ⟨⟨ac, ca, pe, cr, au, fl, ra, rfl⟩, hpages⟩
      ⟨⟨ac', ca', pe', cr', au', fl', ra', rfl⟩, hpages'⟩
    exact ⟨⟨ac', ca', pe', cr', au', fl', ra', rfl⟩, hpages.trans hpages'⟩

theorem insertApiResponse_writes (tooLong : ε) (body : String) :
    (insertApiResponse lib tooLong body now).Respects (AccountWrites lib) := by
  unfold insertApiResponse
  split
  · exact .throw
  · refine .bind .nowV7 fun rawRecordId => .bind ?_ fun _ => .pure _
    intro env db u db' h
    obtain ⟨-, t, ht, rfl⟩ := h.insertInto
    refine ⟨⟨_, _, _, _, _, _, t, rfl⟩, [rawPage lib body now rawRecordId],
      (Table.insert?_eq_some ht).1, fun r hr => ?_⟩
    exact ⟨body, now, rawRecordId, List.mem_singleton.mp hr⟩

theorem insertCapabilities_writes (rows : List CapabilityRow) :
    (insertCapabilities rows : ArchiveTx ε Unit).Respects (AccountWrites lib) := by
  induction rows with
  | nil => exact .pure _
  | cons row rest ih =>
    exact .bind (.insertInto fun _ t => ⟨⟨_, t, _, _, _, _, _, rfl⟩, .of_eq rfl⟩) fun _ => ih

theorem insertPermissions_writes {generationId : Uuid} {observation : AccountObservation}
    (names : List String) :
    (insertPermissions accountId generationId observation names : ArchiveTx ε Unit).Respects
      (AccountWrites lib) := by
  induction names with
  | nil => exact .pure _
  | cons name rest ih =>
    refine .bind .nowV7 fun _ => .bind (.insertInto fun _ t => ?_) fun _ => ih
    exact ⟨⟨_, _, t, _, _, _, _, rfl⟩, .of_eq rfl⟩

theorem audit_writes (changeKind : CredentialChange) (outcome : CredentialOutcome) :
    (audit accountId changeKind outcome now : ArchiveTx ε Unit).Respects (AccountWrites lib) :=
  .bind .nowV7 fun _ => .insertInto fun _ t => ⟨⟨_, _, _, _, t, _, _, rfl⟩, .of_eq rfl⟩

/-- A statement that rewrites accounts, capabilities, permissions, credentials or
authorizations. -/
theorem executes_writes {f : Db → Db}
    (h : ∀ db, ∃ accounts capabilities permissions credentials flows, f db = { db with
      accounts := accounts
      accountCapabilities := capabilities
      permissionObservations := permissions
      credentials := credentials
      oauthFlows := flows }) : (execute f : ArchiveTx ε Unit).Respects (AccountWrites lib) := by
  refine .execute fun db => ?_
  obtain ⟨accounts, capabilities, permissions, credentials, flows, hf⟩ := h db
  rw [hf]
  exact ⟨⟨_, _, _, _, _, _, _, rfl⟩, .of_eq rfl⟩

theorem reconcile_writes (observation : AccountObservation) :
    (reconcileAccountCapabilitiesInTransaction accountId observation).Respects
      (AccountWrites lib) := by
  refine .bind .nowV7 fun generationId => ?_
  refine .bind (executes_writes fun _ => ⟨_, _, _, _, _, rfl⟩) fun _ => ?_
  refine .bind (executes_writes fun _ => ⟨_, _, _, _, _, rfl⟩) fun _ => ?_
  refine .bind (insertPermissions_writes _) fun _ => .bind (insertCapabilities_writes _) fun _ => ?_
  refine .bind .now fun _ => ?_
  exact .bind (executes_writes fun _ => ⟨_, _, _, _, _, rfl⟩) fun _ => .pure _

theorem upsertAccount_writes (row : Account) : (upsertAccount row).Respects (AccountWrites lib) := by
  refine .bind (.query _) fun stored => ?_
  cases stored with
  | none =>
    refine .bind (.insertInto fun _ t => ?_) fun _ => .pure _
    exact ⟨⟨t, _, _, _, _, _, _, rfl⟩, .of_eq rfl⟩
  | some stored =>
    dsimp only
    split
    · exact .throw
    · exact .bind (executes_writes fun _ => ⟨_, _, _, _, _, rfl⟩) fun _ => .pure _

theorem closeAccount_writes (status : ConnectionStatus) :
    (closeAccount accountId userRef status now).Respects (AccountWrites lib) := by
  intro env db updated db' h
  obtain ⟨-, rfl⟩ := closeAccount_yields h
  exact ⟨⟨_, _, _, _, _, _, _, rfl⟩, .of_eq rfl⟩

theorem connectOfficialAccount_writes (keys : CredentialKeyring) (candidate : Uuid)
    (account : ProviderAccount) (permissions : PermissionStatuses) (token : ProviderToken) :
    (connectOfficialAccount lib keys userRef candidate account permissions token now).Respects
      (AccountWrites lib) := by
  refine .bind (insertApiResponse_writes _ _) fun _ => ?_
  refine .bind (insertApiResponse_writes _ _) fun rawRecordId => ?_
  refine .bind (upsertAccount_writes _) fun accountId => ?_
  split
  · exact .throw
  split
  · exact .throw
  refine .bind (executes_writes fun _ => ⟨_, _, _, _, _, rfl⟩) fun _ => ?_
  refine .bind .nowV7 fun credentialId => .bind (.insertInto fun _ t => ?_) fun _ => ?_
  · exact ⟨⟨_, _, _, t, _, _, _, rfl⟩, .of_eq rfl⟩
  refine .bind (audit_writes _ _) fun _ => .bind (.mapError (reconcile_writes _)) fun _ => ?_
  exact .bind (.query _) fun _ => .pure _

theorem refreshOfficialAccount_writes (account : ProviderAccount) (permissions : PermissionStatuses)
    (envelope : List UInt8) (keyVersion : Nat) (expiresAt : Option Instant) :
    (refreshOfficialAccount lib accountId userRef account permissions envelope keyVersion expiresAt
      now).Respects (AccountWrites lib) := by
  refine .bind (.query _) fun status => ?_
  split
  · exact .throw
  refine .bind (insertApiResponse_writes _ _) fun rawRecordId => ?_
  refine .bind (executes_writes fun _ => ⟨_, _, _, _, _, rfl⟩) fun _ => ?_
  refine .bind (executes_writes fun _ => ⟨_, _, _, _, _, rfl⟩) fun _ => ?_
  refine .bind (audit_writes _ _) fun _ => .bind (.mapError (reconcile_writes _)) fun _ => ?_
  exact .bind (.query _) fun _ => .pure _

theorem markReauthorizationRequired_writes :
    (markReauthorizationRequired accountId userRef now).Respects (AccountWrites lib) := by
  refine .bind (executes_writes fun _ => ⟨_, _, _, _, _, rfl⟩) fun _ => ?_
  refine .bind (executes_writes fun _ => ⟨_, _, _, _, _, rfl⟩) fun _ => ?_
  refine .bind .nowV7 fun generationId => .bind (insertCapabilities_writes _) fun _ => ?_
  refine .bind (closeAccount_writes _) fun updated => ?_
  split
  · exact .throw
  · exact .bind (audit_writes _ _) fun _ => .query _

theorem scrubRevokedAccount_writes (outcome : ProviderRevokeOutcome) :
    (scrubRevokedAccount accountId userRef outcome now).Respects (AccountWrites lib) := by
  refine .bind (.query _) fun account => ?_
  cases account with
  | none => exact .throw
  | some account =>
    dsimp only
    split
    · exact .throw
    split
    · exact .pure _
    refine .bind (executes_writes fun _ => ⟨_, _, _, _, _, rfl⟩) fun _ => ?_
    refine .bind (executes_writes fun _ => ⟨_, _, _, _, _, rfl⟩) fun _ => ?_
    refine .bind (executes_writes fun _ => ⟨_, _, _, _, _, rfl⟩) fun _ => ?_
    refine .bind .nowV7 fun generationId => .bind (insertCapabilities_writes _) fun _ => ?_
    exact .bind (closeAccount_writes _) fun _ => .bind (audit_writes _ _) fun _ => .query _

end Accounts

/-! ## The capture lane -/

/-- What the capture lane writes unless it deletes: its own tables, the outbox, the media
projection, and payloads as evidence. -/
structure CaptureWrites (lib : Externals) (db db' : Db) : Prop where
  tables : ∃ captures operations links observations inbox deletions removals raws media revisions
      outbox, db' = { db with
    captures := captures
    captureOperations := operations
    captureAnalysisLinks := links
    availabilityObservations := observations
    inboxEvents := inbox
    deletionOperations := deletions
    localSourceRemovals := removals
    rawRecords := raws
    media := media
    mediaRevisions := revisions
    outboxEvents := outbox }
  responses : AppendsRaws (IsResponse lib) db db'

section Captures

variable {lib : Externals} {env : Env} {db db' db'' : Db}

theorem CaptureWrites.trans (h : CaptureWrites lib db db') (h' : CaptureWrites lib db' db'') :
    CaptureWrites lib db db'' := by
  obtain ⟨⟨c, o, l, b, i, d, r, w, m, v, e, rfl⟩, hresponses⟩ := h
  obtain ⟨⟨c', o', l', b', i', d', r', w', m', v', e', rfl⟩, hresponses'⟩ := h'
  exact ⟨⟨c', o', l', b', i', d', r', w', m', v', e', rfl⟩, hresponses.trans hresponses'⟩

/-- A write that appends no evidence. -/
theorem CaptureWrites.of_tables {captures : Table Capture Capture.captureId}
    {operations : Table CaptureOperation CaptureOperation.operationId}
    {links : Table CaptureAnalysisLink CaptureAnalysisLink.key}
    {observations : Table AvailabilityObservation AvailabilityObservation.observationId}
    {inbox : Table InboxEvent InboxEvent.key}
    {deletions : Table DeletionOperation DeletionOperation.operationId}
    {removals : Table LocalSourceRemoval LocalSourceRemoval.key}
    {media : Table Media Media.mediaId}
    {outbox : Table OutboxEvent OutboxEvent.eventId}
    (h : db' = { db with
      captures := captures
      captureOperations := operations
      captureAnalysisLinks := links
      availabilityObservations := observations
      inboxEvents := inbox
      deletionOperations := deletions
      localSourceRemovals := removals
      media := media
      outboxEvents := outbox }) : CaptureWrites lib db db' := by
  subst h
  exact ⟨⟨_, _, _, _, _, _, _, _, _, _, _, rfl⟩, .of_eq rfl⟩

theorem CaptureWrites.refl (db : Db) : CaptureWrites lib db db := .of_tables rfl

theorem Appends.captureWrites {row : OutboxEvent} (h : Appends db row db') :
    CaptureWrites lib db db' := .of_tables h.eq

theorem Publishes.captureWrites {kind : FactKind} {captureId : Uuid}
    (h : Publishes lib kind captureId db db') : CaptureWrites lib db db' := by
  obtain ⟨_, _, _, -, happ⟩ := h
  exact happ.captureWrites

theorem recordFailedResolution_captureWrites {captureId : Uuid}
    {observed : AvailabilityObservationKind} {resolvedAt : Instant} {out : ResolutionOutcome}
    (h : (recordFailedResolution lib captureId observed resolvedAt).Yields env db out db') :
    CaptureWrites lib db db' := by
  obtain ⟨observations, mid, rfl, ⟨mediaId, -, -, hfact⟩ | ⟨-, rfl⟩⟩ :=
    recordFailedResolution_yields h
  · exact CaptureWrites.trans (.of_tables rfl) hfact.captureWrites
  · exact .of_tables rfl

theorem storeResolution_captureWrites {captureId : Uuid} {permalink : CanonicalPermalink}
    {normalized : NormalizedMedia} {body : String} {resolvedAt : Instant}
    {stored : StoredResolution}
    (h : (storeResolution lib captureId permalink normalized body resolvedAt).Yields env db
      stored db') : CaptureWrites lib db db' := by
  obtain ⟨mid, ⟨raws, upserted, revisions, observations, hraws, hup, -, rfl⟩, hfact⟩ :=
    storeResolution_yields h
  have hmid : CaptureWrites lib db (concludeResolved captureId stored.mediaId
      { setCurrentRevision stored.mediaId stored.revisionId
          { upserted with mediaRevisions := revisions } with
        availabilityObservations := observations }) := by
    rw [hup.frame]
    refine ⟨⟨_, _, _, _, _, _, _, _, _, _, _, rfl⟩,
      [rawResponse lib body resolvedAt stored.rawRecordId], (Table.insert?_eq_some hraws).1,
      fun r hr => ?_⟩
    exact ⟨body, resolvedAt, stored.rawRecordId, List.mem_singleton.mp hr⟩
  split at hfact
  · exact hmid.trans hfact.captureWrites
  · rw [hfact]
    exact hmid

theorem reportPending_captureWrites {captureId : Uuid} {now : Instant} {n : Nat}
    (h : (reportPending lib captureId now).Yields env db n db') : CaptureWrites lib db db' := by
  obtain ⟨c, -, ⟨-, rfl⟩ | ⟨conclusion, -, hr⟩⟩ := reportPending_yields h
  · exact .refl _
  · exact .of_tables hr.1

theorem submitCaptureInTransaction_captureWrites {request : CaptureRequest}
    {submission : CaptureSubmission}
    (h : (submitCaptureInTransaction request).Yields env db submission db') :
    CaptureWrites lib db db' := by
  obtain ⟨_, _, -, -, ⟨_, _, -, -, rfl, -⟩ | ⟨_, -, rfl, -⟩⟩ := submitCaptureInTransaction_yields h
  · exact .of_tables rfl
  · exact .refl _

theorem ingestBrowserCaptureCommand_captureWrites {delivery : CommandDelivery}
    {out : BrowserCaptureIngested}
    (h : (ingestBrowserCaptureCommand lib delivery).Yields env db out db') :
    CaptureWrites lib db db' := by
  obtain ⟨command, -, ⟨-, rfl, -⟩ | ⟨-, t, -, hh⟩⟩ := ingestBrowserCaptureCommand_yields h
  · exact .refl _
  have hinbox : CaptureWrites lib db { db with inboxEvents := t } := .of_tables rfl
  have houtcome : ∀ m outcome, CaptureWrites lib m
      (setInboxOutcome .browserCapture command.commandId outcome m) := fun m outcome =>
    .of_tables rfl
  rcases handleCommand_yields hh with ⟨e, -, hr⟩ | ⟨submission, m, m', -, hs, hrec, rfl⟩
  · obtain ⟨-, eventId, occurredAt, m, happ, rfl⟩ := rejectCommand_yields hr
    exact (hinbox.trans happ.captureWrites).trans (houtcome m _)
  · refine (hinbox.trans (submitCaptureInTransaction_captureWrites hs)).trans ?_
    refine CaptureWrites.trans ?_ (houtcome m' _)
    rcases recordOperation_yields hrec with ⟨-, rfl⟩ | ⟨-, ops, eventId, occurredAt, -, happ⟩
    · exact .of_tables rfl
    · exact CaptureWrites.trans (.of_tables rfl) happ.captureWrites

/-- **What a call writes**, unless it deletes. -/
theorem Effect.captureWrites {call : Call} (h : Effect lib env db call db')
    (hdelete : ∀ request, call ≠ .delete request) : CaptureWrites lib db db' := by
  cases h with
  | idle => exact .refl _
  | submit h => exact submitCaptureInTransaction_captureWrites h
  | command h => exact ingestBrowserCaptureCommand_captureWrites h
  | analysis h =>
    obtain ⟨completion, -, ⟨-, rfl, -⟩ | ⟨-, t, -, hh⟩⟩ := ingestAnalysisCompleted_yields h
    · exact .refl _
    · obtain ⟨-, outcome, links, rfl⟩ := handleCompletion_yields hh
      exact .of_tables rfl
  | claim h =>
    exact claimEach_invariant (CaptureWrites lib db) (fun _ _ _ hm => hm.trans (.of_tables rfl))
      (fun _ _ _ _ hr hm => hm.trans (reportPending_captureWrites hr)) h (.refl db)
  | reschedule => exact .of_tables rfl
  | store hcall hn h => exact storeResolution_captureWrites h
  | fail hcall ho h => exact recordFailedResolution_captureWrites h
  | unmapped h => exact recordFailedResolution_captureWrites h
  | report h => exact reportPending_captureWrites h
  | unavailable h =>
    obtain ⟨m, t, rfl, rfl⟩ := writeUnavailable_yields h
    split
    · exact .of_tables rfl
    · exact .of_tables rfl
  | tombstone h =>
    obtain ⟨c, -, ⟨-, rfl, -⟩ | ⟨-, permalink, eventId, deletions, removals, m, -, -, happ, rfl⟩⟩ :=
      tombstoneCapture_yields h
    · exact .refl _
    · have hm : CaptureWrites lib db m :=
        CaptureWrites.trans (.of_tables rfl) happ.captureWrites
      exact hm.trans (.of_tables rfl)
  | mediaFact h => exact h.captureWrites
  | book h => exact .of_tables rfl
  | acknowledge => exact .of_tables rfl
  | delete h => exact (hdelete _ rfl).elim

end Captures

/-! ## All lanes -/

/-- What the transactions of the other lanes have in common: the tables of the capture lane, of
the deletions and of the staging stay, and evidence is appended as responses only. -/
structure LaneWrites (lib : Externals) (db db' : Db) : Prop where
  captures : db'.captures = db.captures
  operations : db'.captureOperations = db.captureOperations
  links : db'.captureAnalysisLinks = db.captureAnalysisLinks
  observations : db'.availabilityObservations = db.availabilityObservations
  inbox : db'.inboxEvents = db.inboxEvents
  deletions : db'.deletionOperations = db.deletionOperations
  effects : db'.deletionEffects = db.deletionEffects
  removals : db'.localSourceRemovals = db.localSourceRemovals
  tasks : db'.blobDeletionTasks = db.blobDeletionTasks
  notes : db'.captureNotes = db.captureNotes
  relations : db'.mediaRelations = db.mediaRelations
  reresolutions : db'.reresolutionItems = db.reresolutionItems
  profiles : db'.profiles = db.profiles
  records : db'.exportRecords = db.exportRecords
  reports : db'.exportReports = db.exportReports
  pages : AppendsPages lib db db'

/-- The transaction is a reconciliation of the run, or hands its error on. -/
inductive Reconciling (lib : Externals) (runId : Uuid) : {ε α : Type} → Tx Db ε α → Prop
  | reconcile : Reconciling lib runId (DataExport.reconcile lib runId)
  | mapError {ε ε' α : Type} {x : Tx Db ε α} (g : ε → ε') (h : Reconciling lib runId x) :
      Reconciling lib runId (mapError g x)
  | attempt {ε ε' α : Type} {x : Tx Db ε α} (h : Reconciling lib runId x) :
      Reconciling lib runId (attempt x : Tx Db ε' (Except ε α))

/-- Only the tasks of stored objects and the operations that wait for them change. -/
def TaskWrites (db db' : Db) : Prop :=
  ∃ tasks operations, db' = { db with blobDeletionTasks := tasks, deletionOperations := operations }

/-- What a transaction of the other lanes commits. -/
inductive ServiceEffect (lib : Externals) (env : Env) (db : Db) {ε α : Type} (x : Tx Db ε α) :
    Db → Prop
  | lane {db' : Db} (h : LaneWrites lib db db') : ServiceEffect lib env db x db'
  | parsed {runId : Uuid} {parsed : DataExport.ParsedExport}
      {found : Except DataExport.ArchiveFailureClass DataExport.ArchiveFile} {db' : Db}
      (hparse : DataExport.parseFile lib found = .ok parsed)
      (h : (DataExport.persistParsed lib runId parsed).Yields env db () db') :
      ServiceEffect lib env db x db'
  | reconciled {runId : Uuid} {report : DataExport.CompletenessReport} {db' : Db}
      (hx : Reconciling lib runId x)
      (h : (DataExport.reconcile lib runId).Yields env db report db') :
      ServiceEffect lib env db x db'
  | tasks {db' : Db} (h : TaskWrites db db') : ServiceEffect lib env db x db'
  | deleted {request : DeletionRequest} {result : DeletionResult} {db' : Db}
      (h : (applyNewDeletion lib request).Yields env db result db') :
      ServiceEffect lib env db x db'

section Lanes

variable {lib : Externals} {env : Env} {db db' : Db}

instance : IsPreorder Db (LaneWrites lib) where
  refl _ := by
    constructor
    case pages => exact .of_eq rfl
    all_goals rfl
  trans _ _ _ h h' := by
    constructor
    case pages => exact h.pages.trans h'.pages
    case captures => exact h'.captures.trans h.captures
    case operations => exact h'.operations.trans h.operations
    case links => exact h'.links.trans h.links
    case observations => exact h'.observations.trans h.observations
    case inbox => exact h'.inbox.trans h.inbox
    case deletions => exact h'.deletions.trans h.deletions
    case effects => exact h'.effects.trans h.effects
    case removals => exact h'.removals.trans h.removals
    case tasks => exact h'.tasks.trans h.tasks
    case notes => exact h'.notes.trans h.notes
    case relations => exact h'.relations.trans h.relations
    case reresolutions => exact h'.reresolutions.trans h.reresolutions
    case profiles => exact h'.profiles.trans h.profiles
    case records => exact h'.records.trans h.records
    case reports => exact h'.reports.trans h.reports

theorem LaneWrites.refl (db : Db) : LaneWrites lib db db := Std.Refl.refl db

theorem AccountWrites.lane (h : AccountWrites lib db db') : LaneWrites lib db db' := by
  obtain ⟨⟨accounts, capabilities, permissions, credentials, audits, flows, raws, rfl⟩, hpages⟩ := h
  constructor
  case pages => exact hpages
  all_goals rfl

theorem OnlyUsage.lane (h : OnlyUsage db db') : LaneWrites lib db db' := by
  obtain ⟨usage, rfl⟩ := h
  constructor
  case pages => exact .of_eq rfl
  all_goals rfl

theorem OnlyMedia.lane (h : OnlyMedia db db') : LaneWrites lib db db' := by
  obtain ⟨media, revisions, rfl⟩ := h
  constructor
  case pages => exact .of_eq rfl
  all_goals rfl

theorem OnlyOutbox.lane (h : OnlyOutbox db db') : LaneWrites lib db db' := by
  obtain ⟨outbox, rfl⟩ := h
  constructor
  case pages => exact .of_eq rfl
  all_goals rfl

/-- The synchronization tables and the runs of imports. -/
theorem lane_of_runs {runs : Table SyncRun SyncRun.runId}
    {states : Table SyncState SyncState.accountId} {items : Table SyncItem SyncItem.key}
    {authorities : Table SyncAuthority SyncAuthority.accountId}
    {snapshots : Table ExportSnapshot ExportSnapshot.snapshotId}
    {imports : Table ImportRun ImportRun.runId}
    {transitions : Table ImportRunTransition ImportRunTransition.transitionId}
    (h : db' = { db with
      syncRuns := runs
      syncStates := states
      syncItems := items
      syncAuthorities := authorities
      exportSnapshots := snapshots
      importRuns := imports
      importRunTransitions := transitions }) : LaneWrites lib db db' := by
  subst h
  constructor
  case pages => exact .of_eq rfl
  all_goals rfl

theorem persistPage_lane {runId : Uuid} {providerAccountId : String} {page : ProviderOwnMediaPage}
    {candidate : Option String} {now : Instant} :
    (persistPage lib runId providerAccountId page candidate now).Respects (LaneWrites lib) := by
  intro env db u db' h
  obtain ⟨rawRecordId, raws, hraws, -, rfl⟩ := persistPage_yields h
  constructor
  case pages =>
    exact ⟨_, hraws, fun r hr => ⟨page.rawBody, now, rawRecordId, List.mem_singleton.mp hr⟩⟩
  all_goals rfl

theorem finalizeRun_lane {config : OwnMediaSyncConfig} {ctx : SyncContext} {runId : Uuid}
    {candidate : Option String} {now : Instant} :
    (finalizeRun lib config ctx runId candidate now).Respects (LaneWrites lib) := by
  intro env db completed db' h
  rcases finalizeRun_yields h with ⟨-, -, rfl⟩ | ⟨-, -, applied, published, n, h1, h2, rfl⟩
  · exact lane_of_runs rfl
  · have happly := applyStagedItems_onlyMedia _ _ _ _ _ _ _ h1
    have hpublish := appendOwnMediaFacts_onlyOutbox _ _ _ _ _ _ _ _ h2
    have hrest : LaneWrites lib published (activated config ctx runId candidate now published) :=
      lane_of_runs rfl
    exact IsTrans.trans _ _ _ (IsTrans.trans _ _ _ happly.lane hpublish.lane) hrest

theorem persistReceipt_lane (owner : Uuid) (stored : DataExport.StoredArchive) :
    (DataExport.persistReceipt owner stored).Respects (LaneWrites lib) := by
  have hinsert : ∀ db : Db, ∀ snapshots runs transitions, LaneWrites lib db { db with
      exportSnapshots := snapshots
      importRuns := runs
      importRunTransitions := transitions } := fun db _ _ _ => lane_of_runs rfl
  refine .bind .nowUtc fun receivedAt => .bind .nowV7 fun snapshotId => ?_
  refine .bind (.insertUnless fun db t => hinsert db t _ _) fun created => ?_
  split
  · refine .bind .nowV7 fun runId => .bind (.insertInto fun db t => hinsert db _ t _) fun _ => ?_
    refine .bind .nowV7 fun _ => .bind (.insertInto fun db t => hinsert db _ _ t) fun _ => ?_
    exact .bind (.query _) fun _ => .pure _
  · refine .bind (.fetchOne _ _) ?_
    rintro ⟨runId, state, existing⟩
    dsimp only
    split
    · exact .throw
    · exact .bind (.query _) fun _ => .pure _

theorem OnlyRuns.lane (h : DataExport.OnlyRuns db db') : LaneWrites lib db db' := by
  obtain ⟨runs, transitions, rfl⟩ := h
  exact lane_of_runs rfl

theorem beginOfficialOauth_lane (userRef : Uuid) (stateHash redirectUriHash : List UInt8)
    (ttlSeconds : Nat) (now : Instant) :
    (beginOfficialOauth userRef stateHash redirectUriHash ttlSeconds now).Respects
      (LaneWrites lib) := by
  intro env db flowId db' h
  obtain ⟨row, flows, -, -, rfl⟩ := beginOfficialOauth_yields h
  constructor
  case pages => exact .of_eq rfl
  all_goals rfl

theorem claimOauthFlow_lane (userRef : Uuid) (stateHash redirectUriHash : List UInt8)
    (now : Instant) :
    (claimOauthFlow userRef stateHash redirectUriHash now).Respects (LaneWrites lib) := by
  intro env db u db' h
  obtain ⟨-, rfl⟩ := claimOauthFlow_yields h
  constructor
  case pages => exact .of_eq rfl
  all_goals rfl

/-- What a worker books of a stored object. -/
inductive TaskStep (env : Env) (db : Db) : Db → Prop
  | kept (operationId : Uuid) : TaskStep env db (pendBlobDeletion operationId env.now db)
  | completed (taskId : Uuid) : TaskStep env db (completeTask taskId db)
  | finished (operationId : Uuid) : TaskStep env db (completeOperation operationId env.now db)

theorem TaskStep.writes (h : TaskStep env db db') : TaskWrites db db' := by
  cases h with
  | _ => exact ⟨_, _, rfl⟩

/-- The cases of `ServiceEffect`, with the booking of a worker said in full. -/
inductive ServiceCommit (lib : Externals) (env : Env) (db : Db) {ε α : Type} (x : Tx Db ε α) :
    Db → Prop
  | lane {db' : Db} (h : LaneWrites lib db db') : ServiceCommit lib env db x db'
  | parsed {runId : Uuid} {parsed : DataExport.ParsedExport}
      {found : Except DataExport.ArchiveFailureClass DataExport.ArchiveFile} {db' : Db}
      (hparse : DataExport.parseFile lib found = .ok parsed)
      (h : (DataExport.persistParsed lib runId parsed).Yields env db () db') :
      ServiceCommit lib env db x db'
  | reconciled {runId : Uuid} {report : DataExport.CompletenessReport} {db' : Db}
      (hx : Reconciling lib runId x)
      (h : (DataExport.reconcile lib runId).Yields env db report db') :
      ServiceCommit lib env db x db'
  | task {db' : Db} (h : TaskStep env db db') : ServiceCommit lib env db x db'
  | deleted {request : DeletionRequest} {result : DeletionResult} {db' : Db}
      (h : (applyNewDeletion lib request).Yields env db result db') :
      ServiceCommit lib env db x db'

/-- **What the transactions of the other lanes commit.** -/
theorem ServiceTx.commits {ε α : Type} {x : Tx Db ε α} (hx : ServiceTx lib x) {v : α}
    (h : x.Yields env db v db') : ServiceCommit lib env db x db' := by
  induction hx with
  | query f =>
    obtain ⟨-, rfl⟩ := h.query
    exact .lane (.refl db)
  | fetchOne e f =>
    obtain ⟨-, rfl⟩ := h.fetchOne
    exact .lane (.refl db)
  | nowV7 =>
    obtain rfl := h.nowV7
    exact .lane (.refl db)
  | mapError g hx ih =>
    cases ih h.mapError with
    | lane h => exact .lane h
    | parsed hparse h => exact .parsed hparse h
    | reconciled hx h => exact .reconciled (.mapError g hx) h
    | task h => exact .task h
    | deleted h => exact .deleted h
  | attempt hx ih =>
    rcases h.attempt with ⟨a, -, h⟩ | ⟨e, -, rfl, -⟩
    · cases ih h with
      | lane h => exact .lane h
      | parsed hparse h => exact .parsed hparse h
      | reconciled hx h => exact .reconciled (.attempt hx) h
      | task h => exact .task h
      | deleted h => exact .deleted h
    · exact .lane (.refl db)
  | reserve budget requestClass now =>
    exact .lane (OnlyUsage.lane (budget.reserve_onlyUsage requestClass now _ _ _ _ h))
  | complete budget reservation outcome httpStatus now =>
    exact .lane (OnlyUsage.lane (budget.complete_onlyUsage reservation outcome httpStatus now _ _ _ _ h))
  | resumeBudget operationId accountId limit =>
    obtain ⟨rfl, rfl⟩ := ProviderBudget.resume_yields h
    exact .lane (.refl _)
  | beginOauth userRef stateHash redirectUriHash ttlSeconds now =>
    exact .lane (beginOfficialOauth_lane _ _ _ _ _ _ _ _ _ h)
  | claimOauth userRef stateHash redirectUriHash now =>
    exact .lane (claimOauthFlow_lane _ _ _ _ _ _ _ _ h)
  | connect keys userRef candidate account permissions token now =>
    exact .lane (connectOfficialAccount_writes _ _ _ _ _ _ _ _ _ h).lane
  | refresh accountId userRef account permissions envelope keyVersion expiresAt now =>
    exact .lane (refreshOfficialAccount_writes _ _ _ _ _ _ _ _ _ h).lane
  | reauthorize accountId userRef now =>
    exact .lane (markReauthorizationRequired_writes _ _ _ _ h).lane
  | scrub accountId userRef outcome now =>
    exact .lane (scrubRevokedAccount_writes _ _ _ _ _ h).lane
  | noop config accountId read now =>
    obtain ⟨row, due, t, -, -, -, -, -, rfl⟩ := recordNoop_yields h
    exact .lane (lane_of_runs rfl)
  | openRun accountId userRef generationId watermark now =>
    obtain ⟨runs, items, -, -, -, -, rfl⟩ := openRun_yields h
    exact .lane (lane_of_runs rfl)
  | resumeRun runId now =>
    rw [h.execute]
    exact .lane (lane_of_runs rfl)
  | suspendRun runId reason now =>
    rw [h.execute]
    exact .lane (lane_of_runs rfl)
  | providerFailure runId error now =>
    rw [h.execute]
    unfold markProviderFailure
    split
    · exact .lane (lane_of_runs rfl)
    · exact .lane (lane_of_runs rfl)
  | page runId providerAccountId page candidate now => exact .lane (persistPage_lane _ _ _ _ h)
  | finalize config ctx runId candidate now => exact .lane (finalizeRun_lane _ _ _ _ h)
  | receipt owner digest byteSize => exact .lane (persistReceipt_lane _ _ _ _ _ _ h)
  | inspected runId failure => exact .lane (OnlyRuns.lane (DataExport.finishInspection_yields h).2)
  | parsed runId parsed found hparse => exact .parsed hparse h
  | unparsed runId failureClass => exact .lane (OnlyRuns.lane (DataExport.failParse_yields h).2)
  | reconcile runId => exact .reconciled .reconcile h
  | keepTask operationId =>
    obtain ⟨now, _, h1, h⟩ := h.bind
    obtain ⟨rfl, rfl⟩ := h1.now
    rw [h.execute]
    exact .task (.kept operationId)
  | completeTask taskId =>
    rw [h.execute]
    exact .task (.completed taskId)
  | completeOperation operationId =>
    obtain ⟨now, _, h1, h⟩ := h.bind
    obtain ⟨rfl, rfl⟩ := h1.now
    rw [h.execute]
    exact .task (.finished operationId)
  | delete request => exact .deleted h

theorem ServiceTx.effect {ε α : Type} {x : Tx Db ε α} (hx : ServiceTx lib x) {v : α}
    (h : x.Yields env db v db') : ServiceEffect lib env db x db' := by
  cases hx.commits h with
  | lane h => exact .lane h
  | parsed hparse h => exact .parsed hparse h
  | reconciled hx h => exact .reconciled hx h
  | task h => exact .tasks h.writes
  | deleted h => exact .deleted h

/-! ### The staging -/

/-- A row that the staging of an archive or a conflict of a reconciliation adds. -/
inductive IsStaged (lib : Externals) (x : ExportRecord) : Prop
  | parsed {runId : Uuid} {processedAt : Instant} {parsed : DataExport.ParsedExport}
      {found : Except DataExport.ArchiveFailureClass DataExport.ArchiveFile}
      (hparse : DataExport.parseFile lib found = .ok parsed)
      (h : DataExport.StagedAs lib runId processedAt parsed x) : IsStaged lib x
  | conflict (h : x.recordKind = .conflict) : IsStaged lib x

/-- Rows were appended to the staging. -/
def AppendsRecords (lib : Externals) (db db' : Db) : Prop :=
  ∃ rows, db'.exportRecords.rows = db.exportRecords.rows ++ rows ∧ ∀ x ∈ rows, IsStaged lib x

theorem AppendsRecords.of_eq (h : db'.exportRecords = db.exportRecords) :
    AppendsRecords lib db db' := ⟨[], by simp [h], by simp⟩

theorem Erasure.records {request : DeletionRequest} (h : Erasure lib request db db') :
    db'.exportRecords = db.exportRecords := by
  cases h with
  | removal h => rw [h.eq]
  | _ => rfl

theorem Deletes.records {request : DeletionRequest} (h : Deletes lib env request db db') :
    db'.exportRecords = db.exportRecords := by
  have hpreorder : IsPreorder Db fun a b => b.exportRecords = a.exportRecords :=
    { refl := fun _ => rfl, trans := fun _ _ _ h h' => h'.trans h }
  exact h.rel (fun _ _ _ => rfl) fun _ _ herasure => herasure.records

theorem Effect.records {call : Call} (h : Effect lib env db call db') :
    db'.exportRecords = db.exportRecords := by
  by_cases hdelete : ∃ request, call = .delete request
  · obtain ⟨request, rfl⟩ := hdelete
    cases h with
    | idle => rfl
    | store hcall _ _ => exact hcall.elim
    | fail hcall _ _ => exact hcall.elim
    | delete h =>
      rcases applyDeletion_yields h with ⟨-, rfl⟩ | ⟨-, -, -, hdeletes⟩
      · rfl
      · exact Deletes.records hdeletes
  · obtain ⟨⟨_, _, _, _, _, _, _, _, _, _, _, rfl⟩, -⟩ :=
      h.captureWrites fun request hcall => hdelete ⟨request, hcall⟩
    rfl

theorem ServiceEffect.records {ε α : Type} {x : Tx Db ε α} (h : ServiceEffect lib env db x db') :
    AppendsRecords lib db db' := by
  cases h with
  | lane h => exact .of_eq h.records
  | parsed hparse h =>
    obtain ⟨processedAt, -, staged, records, _, _, rfl, hrows, -, hstaged, -⟩ :=
      DataExport.persistParsed_yields h
    exact ⟨staged, hrows, fun x hx => .parsed hparse (hstaged x hx)⟩
  | reconciled _ h =>
    rcases DataExport.reconcile_yields h with ⟨rfl, -⟩ | ⟨ctx, m, -, hreconciles, -, _, _, _, _, -,
      -, rfl⟩
    · exact .of_eq rfl
    · obtain ⟨conflicts, hrows, hconflicts⟩ := hreconciles.records
      exact ⟨conflicts, hrows, fun x hx => .conflict (hconflicts x hx).2.1⟩
  | tasks h =>
    obtain ⟨_, _, rfl⟩ := h
    exact .of_eq rfl
  | deleted h => exact .of_eq (applyNewDeletion_yields h).2.2.records

end Lanes

end InstagramArchive

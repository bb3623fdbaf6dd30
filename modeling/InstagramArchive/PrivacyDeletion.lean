import InstagramArchive.Capture
import InstagramArchive.DeletionInventory
import InstagramArchive.Relational.Integrity
import Mathlib.Data.List.Sort

/-!
# Owner-authorized privacy deletion

`DeletionStore.apply` erases one capture or one account connection in one transaction:
it stores the audit of the request, appends the removal of every source it ends, drops the
other outbox rows of that aggregate, and erases media rows that no other holding relies on.
Removals that are not acknowledged yet stay in the outbox. Every delete is checked against
the foreign keys of the schema.
-/

namespace InstagramArchive

open Relational Relational.Tx

inductive PrivacyDeletionError where
  | targetNotFound
  | operationConflict
  | publication (error : PublishError)
  | persistence (error : SqlError)
  deriving DecidableEq, Repr

instance : OfSql PrivacyDeletionError := ⟨.persistence⟩

abbrev DeletionTx := ArchiveTx PrivacyDeletionError

/-! ## Foreign keys -/

def captureReferences : List (Reference Db Capture) :=
  [⟨"capture_operations_capture_id_fkey", fun db c =>
      db.captureOperations.rows.any fun o => o.captureId = c.captureId⟩,
    ⟨"capture_analysis_links_capture_id_fkey", fun db c =>
      db.captureAnalysisLinks.rows.any fun l => l.captureId = c.captureId⟩,
    ⟨"capture_notes_capture_id_fkey", fun db c =>
      db.captureNotes.rows.any fun n => n.captureId = c.captureId⟩,
    ⟨"availability_observations_capture_id_fkey", fun db c =>
      db.availabilityObservations.rows.any fun o => o.captureId = some c.captureId⟩]

def revisionReferences : List (Reference Db MediaRevision) :=
  [⟨"media_current_revision_id_fkey", fun db v =>
      db.media.rows.any fun m => m.currentRevisionId = some v.revisionId⟩]

def mediaReferences : List (Reference Db Media) :=
  [⟨"media_relations_parent_media_id_fkey", fun db m =>
      db.mediaRelations.rows.any fun r => r.parentMediaId = m.mediaId⟩,
    ⟨"media_relations_child_media_id_fkey", fun db m =>
      db.mediaRelations.rows.any fun r => r.childMediaId = m.mediaId⟩,
    ⟨"media_revisions_media_id_fkey", fun db m =>
      db.mediaRevisions.rows.any fun v => v.mediaId = m.mediaId⟩,
    ⟨"captures_media_id_fkey", fun db m =>
      db.captures.rows.any fun c => c.mediaId = some m.mediaId⟩,
    ⟨"availability_observations_media_id_fkey", fun db m =>
      db.availabilityObservations.rows.any fun o => o.mediaId = some m.mediaId⟩]

def rawReferences : List (Reference Db RawRecord) :=
  [⟨"account_permission_observations_raw_record_id_fkey", fun db raw =>
      db.permissionObservations.rows.any fun o => o.rawRecordId = raw.rawRecordId⟩,
    ⟨"profiles_raw_record_id_fkey", fun db raw =>
      db.profiles.rows.any fun p => p.rawRecordId = some raw.rawRecordId⟩,
    ⟨"media_revisions_raw_record_id_fkey", fun db raw =>
      db.mediaRevisions.rows.any fun v => v.rawRecordId = raw.rawRecordId⟩,
    ⟨"own_media_sync_items_raw_record_id_fkey", fun db raw =>
      db.syncItems.rows.any fun i => i.rawRecordId = raw.rawRecordId⟩]

def runReferences : List (Reference Db SyncRun) :=
  [⟨"own_media_sync_state_last_run_id_fkey", fun db r =>
      db.syncStates.rows.any fun s => s.lastRunId = some r.runId⟩,
    ⟨"own_media_sync_items_run_id_fkey", fun db r =>
      db.syncItems.rows.any fun i => i.runId = r.runId⟩,
    ⟨"own_media_authority_run_id_fkey", fun db r =>
      db.syncAuthorities.rows.any fun a => a.runId = r.runId⟩]

def accountReferences : List (Reference Db Account) :=
  [⟨"credentials_account_id_fkey", fun db a =>
      db.credentials.rows.any fun c => c.accountId = a.accountId⟩,
    ⟨"oauth_flows_account_id_fkey", fun db a =>
      db.oauthFlows.rows.any fun f => f.accountId = some a.accountId⟩,
    ⟨"account_permission_observations_account_id_fkey", fun db a =>
      db.permissionObservations.rows.any fun o => o.accountId = a.accountId⟩,
    ⟨"account_capabilities_account_id_fkey", fun db a =>
      db.accountCapabilities.rows.any fun c => c.accountId = a.accountId⟩,
    ⟨"account_credential_audit_account_id_fkey", fun db a =>
      db.credentialAudits.rows.any fun c => c.accountId = a.accountId⟩,
    ⟨"provider_api_usage_account_id_fkey", fun db a =>
      db.providerUsage.rows.any fun u => u.accountId = some a.accountId⟩,
    ⟨"profiles_account_id_fkey", fun db a =>
      db.profiles.rows.any fun p => p.accountId = some a.accountId⟩,
    ⟨"media_account_id_fkey", fun db a =>
      db.media.rows.any fun m => m.accountId = some a.accountId⟩,
    ⟨"own_media_sync_runs_account_id_fkey", fun db a =>
      db.syncRuns.rows.any fun r => r.accountId = a.accountId⟩,
    ⟨"own_media_sync_state_account_id_fkey", fun db a =>
      db.syncStates.rows.any fun s => s.accountId = a.accountId⟩,
    ⟨"own_media_authority_account_id_fkey", fun db a =>
      db.syncAuthorities.rows.any fun s => s.accountId = a.accountId⟩]

/-! ## Blob tasks and media rows -/

/-- `on conflict (blob_ref, content_hash) do nothing`. -/
def scheduleBlobTask (operationId : Uuid) (blob : StoredBlob) (mediaClass : MediaClass) :
    DeletionTx Unit := do
  let taskId ← nowV7
  let _ ← insertUnless "blob_deletion_tasks_pkey" Db.blobDeletionTasks
    (fun db t => { db with blobDeletionTasks := t })
    (fun db => if (db.deletionOperations.lookup operationId).isNone then
      some (.foreignKeyViolation "blob_deletion_tasks_operation_id_fkey") else none)
    (fun db => db.blobDeletionTasks.rows.any fun t =>
      t.blob.blobRef = blob.blobRef && t.blob.contentHash = blob.contentHash)
    { taskId, operationId := some operationId, blob, mediaClass }

def RawRecord.blob (raw : RawRecord) : StoredBlob := ⟨raw.blobRef, raw.contentHash, raw.byteSize⟩

/-- The raw records the revisions of a media row were read from, by id. -/
def rawBlobs (mediaId : Uuid) (db : Db) : List RawRecord :=
  (db.rawRecords.rows.filter fun r =>
    db.mediaRevisions.rows.any fun v => v.mediaId = mediaId && v.rawRecordId = r.rawRecordId)
    |>.insertionSort fun a b => a.rawRecordId ≤ b.rawRecordId

/-- Whether a revision still names a raw record. -/
def rawRetained (rawRecordId : Uuid) (db : Db) : Bool :=
  db.mediaRevisions.rows.any fun v => v.rawRecordId = rawRecordId

def deleteRaw (rawRecordId : Uuid) : DeletionTx Unit :=
  deleteFrom Db.rawRecords (fun db t => { db with rawRecords := t }) rawReferences
    fun r => r.rawRecordId = rawRecordId

def eraseRaw (operationId : Uuid) : List RawRecord → DeletionTx Nat
  | [] => return 0
  | raw :: rest => do
    let retained ← query (rawRetained raw.rawRecordId)
    if retained then eraseRaw operationId rest
    else
      deleteRaw raw.rawRecordId
      scheduleBlobTask operationId raw.blob .rawResponse
      let pending ← eraseRaw operationId rest
      return pending + 1

/-- What hangs on a media row, except its revisions. -/
def clearMedia (mediaId : Uuid) (db : Db) : Db :=
  { db with
    mediaRelations := db.mediaRelations.delete fun r =>
      r.parentMediaId = mediaId || r.childMediaId = mediaId
    availabilityObservations :=
      db.availabilityObservations.delete fun o => o.mediaId = some mediaId }

/-- `own_media_authority` of the account a media row names. -/
def clearAuthority (mediaId : Uuid) (db : Db) : Db :=
  { db with
    syncAuthorities := db.syncAuthorities.delete fun a =>
      (db.media.lookup mediaId).bind Media.accountId = some a.accountId }

def clearCurrentRevision (mediaId : Uuid) (db : Db) : Db :=
  { db with
    media := db.media.update (fun m => m.mediaId = mediaId)
      fun m => { m with currentRevisionId := none } }

/-- The rows of a media source, in the order of their foreign keys. -/
def eraseMediaRows (mediaId : Uuid) : DeletionTx Unit := do
  execute (clearCurrentRevision mediaId)
  deleteFrom Db.mediaRevisions (fun db t => { db with mediaRevisions := t }) revisionReferences
    fun v => v.mediaId = mediaId
  deleteFrom Db.media (fun db t => { db with media := t }) mediaReferences
    fun m => m.mediaId = mediaId

/-- The rows of a media source go; its blobs are scheduled. -/
def eraseMedia (operationId mediaId : Uuid) (clear : Db → Db) : DeletionTx Nat := do
  let blob ← query fun db => (db.media.lookup mediaId).bind Media.blob
  let raws ← query (rawBlobs mediaId)
  execute clear
  eraseMediaRows mediaId
  match blob with
  | some blob =>
    scheduleBlobTask operationId blob .providerMedia
    let pending ← eraseRaw operationId raws
    return pending + 1
  | none => eraseRaw operationId raws

/-- The erasure at the end of a capture deletion. -/
def eraseCaptureMedia (operationId mediaId : Uuid) : DeletionTx Nat :=
  eraseMedia operationId mediaId (clearMedia mediaId)

/-- `erase_exclusive_connection_media`; it also drops the authority of the row's account. -/
def eraseExclusiveMedia (operationId mediaId : Uuid) : DeletionTx Nat :=
  eraseMedia operationId mediaId fun db => clearAuthority mediaId (clearMedia mediaId db)

/-! ## Targets -/

/-- The outbox rows of an aggregate go, except removals nobody acknowledged. -/
def dropAggregateEvents (aggregateType : AggregateType) (aggregateId : Uuid) (db : Db) : Db :=
  { db with
    outboxEvents := db.outboxEvents.delete fun e =>
      e.aggregateType = aggregateType && e.aggregateId = aggregateId &&
        !(e.eventType = .sourceRemoved && e.acknowledgedAt.isNone) }

/-- `on conflict (user_ref, social_source_id) do nothing`. -/
def insertLocalRemoval (row : LocalSourceRemoval) : DeletionTx Unit := do
  let _ ← insertUnless "local_source_removals_pkey" Db.localSourceRemovals
    (fun db t => { db with localSourceRemovals := t })
    (fun db => if (db.deletionOperations.lookup row.operationId).isNone then
      some (.foreignKeyViolation "local_source_removals_operation_id_fkey") else none)
    (fun db => (db.localSourceRemovals.lookup (row.userRef, row.socialSourceId)).isSome) row

/-- Whether the owner holds the source through another capture. -/
def ownerHoldsSource (capture : Capture) (db : Db) : Bool :=
  db.captures.rows.any fun c =>
    c.userRef = capture.userRef && c.captureId ≠ capture.captureId &&
      match capture.mediaId with
      | some mediaId => c.mediaId = some mediaId
      | none => c.canonicalUrl = capture.canonicalUrl

/-- Announces the end of a capture's source and drops its other events. -/
def endCaptureSource (lib : Externals) (request : DeletionRequest) (capture : Capture) :
    DeletionTx Unit := do
  let removedAt ← nowUtc
  let _ ← mapError .publication
    (appendRemovalFact lib capture.captureId .userRequested removedAt)
  execute (dropAggregateEvents .capture capture.captureId)
  insertLocalRemoval
    { userRef := capture.userRef
      socialSourceId := sourceIdentity lib capture.userRef capture.canonicalUrl
      captureId := some capture.captureId
      operationId := request.operationId
      reason := .userRequested
      removedAt }

/-- Everything that names a capture. -/
def clearCapture (captureId : Uuid) (db : Db) : Db :=
  { db with
    captureAnalysisLinks := db.captureAnalysisLinks.delete fun l => l.captureId = captureId
    captureNotes := db.captureNotes.delete fun n => n.captureId = captureId
    captureOperations := db.captureOperations.delete fun o => o.captureId = captureId
    reresolutionItems := db.reresolutionItems.delete fun i => i.captureId = captureId
    availabilityObservations :=
      db.availabilityObservations.delete fun o => o.captureId = some captureId }

/-- The capture and everything that names it. -/
def eraseCaptureRows (captureId : Uuid) : DeletionTx Unit := do
  execute (clearCapture captureId)
  deleteFrom Db.captures (fun db t => { db with captures := t }) captureReferences
    fun c => c.captureId = captureId

/-- Whether a capture, a connection or an export still relies on a media row. -/
def independentHolding (mediaId : Uuid) (db : Db) : Bool :=
  (db.captures.rows.any fun c => c.mediaId = some mediaId) ||
    (db.media.lookup mediaId).any fun m =>
      m.accountId.isSome || m.acquisitionMethod = .dataExport

/-- The media row of an erased capture goes unless something else relies on it. -/
def eraseUnheldMedia (operationId : Uuid) : Option Uuid → DeletionTx Nat
  | none => return 0
  | some mediaId => do
    let independent ← query (independentHolding mediaId)
    if independent then return 0 else eraseCaptureMedia operationId mediaId

def applyCaptureRows (lib : Externals) (request : DeletionRequest) (captureId : Uuid) :
    DeletionTx Nat := do
  let capture ← fetchOne (.persistence .rowNotFound) fun db => db.captures.lookup captureId
  let held ← query (ownerHoldsSource capture)
  if !held then endCaptureSource lib request capture
  eraseCaptureRows captureId
  eraseUnheldMedia request.operationId capture.mediaId

/-- The identity an account's media item was published under. -/
def connectionSource (lib : Externals) (userRef : Uuid) (media : Media) : Uuid :=
  match media.providerMediaId with
  | none => sourceIdentity lib userRef media.permalink
  | some providerId => ownMediaSourceIdentity lib userRef providerId

def detachMedia (mediaId : Uuid) (now : Instant) (db : Db) : Db :=
  { db with
    media := db.media.update (fun m => m.mediaId = mediaId)
      fun m => { m with accountId := none, updatedAt := now } }

/-- Whether a capture of any owner is linked to a media row. -/
def captureHolding (mediaId : Uuid) (db : Db) : Bool :=
  db.captures.rows.any fun c => c.mediaId = some mediaId

/-- Announces the end of an account's source and erases its media row. -/
def endConnectionSource (lib : Externals) (request : DeletionRequest) (m : Media) :
    DeletionTx Nat := do
  let removedAt ← nowUtc
  let _ ← mapError .publication
    (appendSourceRemovalFact lib request.userRef (connectionSource lib request.userRef m) .media
      m.mediaId .userRequested removedAt)
  execute (dropAggregateEvents .media m.mediaId)
  insertLocalRemoval
    { userRef := request.userRef
      socialSourceId := connectionSource lib request.userRef m
      mediaId := some m.mediaId
      operationId := request.operationId
      reason := .userRequested
      removedAt }
  eraseExclusiveMedia request.operationId m.mediaId

/-- The media rows of a connection: shared ones are detached, the others end. -/
def eraseConnectionMedia (lib : Externals) (request : DeletionRequest) :
    List Media → DeletionTx Nat
  | [] => return 0
  | m :: rest => do
    let held ← query (captureHolding m.mediaId)
    if held then
      let now ← Tx.now
      execute (detachMedia m.mediaId now)
      eraseConnectionMedia lib request rest
    else
      let pending ← endConnectionSource lib request m
      let more ← eraseConnectionMedia lib request rest
      return pending + more

def connectionMedia (accountId : Uuid) (db : Db) : List Media :=
  (db.media.rows.filter fun m => m.accountId = some accountId).insertionSort
    fun a b => a.mediaId ≤ b.mediaId

/-- Whether a run belongs to an account. -/
def runOfAccount (accountId runId : Uuid) (db : Db) : Bool :=
  db.syncRuns.rows.any fun r => r.runId = runId && r.accountId = accountId

/-- The raw evidence that permissions, profiles and sync items of an account name. -/
def connectionRawIds (accountId : Uuid) (db : Db) : List Uuid :=
  ((db.permissionObservations.rows.filter fun o => o.accountId = accountId).map
      PermissionObservation.rawRecordId ++
    (db.profiles.rows.filter fun p => p.accountId = some accountId).filterMap Profile.rawRecordId ++
    (db.syncItems.rows.filter fun i => runOfAccount accountId i.runId db).map SyncItem.rawRecordId)
    |>.dedup.insertionSort (· ≤ ·)

/-- The synchronization of an account: authority, state, items and runs. -/
def eraseSyncRows (accountId : Uuid) : DeletionTx Unit := do
  execute fun db => { db with
    syncAuthorities := db.syncAuthorities.delete fun a => a.accountId = accountId
    syncStates := db.syncStates.delete fun s => s.accountId = accountId }
  execute fun db => { db with
    syncItems := db.syncItems.delete fun i => runOfAccount accountId i.runId db }
  deleteFrom Db.syncRuns (fun db t => { db with syncRuns := t }) runReferences
    fun r => r.accountId = accountId

/-- The rows of an account that nothing refers to. -/
def clearAccount (accountId : Uuid) (db : Db) : Db :=
  { db with
    accountCapabilities := db.accountCapabilities.delete fun c => c.accountId = accountId
    permissionObservations := db.permissionObservations.delete fun o => o.accountId = accountId
    profiles := db.profiles.delete fun p => p.accountId = some accountId
    providerUsage := db.providerUsage.delete fun u => u.accountId = some accountId
    oauthFlows := db.oauthFlows.delete fun f => f.accountId = some accountId
    credentials := db.credentials.delete fun c => c.accountId = accountId
    credentialAudits := db.credentialAudits.delete fun a => a.accountId = accountId }

/-- The evidence of an account that no revision retains. -/
def eraseConnectionRaws (operationId : Uuid) : List Uuid → DeletionTx Nat
  | [] => return 0
  | rawId :: rest => do
    match ← query fun db => (db.rawRecords.lookup rawId).filter fun _ => !rawRetained rawId db with
    | none => eraseConnectionRaws operationId rest
    | some raw =>
      deleteRaw rawId
      scheduleBlobTask operationId raw.blob .rawResponse
      let pending ← eraseConnectionRaws operationId rest
      return pending + 1

def deleteAccount (accountId : Uuid) : DeletionTx Unit :=
  deleteFrom Db.accounts (fun db t => { db with accounts := t }) accountReferences
    fun a => a.accountId = accountId

def applyConnectionRows (lib : Externals) (request : DeletionRequest) (accountId : Uuid) :
    DeletionTx Nat := do
  let rawIds ← query (connectionRawIds accountId)
  let rows ← query (connectionMedia accountId)
  let pending ← eraseConnectionMedia lib request rows
  eraseSyncRows accountId
  execute (clearAccount accountId)
  let more ← eraseConnectionRaws request.operationId rawIds
  deleteAccount accountId
  return pending + more

def applyTargetRows (lib : Externals) (request : DeletionRequest) : DeletionTx Nat :=
  match request.target with
  | .capture captureId => applyCaptureRows lib request captureId
  | .connection accountId => applyConnectionRows lib request accountId

/-! ## The request -/

/-- The stored audit of an operation, by class. -/
def storedEffects (operationId : Uuid) (db : Db) : Option (List DeletionEffectCount) :=
  ((db.deletionEffects.rows.filter fun e => e.operationId = operationId).mapM
    DeletionEffect.read).map fun effects =>
      effects.insertionSort fun a b => a.dataClass.rank ≤ b.dataClass.rank

/-- What a stored operation answers to a request: the result of a finished run of it. -/
def loadExisting (request : DeletionRequest) (db : Db) :
    Option (Except PrivacyDeletionError DeletionResult) :=
  (db.deletionOperations.lookup request.operationId).map fun op =>
    if op.userRef ≠ request.userRef ∨ op.targetKind ≠ request.target.kind ∨
        op.targetId ≠ request.target.id then .error .operationConflict
    else if op.state ≠ .complete ∧ op.state ≠ .pendingBlobDeletion then .error .operationConflict
    else match storedEffects request.operationId db with
      | some effects => .ok ⟨request.operationId, effects⟩
      | none => .error .operationConflict

def targetOwner (target : DeletionTarget) (db : Db) : Option Uuid :=
  match target with
  | .capture captureId => (db.captures.lookup captureId).map Capture.userRef
  | .connection accountId => (db.accounts.lookup accountId).map Account.userRef

def insertEffects (operationId : Uuid) : List DeletionEffectCount → DeletionTx Unit
  | [] => return ()
  | e :: rest => do
    insertInto "deletion_effects_pkey" Db.deletionEffects
      (fun db t => { db with deletionEffects := t })
      (fun db => if (db.deletionOperations.lookup operationId).isNone then
        some (.foreignKeyViolation "deletion_effects_operation_id_fkey") else none)
      (e.row operationId)
    insertEffects operationId rest

def finishDeletion (operationId : Uuid) (state : DeletionState) (now : Instant) (db : Db) : Db :=
  { db with
    deletionOperations := db.deletionOperations.update (fun op => op.operationId = operationId)
      fun op =>
        { op with
          state
          updatedAt := now
          finishedAt := if state = .complete then some now else none } }

/-- The operation row of a request as it is stored first. -/
def plannedOperation (request : DeletionRequest) (requestedAt : Instant) : DeletionOperation :=
  { operationId := request.operationId
    userRef := request.userRef
    targetKind := request.target.kind
    targetId := request.target.id
    reason := .userRequested
    state := .planned
    requestedAt
    updatedAt := requestedAt }

/-- Refuses a target that the requester does not own. -/
def requireOwned (request : DeletionRequest) : DeletionTx Unit := do
  let owner ← query (targetOwner request.target)
  if owner ≠ some request.userRef then Tx.throw .targetNotFound

/-- `preview`: the plan of an owned target. -/
def previewDeletion (request : DeletionRequest) : DeletionTx DeletionResult := do
  requireOwned request
  return ⟨request.operationId, buildPlan request⟩

/-- A request that is not stored yet. -/
def applyNewDeletion (lib : Externals) (request : DeletionRequest) : DeletionTx DeletionResult := do
  requireOwned request
  let requestedAt ← Tx.now
  insertInto "deletion_operations_pkey" Db.deletionOperations
    (fun db t => { db with deletionOperations := t }) (fun _ => none)
    (plannedOperation request requestedAt)
  insertEffects request.operationId (buildPlan request)
  let pending ← applyTargetRows lib request
  execute (finishDeletion request.operationId
    (if pending > 0 then .pendingBlobDeletion else .complete) requestedAt)
  commit
  return ⟨request.operationId, buildPlan request⟩

/-- Applies one stable owner deletion request. -/
def applyDeletion (lib : Externals) (request : DeletionRequest) : DeletionTx DeletionResult := do
  match ← query (loadExisting request) with
  | some result => ofExcept result
  | none => applyNewDeletion lib request

end InstagramArchive

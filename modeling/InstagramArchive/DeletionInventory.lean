import InstagramArchive.Schema
import Mathlib.Data.List.Sort

/-!
# The inventory of privacy deletion

Every owned table and every protected class of blobs, with what a deletion does to it: one
classification for capture targets and one for connections. The plan of a request lists the
whole classification; it is the audit that a deletion stores.
-/

namespace InstagramArchive

open Relational

inductive OwnedDataClass where
  | accounts
  | accountCapabilities
  | accountCredentialAudit
  | accountPermissionObservations
  | credentials
  | oauthFlows
  | providerApiUsage
  | profiles
  | media
  | mediaRelations
  | mediaRevisions
  | ownMediaSyncState
  | ownMediaSyncRuns
  | ownMediaSyncItems
  | ownMediaAuthority
  | captures
  | captureOperations
  | captureAnalysisLinks
  | captureNotes
  | exportSnapshots
  | importRuns
  | importRunTransitions
  | exportRecords
  | exportCompletenessReports
  | rawRecords
  | availabilityObservations
  | outboxEvents
  | inboxEvents
  | deletionOperations
  | deletionEffects
  | localSourceRemovals
  | blobDeletionTasks
  | reresolutionRuns
  | reresolutionItems
  | exportReprocessingRuns
  | exportReprocessingItems
  | dataExportArchiveBlob
  | providerMediaBlob
  | rawResponseBlob
  | userUploadBlob
  deriving DecidableEq, Repr

namespace OwnedDataClass

/-- The inventory key. -/
def key : OwnedDataClass → String
  | .accounts => "table:accounts"
  | .accountCapabilities => "table:account_capabilities"
  | .accountCredentialAudit => "table:account_credential_audit"
  | .accountPermissionObservations => "table:account_permission_observations"
  | .credentials => "table:credentials"
  | .oauthFlows => "table:oauth_flows"
  | .providerApiUsage => "table:provider_api_usage"
  | .profiles => "table:profiles"
  | .media => "table:media"
  | .mediaRelations => "table:media_relations"
  | .mediaRevisions => "table:media_revisions"
  | .ownMediaSyncState => "table:own_media_sync_state"
  | .ownMediaSyncRuns => "table:own_media_sync_runs"
  | .ownMediaSyncItems => "table:own_media_sync_items"
  | .ownMediaAuthority => "table:own_media_authority"
  | .captures => "table:captures"
  | .captureOperations => "table:capture_operations"
  | .captureAnalysisLinks => "table:capture_analysis_links"
  | .captureNotes => "table:capture_notes"
  | .exportSnapshots => "table:export_snapshots"
  | .importRuns => "table:import_runs"
  | .importRunTransitions => "table:import_run_transitions"
  | .exportRecords => "table:export_records"
  | .exportCompletenessReports => "table:export_completeness_reports"
  | .rawRecords => "table:raw_records"
  | .availabilityObservations => "table:availability_observations"
  | .outboxEvents => "table:outbox_events"
  | .inboxEvents => "table:inbox_events"
  | .deletionOperations => "table:deletion_operations"
  | .deletionEffects => "table:deletion_effects"
  | .localSourceRemovals => "table:local_source_removals"
  | .blobDeletionTasks => "table:blob_deletion_tasks"
  | .reresolutionRuns => "table:reresolution_runs"
  | .reresolutionItems => "table:reresolution_items"
  | .exportReprocessingRuns => "table:export_reprocessing_runs"
  | .exportReprocessingItems => "table:export_reprocessing_items"
  | .dataExportArchiveBlob => "blob:data_export_archive"
  | .providerMediaBlob => "blob:provider_media"
  | .rawResponseBlob => "blob:raw_response"
  | .userUploadBlob => "blob:user_upload"

/-- The key of a class in the stored audit. -/
def auditKey : OwnedDataClass → String
  | .dataExportArchiveBlob => "data_export_archive_blob"
  | .providerMediaBlob => "provider_media_blob"
  | .rawResponseBlob => "raw_response_blob"
  | .userUploadBlob => "user_upload_blob"
  | c => String.ofList (c.key.toList.drop "table:".length)

/-- `OWNED_DATA_CLASSES`. -/
def all : List OwnedDataClass :=
  [.accounts, .accountCapabilities, .accountCredentialAudit, .accountPermissionObservations,
    .credentials, .oauthFlows, .providerApiUsage, .profiles, .media, .mediaRelations,
    .mediaRevisions, .ownMediaSyncState, .ownMediaSyncRuns, .ownMediaSyncItems,
    .ownMediaAuthority, .captures, .captureOperations, .captureAnalysisLinks, .captureNotes,
    .exportSnapshots, .importRuns, .importRunTransitions, .exportRecords,
    .exportCompletenessReports, .rawRecords, .availabilityObservations, .outboxEvents,
    .inboxEvents, .deletionOperations, .deletionEffects, .localSourceRemovals,
    .blobDeletionTasks, .reresolutionRuns, .reresolutionItems, .exportReprocessingRuns,
    .exportReprocessingItems, .dataExportArchiveBlob, .providerMediaBlob, .rawResponseBlob,
    .userUploadBlob]

/-- The derived order: that of the declaration. -/
def rank (c : OwnedDataClass) : Nat := all.idxOf c

def fromAuditKey (value : String) : Option OwnedDataClass := all.find? fun c => c.auditKey = value

end OwnedDataClass

/-! ## Classifications -/

structure DataClassDisposition where
  dataClass : OwnedDataClass
  action : DeletionAction
  deriving DecidableEq, Repr

/-- `CAPTURE_DELETION_CLASSIFICATIONS`. -/
def captureDeletionClassifications : List DataClassDisposition :=
  [⟨.accounts, .notApplicable⟩, ⟨.accountCapabilities, .notApplicable⟩,
    ⟨.accountCredentialAudit, .notApplicable⟩,
    ⟨.accountPermissionObservations, .notApplicable⟩, ⟨.credentials, .notApplicable⟩,
    ⟨.oauthFlows, .notApplicable⟩, ⟨.providerApiUsage, .notApplicable⟩,
    ⟨.profiles, .notApplicable⟩, ⟨.media, .detach⟩, ⟨.mediaRelations, .detach⟩,
    ⟨.mediaRevisions, .detach⟩, ⟨.ownMediaSyncState, .notApplicable⟩,
    ⟨.ownMediaSyncRuns, .notApplicable⟩, ⟨.ownMediaSyncItems, .notApplicable⟩,
    ⟨.ownMediaAuthority, .notApplicable⟩, ⟨.captures, .delete⟩, ⟨.captureOperations, .delete⟩,
    ⟨.captureAnalysisLinks, .delete⟩, ⟨.captureNotes, .delete⟩,
    ⟨.exportSnapshots, .notApplicable⟩, ⟨.importRuns, .notApplicable⟩,
    ⟨.importRunTransitions, .notApplicable⟩, ⟨.exportRecords, .notApplicable⟩,
    ⟨.exportCompletenessReports, .notApplicable⟩, ⟨.rawRecords, .detach⟩,
    ⟨.availabilityObservations, .delete⟩, ⟨.outboxEvents, .retainAudit⟩,
    ⟨.inboxEvents, .retainAudit⟩, ⟨.deletionOperations, .retainAudit⟩,
    ⟨.deletionEffects, .retainAudit⟩, ⟨.localSourceRemovals, .retainAudit⟩,
    ⟨.blobDeletionTasks, .retainAudit⟩, ⟨.reresolutionRuns, .retainAudit⟩,
    ⟨.reresolutionItems, .delete⟩, ⟨.exportReprocessingRuns, .notApplicable⟩,
    ⟨.exportReprocessingItems, .notApplicable⟩, ⟨.dataExportArchiveBlob, .notApplicable⟩,
    ⟨.providerMediaBlob, .detach⟩, ⟨.rawResponseBlob, .detach⟩, ⟨.userUploadBlob, .delete⟩]

/-- `CONNECTION_DELETION_CLASSIFICATIONS`. -/
def connectionDeletionClassifications : List DataClassDisposition :=
  [⟨.accounts, .delete⟩, ⟨.accountCapabilities, .delete⟩, ⟨.accountCredentialAudit, .delete⟩,
    ⟨.accountPermissionObservations, .delete⟩, ⟨.credentials, .delete⟩, ⟨.oauthFlows, .delete⟩,
    ⟨.providerApiUsage, .delete⟩, ⟨.profiles, .delete⟩, ⟨.media, .detach⟩,
    ⟨.mediaRelations, .detach⟩, ⟨.mediaRevisions, .detach⟩, ⟨.ownMediaSyncState, .delete⟩,
    ⟨.ownMediaSyncRuns, .delete⟩, ⟨.ownMediaSyncItems, .delete⟩, ⟨.ownMediaAuthority, .delete⟩,
    ⟨.captures, .notApplicable⟩, ⟨.captureOperations, .notApplicable⟩,
    ⟨.captureAnalysisLinks, .notApplicable⟩, ⟨.captureNotes, .notApplicable⟩,
    ⟨.exportSnapshots, .notApplicable⟩, ⟨.importRuns, .notApplicable⟩,
    ⟨.importRunTransitions, .notApplicable⟩, ⟨.exportRecords, .notApplicable⟩,
    ⟨.exportCompletenessReports, .notApplicable⟩, ⟨.rawRecords, .detach⟩,
    ⟨.availabilityObservations, .detach⟩, ⟨.outboxEvents, .delete⟩,
    ⟨.inboxEvents, .retainAudit⟩, ⟨.deletionOperations, .retainAudit⟩,
    ⟨.deletionEffects, .retainAudit⟩, ⟨.localSourceRemovals, .retainAudit⟩,
    ⟨.blobDeletionTasks, .retainAudit⟩, ⟨.reresolutionRuns, .notApplicable⟩,
    ⟨.reresolutionItems, .notApplicable⟩, ⟨.exportReprocessingRuns, .notApplicable⟩,
    ⟨.exportReprocessingItems, .notApplicable⟩, ⟨.dataExportArchiveBlob, .notApplicable⟩,
    ⟨.providerMediaBlob, .detach⟩, ⟨.rawResponseBlob, .detach⟩,
    ⟨.userUploadBlob, .notApplicable⟩]

/-! ## Requests -/

inductive DeletionTarget where
  | capture (captureId : Uuid)
  | connection (accountId : Uuid)
  deriving DecidableEq, Repr

def DeletionTarget.kind : DeletionTarget → DeletionTargetKind
  | .capture _ => .capture
  | .connection _ => .connection

def DeletionTarget.id : DeletionTarget → Uuid
  | .capture id | .connection id => id

structure DeletionRequest where
  operationId : Uuid
  userRef : Uuid
  target : DeletionTarget
  deriving DecidableEq, Repr

structure DeletionEffectCount where
  dataClass : OwnedDataClass
  action : DeletionAction
  affectedCount : Nat
  deriving DecidableEq, Repr

structure DeletionResult where
  operationId : Uuid
  effects : List DeletionEffectCount
  deriving DecidableEq, Repr

def DeletionTarget.classifications : DeletionTarget → List DataClassDisposition
  | .capture _ => captureDeletionClassifications
  | .connection _ => connectionDeletionClassifications

/-- The class of the target row. -/
def DeletionTarget.dataClass : DeletionTarget → OwnedDataClass
  | .capture _ => .captures
  | .connection _ => .accounts

/-- `build_plan`: every class with no affected row, but for the one target row. -/
def buildPlan (request : DeletionRequest) : List DeletionEffectCount :=
  request.target.classifications.map fun entry =>
    { dataClass := entry.dataClass
      action := entry.action
      affectedCount := if entry.dataClass = request.target.dataClass then 1 else 0 }

/-! ## The stored audit -/

def DeletionEffectCount.row (operationId : Uuid) (e : DeletionEffectCount) : DeletionEffect :=
  ⟨operationId, e.dataClass.auditKey, e.action, e.affectedCount⟩

/-- A stored count, when its key is one of the inventory's. -/
def DeletionEffect.read (row : DeletionEffect) : Option DeletionEffectCount :=
  (OwnedDataClass.fromAuditKey row.dataClass).map fun c => ⟨c, row.action, row.affectedCount⟩

theorem mem_all (c : OwnedDataClass) : c ∈ OwnedDataClass.all := by
  cases c <;> decide

theorem fromAuditKey_auditKey (c : OwnedDataClass) :
    OwnedDataClass.fromAuditKey c.auditKey = some c := by
  have hall : ∀ c ∈ OwnedDataClass.all, OwnedDataClass.fromAuditKey c.auditKey = some c := by
    decide +kernel
  exact hall c (mem_all c)

/-- **The audit reads back as it was written.** -/
theorem read_row (operationId : Uuid) (e : DeletionEffectCount) :
    (e.row operationId).read = some e := by
  simp [DeletionEffect.read, DeletionEffectCount.row, fromAuditKey_auditKey]

/-- Both classifications list every class once, in the order of the declaration. -/
theorem classifications_classes (target : DeletionTarget) :
    target.classifications.map DataClassDisposition.dataClass = OwnedDataClass.all := by
  cases target with
  | capture id => rfl
  | connection id => rfl

theorem buildPlan_classes (request : DeletionRequest) :
    (buildPlan request).map DeletionEffectCount.dataClass = OwnedDataClass.all := by
  rw [← classifications_classes request.target]
  simp [buildPlan]

end InstagramArchive

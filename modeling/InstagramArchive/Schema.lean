import InstagramArchive.Relational.Transaction
import InstagramArchive.Permalink
import Mathlib.Algebra.Group.Int.Defs
import Mathlib.Algebra.GroupWithZero.Nat

/-!
# The archive schema

The tables of `instagram_archive` that the capture lane, the official account lane,
the Data Export lane, the outbox relay and privacy deletion read and write, with the
closed vocabularies of their CHECK constraints as inductive types. Primary keys are
carried by `Relational.Table`; the other constraints are checked where a statement can
break them.

Identifiers are compared and never computed with, so a `Uuid` is a natural
number; an instant counts microseconds.
-/

namespace InstagramArchive

open Relational

abbrev Uuid := Nat
abbrev Instant := Int

/-- `Duration::seconds`. -/
def seconds (n : Int) : Int := n * 1000000

/-! ## Closed vocabularies -/

inductive CaptureStatus where
  | accepted
  | resolved
  | unavailable
  | failed
  | tombstoned
  deriving DecidableEq, Repr

inductive ClientSource where
  | iosShareExtension
  | androidShareTarget
  | browserExtension
  | telegram
  deriving DecidableEq, Repr

inductive AcquisitionMethod where
  | officialApi
  | shareExtension
  | browserExtension
  | publicResolution
  | dataExport
  | legacyImport
  deriving DecidableEq, Repr

inductive SavedAuthority where
  | explicitUserCapture
  | exportObservation
  | authoritativePlatformState
  | legacyObservation
  deriving DecidableEq, Repr

inductive AvailabilityObservationKind where
  | available
  | unavailable
  | deleted
  | priv
  | temporarilyUnavailable
  | unsupported
  | resolutionFailed
  deriving DecidableEq, Repr

inductive UpstreamStatus where
  | available
  | unavailable
  | deleted
  | priv
  | unknown
  deriving DecidableEq, Repr

inductive MediaType where
  | image
  | video
  | carousel
  | reel
  | story
  | unknown
  deriving DecidableEq, Repr

inductive RecordKind where
  | oembedResponse
  | apiResponse
  | exportSection
  | unknownExportRecord
  | userUpload
  deriving DecidableEq, Repr

inductive AggregateType where
  | capture
  | media
  | account
  | importRun
  | operation
  deriving DecidableEq, Repr

inductive EventType where
  | operationReported
  | sourceCaptured
  | sourceUpdated
  | sourceRemoved
  deriving DecidableEq, Repr

inductive AckOutcome where
  | applied
  | refused
  deriving DecidableEq, Repr

inductive InboxOutcome where
  | processed
  | rejected
  | skipped
  deriving DecidableEq, Repr

/-- The consumers that claim deliveries in the inbox. -/
inductive Consumer where
  | browserCapture
  | analysis
  deriving DecidableEq, Repr

/-- `RemovalReason` of the social contracts, a non-exhaustive enumeration: a
reason this service does not know has no stored wire value. -/
inductive RemovalReason where
  | userRequested
  | retentionPolicy
  | other
  deriving DecidableEq, Repr

inductive UpstreamAvailability where
  | available
  | deletedUpstream
  | unavailable
  deriving DecidableEq, Repr

inductive SourceUnavailability where
  | inaccessible
  | deleted
  | transient
  deriving DecidableEq, Repr

inductive AccountType where
  | business
  | creator
  | personal
  | unknown
  deriving DecidableEq, Repr

inductive ConnectionStatus where
  | connected
  | reauthorizationRequired
  | revoking
  | revoked
  deriving DecidableEq, Repr

inductive PermissionStatus where
  | granted
  | declined
  | expired
  | absent
  | unknown
  deriving DecidableEq, Repr

inductive AccountCapability where
  | accountIdentityRead
  | ownMediaRead
  | contentPublish
  | commentManagement
  | messageManagement
  | nativeSavedRead
  deriving DecidableEq, Repr

inductive CapabilityState where
  | available
  | unavailable
  | notSupported
  deriving DecidableEq, Repr

inductive CapabilityReason where
  | granted
  | accountTypeUnsupported
  | permissionDeclined
  | permissionExpired
  | permissionAbsent
  | permissionUnknown
  | missingPermission
  | writeConsentRequired
  | providerNotSupported
  | revoked
  | reauthorizationRequired
  deriving DecidableEq, Repr

inductive CredentialChange where
  | authorized
  | refreshed
  | reauthorizationRequired
  | revoked
  deriving DecidableEq, Repr

inductive CredentialOutcome where
  | succeeded
  | providerFailed
  | providerUnsupported
  | authenticationFailed
  deriving DecidableEq, Repr

inductive RequestClass where
  | codeExchange
  | accountDiscovery
  | permissionDiscovery
  | tokenRefresh
  | tokenRevoke
  | ownMediaPage
  deriving DecidableEq, Repr

inductive UsageOutcome where
  | succeeded
  | authentication
  | validation
  | rateLimited
  | server
  | network
  | responseRefused
  | providerUnsupported
  deriving DecidableEq, Repr

inductive RelationKind where
  | carouselItem
  | reelCover
  | linkedPost
  deriving DecidableEq, Repr

inductive SyncRunStatus where
  | running
  | retryable
  | completed
  | capabilityNoop
  | failed
  deriving DecidableEq, Repr

/-- Whether a run holds its account's one active slot. -/
def SyncRunStatus.active : SyncRunStatus → Bool
  | .running | .retryable => true
  | _ => false

/-- `own_media_sync_runs_reason_check`. -/
inductive SyncRunReason where
  | completed
  | accountTypeUnsupported
  | permissionDeclined
  | permissionExpired
  | permissionAbsent
  | permissionUnknown
  | reauthorizationRequired
  | revoked
  | ownerMismatch
  | capabilityChanged
  | budgetExhausted
  | pageLimit
  | providerRetryable
  | responseRefused
  deriving DecidableEq, Repr

inductive SyncOutcomeClass where
  | completed
  | capabilityNoop
  | retryable
  | failed
  deriving DecidableEq, Repr

inductive ImportState where
  | received
  | inspected
  | parsed
  | reconciled
  | failed
  deriving DecidableEq, Repr

inductive ExportRecordKind where
  | normalized
  | unknownRecord
  | unknownSection
  | conflict
  | warning
  deriving DecidableEq, Repr

inductive DeletionAction where
  | delete
  | detach
  | retainAudit
  | retainShared
  | notApplicable
  deriving DecidableEq, Repr

/-! ## Published payloads -/

structure ContentDigest where
  hex : String
  deriving DecidableEq, Repr

structure BlobRef where
  digest : String
  mediaType : String
  lengthBytes : Nat
  deriving DecidableEq, Repr

/-- What a captured or updated fact states about one source. The author, the relations
and the folders stay empty in every lane and are left out; the media list stays empty
too and enters the content digest. Only the official lane states a publication time
and a checkpoint. -/
structure SocialSourceSnapshot where
  socialSourceId : Uuid
  platform : String
  externalPostId : String
  permalink : Option String
  owner : Uuid
  capturedAt : Instant
  text : Option String
  media : List BlobRef
  contentDigest : ContentDigest
  rawBlob : Option BlobRef
  acquisition : AcquisitionMethod
  savedAuthority : SavedAuthority
  upstreamAvailability : UpstreamAvailability
  warnings : List String
  publishedAt : Option Instant := none
  checkpoint : Option String := none
  deriving DecidableEq, Repr

structure SocialSourceRemoved where
  socialSourceId : Uuid
  owner : Uuid
  reason : RemovalReason
  removedAt : Instant
  deriving DecidableEq, Repr

/-- The three reports the contract builds: `queued_report`, `preserved_report` and
`unavailable_report`. -/
inductive ReportBody where
  | queued
  | preserved (source : Uuid)
  | unavailable (reason : SourceUnavailability)
  deriving DecidableEq, Repr

structure OperationReported where
  operationId : Uuid
  body : ReportBody
  deriving DecidableEq, Repr

inductive EventPayload where
  | captured (source : SocialSourceSnapshot)
  | updated (source : SocialSourceSnapshot)
  | removed (removal : SocialSourceRemoved)
  | reported (report : OperationReported)
  deriving DecidableEq, Repr

inductive EntityRef where
  | socialSource (id : Uuid)
  | capture (id : Uuid)
  | operation (id : Uuid)
  deriving DecidableEq, Repr

/-- The stored canonical envelope, by the members this service reads back. -/
structure Envelope where
  eventId : Uuid
  aggregate : EntityRef
  tenantId : String
  payload : EventPayload
  deriving DecidableEq, Repr

/-- The wire form of an owner, `user:<uuid>`. -/
def tenantRef (owner : Uuid) : String := "user:" ++ toString owner

/-! ## Rows -/

structure Capture where
  captureId : Uuid
  userRef : Uuid
  mediaId : Option Uuid := none
  canonicalUrl : String
  acquisitionMethod : AcquisitionMethod
  savedAuthority : SavedAuthority
  clientSource : ClientSource
  status : CaptureStatus
  note : Option String
  clientIdempotencyKey : Option String
  capturedAt : Instant
  nextResolutionAt : Option Instant := none
  resolutionAttempts : Nat := 0
  createdAt : Instant
  deriving DecidableEq, Repr

structure CaptureOperation where
  operationId : Uuid
  commandId : Uuid
  captureId : Uuid
  userRef : Uuid
  reportedAt : Option Instant := none
  createdAt : Instant
  deriving DecidableEq, Repr

structure CaptureAnalysisLink where
  captureId : Uuid
  contentDigest : String
  completedAt : Instant
  deriving DecidableEq, Repr

/-- A content-addressed object of the BlobStore. -/
structure StoredBlob where
  blobRef : String
  contentHash : List UInt8
  byteSize : Nat
  deriving DecidableEq, Repr

structure Media where
  mediaId : Uuid
  accountId : Option Uuid := none
  providerMediaId : Option String := none
  permalink : String
  mediaType : MediaType
  caption : Option String
  publishedAt : Option Instant := none
  acquisitionMethod : AcquisitionMethod
  savedAuthority : SavedAuthority
  upstreamStatus : UpstreamStatus
  currentRevisionId : Option Uuid := none
  /-- The archived provider bytes; `none` while the row is metadata only. -/
  blob : Option StoredBlob := none
  createdAt : Instant
  updatedAt : Instant
  deriving DecidableEq, Repr

structure RawRecord where
  rawRecordId : Uuid
  recordKind : RecordKind
  blobRef : String
  contentHash : List UInt8
  byteSize : Nat
  body : String
  observedAt : Instant
  deriving DecidableEq, Repr

structure MediaRevision where
  revisionId : Uuid
  mediaId : Uuid
  rawRecordId : Uuid
  parserVersion : String
  resolvedAt : Instant
  deriving DecidableEq, Repr

structure AvailabilityObservation where
  observationId : Uuid
  mediaId : Option Uuid
  captureId : Option Uuid
  availability : AvailabilityObservationKind
  resolverVersion : Option String := none
  observedAt : Instant
  deriving DecidableEq, Repr

structure OutboxEvent where
  eventId : Uuid
  eventType : EventType
  aggregateType : AggregateType
  aggregateId : Uuid
  payload : Envelope
  correlationId : Option Uuid
  causationId : Option Uuid
  occurredAt : Instant
  publishedAt : Option Instant := none
  attemptCount : Nat := 0
  nextAttemptAt : Option Instant := none
  lastError : Option String := none
  undeliverableAt : Option Instant := none
  acknowledgedAt : Option Instant := none
  ackOutcome : Option AckOutcome := none
  resendCount : Nat := 0
  nextResendAt : Option Instant := none
  deriving DecidableEq, Repr

structure InboxEvent where
  consumerName : Consumer
  eventId : Uuid
  consumedAt : Instant
  handlerOutcome : InboxOutcome
  deriving DecidableEq, Repr

inductive DeletionTargetKind where
  | capture
  | connection
  deriving DecidableEq, Repr

inductive DeletionState where
  | planned
  | databaseCommitted
  | pendingBlobDeletion
  | complete
  | failed
  deriving DecidableEq, Repr

structure DeletionOperation where
  operationId : Uuid
  userRef : Uuid
  targetKind : DeletionTargetKind
  targetId : Uuid
  reason : RemovalReason
  state : DeletionState
  requestedAt : Instant
  updatedAt : Instant
  finishedAt : Option Instant := none
  deriving DecidableEq, Repr

structure LocalSourceRemoval where
  userRef : Uuid
  socialSourceId : Uuid
  captureId : Option Uuid := none
  mediaId : Option Uuid := none
  operationId : Uuid
  reason : RemovalReason
  removedAt : Instant
  deriving DecidableEq, Repr

inductive MediaClass where
  | providerMedia
  | dataExportArchive
  | rawResponse
  | userUpload
  deriving DecidableEq, Repr

structure BlobDeletionTask where
  taskId : Uuid
  operationId : Option Uuid
  blob : StoredBlob
  mediaClass : MediaClass
  complete : Bool := false
  deriving DecidableEq, Repr

/-- One count of the deletion audit, under the audit key of its data class. -/
structure DeletionEffect where
  operationId : Uuid
  dataClass : String
  action : DeletionAction
  affectedCount : Nat
  deriving DecidableEq, Repr

structure CaptureNote where
  noteId : Uuid
  captureId : Uuid
  body : String
  createdAt : Instant
  deriving DecidableEq, Repr

structure MediaRelation where
  relationId : Uuid
  parentMediaId : Uuid
  childMediaId : Uuid
  relationKind : RelationKind
  deriving DecidableEq, Repr

/-- A re-resolution candidate, by the columns privacy deletion reads. -/
structure ReresolutionItem where
  runId : Uuid
  captureId : Uuid
  deriving DecidableEq, Repr

/-! ### Accounts -/

structure Account where
  accountId : Uuid
  userRef : Uuid
  providerAccountId : String
  username : String
  accountType : AccountType
  connectionStatus : ConnectionStatus
  scopes : List String
  connectedAt : Instant
  updatedAt : Instant
  deriving DecidableEq, Repr

structure Credential where
  credentialId : Uuid
  accountId : Uuid
  accessTokenEnvelope : List UInt8
  keyVersion : Nat
  grantedPermissions : List String
  expiresAt : Option Instant := none
  rotatedAt : Option Instant := none
  createdAt : Instant
  deriving DecidableEq, Repr

/-- A pending OAuth transaction; the PKCE columns are read by no modelled function. -/
structure OauthFlow where
  flowId : Uuid
  userRef : Uuid
  accountId : Option Uuid := none
  stateHash : List UInt8
  redirectUriHash : List UInt8
  expiresAt : Instant
  consumedAt : Option Instant := none
  createdAt : Instant
  deriving DecidableEq, Repr

structure PermissionObservation where
  observationId : Uuid
  accountId : Uuid
  generationId : Uuid
  permissionName : String
  permissionStatus : PermissionStatus
  rawRecordId : Uuid
  observedAt : Instant
  deriving DecidableEq, Repr

structure CapabilityRow where
  accountId : Uuid
  generationId : Uuid
  capability : AccountCapability
  capabilityState : CapabilityState
  reason : CapabilityReason
  observedAt : Instant
  deriving DecidableEq, Repr

structure CredentialAudit where
  auditId : Uuid
  accountId : Uuid
  changeKind : CredentialChange
  outcome : CredentialOutcome
  occurredAt : Instant
  deriving DecidableEq, Repr

/-- One attempt of a provider call; a row without an outcome is `started`, any other
`completed`. -/
structure ProviderUsage where
  usageId : Uuid
  operationId : Uuid
  accountId : Option Uuid
  requestClass : RequestClass
  attemptOrdinal : Nat
  outcome : Option UsageOutcome := none
  httpStatus : Option Nat := none
  startedAt : Instant
  finishedAt : Option Instant := none
  deriving DecidableEq, Repr

/-- A profile observation, by the columns privacy deletion reads. -/
structure Profile where
  profileId : Uuid
  accountId : Option Uuid
  rawRecordId : Option Uuid
  deriving DecidableEq, Repr

/-! ### Own-media synchronization -/

structure SyncRun where
  runId : Uuid
  accountId : Uuid
  userRef : Uuid
  capabilityGenerationId : Uuid
  startWatermark : Option String := none
  candidateWatermark : Option String := none
  nextCursor : Option String := none
  status : SyncRunStatus
  outcomeReason : Option SyncRunReason := none
  pageCount : Nat := 0
  itemCount : Nat := 0
  startedAt : Instant
  updatedAt : Instant
  finishedAt : Option Instant := none
  deriving DecidableEq, Repr

structure SyncState where
  accountId : Uuid
  watermark : Option String
  nextDueAt : Instant
  lastRunId : Option Uuid
  lastOutcome : Option SyncOutcomeClass
  updatedAt : Instant
  deriving DecidableEq, Repr

structure SyncItem where
  runId : Uuid
  providerMediaId : String
  ownerProviderAccountId : String
  mediaType : MediaType
  permalink : String
  caption : Option String
  publishedAt : Instant
  mediaUrl : Option String
  thumbnailUrl : Option String
  rawRecordId : Uuid
  observedAt : Instant
  deriving DecidableEq, Repr

structure SyncAuthority where
  accountId : Uuid
  runId : Uuid
  activatedAt : Instant
  deriving DecidableEq, Repr

/-! ### Data Export -/

structure ExportSnapshot where
  snapshotId : Uuid
  userRef : Uuid
  archiveHash : List UInt8
  archive : BlobRef
  archiveByteSize : Nat
  receivedAt : Instant
  deriving DecidableEq, Repr

structure ImportRun where
  runId : Uuid
  snapshotId : Uuid
  userRef : Uuid
  state : ImportState
  detectedLayout : Option String := none
  parserId : Option String := none
  recordsProcessed : Nat := 0
  warningCount : Nat := 0
  failureClass : Option String := none
  receivedAt : Instant
  updatedAt : Instant
  finishedAt : Option Instant := none
  deriving DecidableEq, Repr

structure ImportRunTransition where
  transitionId : Uuid
  runId : Uuid
  ordinal : Nat
  fromState : Option ImportState
  toState : ImportState
  failureClass : Option String := none
  occurredAt : Instant
  deriving DecidableEq, Repr

/-- The JSON of a staged record: a document as it was parsed, a warning with its code, or
the conflict that reconciliation writes around the record it kept back. -/
inductive ExportPayload where
  | document (json : String)
  | warning (code : String) (json : String)
  | conflict (reason providerId canonicalUrl : String) (record : ExportPayload)
  deriving DecidableEq, Repr

structure ExportRecord where
  recordId : Uuid
  runId : Uuid
  evidenceKey : String
  recordKind : ExportRecordKind
  category : String
  entryPath : String
  entryDigest : Option (List UInt8)
  entryByteSize : Nat
  providerId : Option String
  canonicalUrl : Option String
  payload : ExportPayload
  processedAt : Instant
  deriving DecidableEq, Repr

/-- A stored report; the counts are the lengths of its lists. -/
structure ExportCompletenessReport where
  reportId : Uuid
  runId : Uuid
  matched : List String
  exportOnly : List String
  captureOnly : List String
  nonComparable : List String
  categories : List String
  warnings : List String
  authorityDisclaimer : String
  createdAt : Instant
  deriving DecidableEq, Repr

/-! ## Primary keys -/

def CaptureAnalysisLink.key (r : CaptureAnalysisLink) : Uuid × String :=
  (r.captureId, r.contentDigest)

def InboxEvent.key (r : InboxEvent) : Consumer × Uuid := (r.consumerName, r.eventId)

def LocalSourceRemoval.key (r : LocalSourceRemoval) : Uuid × Uuid := (r.userRef, r.socialSourceId)

def DeletionEffect.key (r : DeletionEffect) : Uuid × String × DeletionAction :=
  (r.operationId, r.dataClass, r.action)

def ReresolutionItem.key (r : ReresolutionItem) : Uuid × Uuid := (r.runId, r.captureId)

def CapabilityRow.key (r : CapabilityRow) : Uuid × AccountCapability := (r.accountId, r.capability)

def SyncItem.key (r : SyncItem) : Uuid × String := (r.runId, r.providerMediaId)

/-- The archive database. -/
structure Db where
  captures : Table Capture Capture.captureId := Table.empty
  captureOperations : Table CaptureOperation CaptureOperation.operationId := Table.empty
  captureAnalysisLinks : Table CaptureAnalysisLink CaptureAnalysisLink.key := Table.empty
  media : Table Media Media.mediaId := Table.empty
  rawRecords : Table RawRecord RawRecord.rawRecordId := Table.empty
  mediaRevisions : Table MediaRevision MediaRevision.revisionId := Table.empty
  availabilityObservations :
    Table AvailabilityObservation AvailabilityObservation.observationId := Table.empty
  outboxEvents : Table OutboxEvent OutboxEvent.eventId := Table.empty
  inboxEvents : Table InboxEvent InboxEvent.key := Table.empty
  deletionOperations : Table DeletionOperation DeletionOperation.operationId := Table.empty
  localSourceRemovals : Table LocalSourceRemoval LocalSourceRemoval.key := Table.empty
  blobDeletionTasks : Table BlobDeletionTask BlobDeletionTask.taskId := Table.empty
  accounts : Table Account Account.accountId := Table.empty
  deletionEffects : Table DeletionEffect DeletionEffect.key := Table.empty
  captureNotes : Table CaptureNote CaptureNote.noteId := Table.empty
  mediaRelations : Table MediaRelation MediaRelation.relationId := Table.empty
  reresolutionItems : Table ReresolutionItem ReresolutionItem.key := Table.empty
  credentials : Table Credential Credential.credentialId := Table.empty
  oauthFlows : Table OauthFlow OauthFlow.flowId := Table.empty
  permissionObservations :
    Table PermissionObservation PermissionObservation.observationId := Table.empty
  accountCapabilities : Table CapabilityRow CapabilityRow.key := Table.empty
  credentialAudits : Table CredentialAudit CredentialAudit.auditId := Table.empty
  providerUsage : Table ProviderUsage ProviderUsage.usageId := Table.empty
  profiles : Table Profile Profile.profileId := Table.empty
  syncRuns : Table SyncRun SyncRun.runId := Table.empty
  syncStates : Table SyncState SyncState.accountId := Table.empty
  syncItems : Table SyncItem SyncItem.key := Table.empty
  syncAuthorities : Table SyncAuthority SyncAuthority.accountId := Table.empty
  exportSnapshots : Table ExportSnapshot ExportSnapshot.snapshotId := Table.empty
  importRuns : Table ImportRun ImportRun.runId := Table.empty
  importRunTransitions : Table ImportRunTransition ImportRunTransition.transitionId := Table.empty
  exportRecords : Table ExportRecord ExportRecord.recordId := Table.empty
  exportReports : Table ExportCompletenessReport ExportCompletenessReport.reportId := Table.empty

/-- A transaction of the archive. -/
abbrev ArchiveTx := Tx Db

/-! ## What the archive calls outside this repository -/

/-- The material an identity is derived from. The source concatenates the owner's
sixteen bytes, a separator and the text; the separators `\0` and `\0official\0`
keep the two families apart. -/
inductive IdentityMaterial where
  | captured (owner : Uuid) (canonicalPermalink : String)
  | official (owner : Uuid) (providerMediaId : String)
  /-- A name under the identity of another row. -/
  | named (parent : Uuid) (name : String)
  deriving DecidableEq, Repr

/-- What the content digest is computed over. -/
structure Preimage where
  domain : String
  permalink : Option String
  externalPostId : String
  caption : Option String
  upstream : String
  media : List BlobRef
  deriving DecidableEq, Repr

/-- What the content digest of an official own-media item is computed over. -/
structure OwnMediaContent where
  providerMediaId : String
  permalink : String
  caption : Option String
  publishedAt : Instant
  deriving DecidableEq, Repr

/-- Functions of the libraries and contract crates this archive calls. -/
structure Externals where
  /-- `Uuid::new_v5`, under the service's namespace or under a row's identity. -/
  newV5 : IdentityMaterial → Uuid
  /-- SHA-256 over the canonical JSON of the preimage. -/
  digestPreimage : Preimage → ContentDigest
  /-- SHA-256 over the JSON of an own-media item, its time written as RFC 3339; `none` for
  a time the format refuses. -/
  digestOwnMedia : OwnMediaContent → Option ContentDigest
  /-- SHA-256 of the bytes of a response body. -/
  sha256 : String → List UInt8
  /-- `serde_json::from_str::<PayloadGrammar>`: the title, when the body parses. -/
  parseGrammar : String → Option (Option String)
  /-- `PostText::parse`: the accepted text. -/
  parsePostText : String → Option String
  /-- Why the contracts refuse a payload or its envelope, if they do. -/
  refusal : EventPayload → Option String
  /-- `serde_json::to_vec` of an account's identity, username and type. -/
  accountJson : String → String → String → String
  /-- `serde_json::to_vec` of permission names with their statuses. -/
  permissionsJson : List (String × String) → String
  /-- `serde_json::to_string` of the reference of a stored archive. -/
  blobRefJson : BlobRef → String

/-- Distinct materials have distinct version-5 identities. -/
def Externals.CollisionFree (lib : Externals) : Prop := Function.Injective lib.newV5

end InstagramArchive

import InstagramArchive.OwnMediaFacts
import InstagramArchive.ProviderBudget
import InstagramArchive.Relational.Script
import InstagramArchive.Resolution

/-!
# Own-media synchronization

One pass over a connected account reads its media newest first, page by page, into a run
whose items have no authority, and a completed traversal becomes the account's visible
set in one transaction. A pass is a script: it commits after every statement or
transaction of the source, and between two of them the account can change, another pass
of another account can commit, or the process can die.
-/

namespace InstagramArchive

open Relational Relational.Tx

/-- Finite policy for one scheduler pass and one account traversal. -/
structure OwnMediaSyncConfig where
  enabled : Bool := true
  cadenceSeconds : Nat
  accountsPerTick : Nat := 1
  pagesPerRun : Nat
  callBudget : Nat
  deriving DecidableEq, Repr

/-- One strictly bounded connected-account media observation. -/
structure ProviderOwnMediaItem where
  providerMediaId : String
  ownerProviderAccountId : String
  mediaType : String
  mediaProductType : String
  permalink : String
  caption : Option String
  publishedAt : Instant
  mediaUrl : Option String := none
  thumbnailUrl : Option String := none
  deriving DecidableEq, Repr

/-- One accepted provider page plus exact raw evidence bytes. -/
structure ProviderOwnMediaPage where
  items : List ProviderOwnMediaItem
  nextCursor : Option String
  rawBody : String
  deriving DecidableEq, Repr

inductive ProviderFailureClass where
  | authentication
  | validation
  | rateLimited
  | server
  | network
  | responseRefused
  | unsupported
  deriving DecidableEq, Repr

structure ProviderError where
  failureClass : ProviderFailureClass
  httpStatus : Option Nat := none
  deriving DecidableEq, Repr

/-- `list_own_media_page`. -/
structure OwnMediaRequest where
  providerAccountId : String
  accessToken : String
  after : Option String
  deriving DecidableEq, Repr

abbrev OwnMediaAnswer := Except ProviderError ProviderOwnMediaPage

/-- The keyring that opens a stored access token for its account. -/
structure CredentialKeyring where
  openAccess : Uuid → List UInt8 → Option String
  sealAccess : Uuid → String → Option (List UInt8)
  currentVersion : Nat

/-- Closed result of one account job. -/
inductive OwnMediaSyncOutcome where
  | capabilityNoop (runId : Uuid) (reason : CapabilityReason)
  | completed (runId : Uuid) (watermark : Option String)
  | retryable (runId : Uuid) (nextCursor : Option String)
  deriving DecidableEq, Repr

/-- Redacted own-media job failure. -/
inductive OwnMediaSyncError where
  | unavailable
  | database (error : SqlError)
  | crypto
  | budget (error : BudgetError)
  | provider (error : ProviderError)
  | publish (error : PublishError)
  | malformedMetadata
  deriving DecidableEq, Repr

instance : OfSql OwnMediaSyncError := ⟨.database⟩

/-- What a pass leaves behind when it commits. -/
inductive SyncEvent where
  | noop (accountId runId : Uuid)
  | opened (accountId runId generationId : Uuid)
  | resumed (runId : Uuid)
  /-- A page that was asked for at a cursor and persisted. -/
  | accepted (runId : Uuid) (cursor : Option String) (page : ProviderOwnMediaPage)
  | suspended (runId : Uuid)
  | completed (runId : Uuid) (watermark : Option String)
  | closed (runId : Uuid)
  deriving DecidableEq, Repr

abbrev SyncTx := ArchiveTx OwnMediaSyncError
abbrev SyncScript :=
  Script Db OwnMediaSyncError OwnMediaRequest OwnMediaAnswer SyncEvent

/-! ## The run table -/

/-- The runs that hold the account's active slot. -/
def SyncRun.activeFor (accountId : Uuid) (r : SyncRun) : Bool :=
  r.accountId = accountId && r.status.active

def activeRun (accountId : Uuid) (db : Db) : Option SyncRun :=
  db.syncRuns.rows.find? (SyncRun.activeFor accountId)

/-- `own_media_sync_runs_one_active_per_account` and the reference to the account. -/
def runGuard (row : SyncRun) (db : Db) : Option SqlError :=
  if row.status.active && (activeRun row.accountId db).isSome then
    some (.uniqueViolation "own_media_sync_runs_one_active_per_account")
  else if (db.accounts.lookup row.accountId).isNone then
    some (.foreignKeyViolation "own_media_sync_runs_account_id_fkey")
  else none

def insertRun (row : SyncRun) : SyncTx Unit :=
  insertInto "own_media_sync_runs_pkey" Db.syncRuns (fun db t => { db with syncRuns := t })
    (runGuard row) row

/-- Rewrites runs; the key and the account of a run never change. -/
def updateRuns (p : SyncRun → Bool) (f : SyncRun → SyncRun)
    (hf : ∀ r, (f r).runId = r.runId := by intro; rfl) (db : Db) : Db :=
  { db with syncRuns := db.syncRuns.update p f hf }

/-- The run while it is `running`. -/
def SyncRun.runningAs (runId : Uuid) (r : SyncRun) : Bool :=
  r.runId = runId && r.status = .running

def resumeRun (runId : Uuid) (now : Instant) : Db → Db :=
  updateRuns (fun r => r.runId = runId && r.status = .retryable)
    fun r => { r with status := .running, outcomeReason := none, updatedAt := now }

def suspendRun (runId : Uuid) (reason : SyncRunReason) (now : Instant) : Db → Db :=
  updateRuns (SyncRun.runningAs runId)
    fun r => { r with status := .retryable, outcomeReason := some reason, updatedAt := now }

/-! ## Visible authority -/

/-- The visible watermark; an absent state row and a null watermark read the same. -/
def syncWatermark (accountId : Uuid) (db : Db) : Option String :=
  (db.syncStates.lookup accountId).bind SyncState.watermark

def syncAuthority (accountId : Uuid) (db : Db) : Option Uuid :=
  (db.syncAuthorities.lookup accountId).map SyncAuthority.runId

def runItems (runId : Uuid) (db : Db) : List SyncItem :=
  db.syncItems.rows.filter fun i => i.runId = runId

/-- The items the authority makes visible. -/
def visibleItems (accountId : Uuid) (db : Db) : List SyncItem :=
  match syncAuthority accountId db with
  | some runId => runItems runId db
  | none => []

def stateGuard (row : SyncState) (db : Db) : Option SqlError :=
  if (db.accounts.lookup row.accountId).isNone then
    some (.foreignKeyViolation "own_media_sync_state_account_id_fkey")
  else if row.lastRunId.any fun id => (db.syncRuns.lookup id).isNone then
    some (.foreignKeyViolation "own_media_sync_state_last_run_id_fkey")
  else none

def writeState (row : SyncState) : SyncTx Unit :=
  executeChecked (stateGuard row) fun db => { db with syncStates := db.syncStates.upsert row }

/-! ## Capability gate -/

/-- The join of an account with its `own_media_read` capability. -/
structure CapabilityRead where
  userRef : Uuid
  providerAccountId : String
  generationId : Uuid
  connectionStatus : ConnectionStatus
  capabilityState : CapabilityState
  reason : CapabilityReason
  deriving DecidableEq, Repr

def readCapability (accountId : Uuid) (db : Db) : Option CapabilityRead := do
  let account ← db.accounts.lookup accountId
  let capability ← db.accountCapabilities.lookup (accountId, .ownMediaRead)
  return { userRef := account.userRef
           providerAccountId := account.providerAccountId
           generationId := capability.generationId
           connectionStatus := account.connectionStatus
           capabilityState := capability.capabilityState
           reason := capability.reason }

def CapabilityRead.eligible (read : CapabilityRead) : Bool :=
  read.connectionStatus = .connected && read.capabilityState = .available

def CapabilityRead.noopReason (read : CapabilityRead) : CapabilityReason :=
  match read.connectionStatus with
  | .reauthorizationRequired => .reauthorizationRequired
  | .revoked => .revoked
  | _ => read.reason

/-- The capability reasons a run row may carry; `own_media_sync_runs_reason_check` refuses
the others. -/
def CapabilityReason.runReason : CapabilityReason → Option SyncRunReason
  | .accountTypeUnsupported => some .accountTypeUnsupported
  | .permissionDeclined => some .permissionDeclined
  | .permissionExpired => some .permissionExpired
  | .permissionAbsent => some .permissionAbsent
  | .permissionUnknown => some .permissionUnknown
  | .reauthorizationRequired => some .reauthorizationRequired
  | .revoked => some .revoked
  | _ => none

/-- The greatest `i64`. -/
def i64Max : Nat := 2 ^ 63 - 1

def nextDueAt (config : OwnMediaSyncConfig) (now : Instant) : Except OwnMediaSyncError Instant :=
  if config.cadenceSeconds ≤ i64Max then .ok (now + seconds config.cadenceSeconds)
  else .error .malformedMetadata

/-- Closes the account's stale runs. -/
def closeActiveRuns (accountId : Uuid) (now : Instant) : Db → Db :=
  updateRuns (SyncRun.activeFor accountId) fun r =>
    { r with status := .failed, outcomeReason := some .capabilityChanged, updatedAt := now,
             finishedAt := some now }

/-- The state row after a no-op: the watermark stays. -/
def noopState (accountId runId : Uuid) (due now : Instant) (prior : Option SyncState) : SyncState :=
  { accountId, watermark := prior.bind SyncState.watermark, nextDueAt := due,
    lastRunId := some runId, lastOutcome := some .capabilityNoop, updatedAt := now }

/-- Records that the current capability prevented provider contact. -/
def recordNoop (config : OwnMediaSyncConfig) (accountId : Uuid) (read : CapabilityRead)
    (now : Instant) : SyncTx Uuid := do
  let runId ← nowV7
  let due ← ofExcept (nextDueAt config now)
  match read.noopReason.runReason with
  | none => Tx.throw (.database (.checkViolation "own_media_sync_runs_reason_check"))
  | some reason =>
    execute (closeActiveRuns accountId now)
    insertRun
      { runId, accountId, userRef := read.userRef, capabilityGenerationId := read.generationId,
        status := .capabilityNoop, outcomeReason := some reason, startedAt := now, updatedAt := now,
        finishedAt := some now }
    let prior ← query fun db => db.syncStates.lookup accountId
    writeState (noopState accountId runId due now prior)
    commit
    return runId

/-! ## Opening a run -/

/-- The connected account with its stored credential. -/
def readCredential (accountId userRef : Uuid) (db : Db) : Option (String × List UInt8) := do
  let account ← db.accounts.lookup accountId
  let credential ← db.credentials.rows.find? fun c => c.accountId = accountId
  if account.userRef = userRef ∧ account.connectionStatus = .connected then
    return (account.providerAccountId, credential.accessTokenEnvelope)
  else none

/-- Copies the visible items into a new run. -/
def copyVisible (accountId runId : Uuid) : SyncTx Unit := statement fun db =>
  match db.syncItems.insertAll? ((visibleItems accountId db).map fun i => { i with runId }) with
  | some t => .ok ((), { db with syncItems := t })
  | none => .error (.uniqueViolation "own_media_sync_items_pkey")

def openRun (accountId userRef generationId : Uuid) (watermark : Option String) (now : Instant) :
    SyncTx Uuid := do
  let runId ← nowV7
  insertRun
    { runId, accountId, userRef, capabilityGenerationId := generationId,
      startWatermark := watermark, status := .running, startedAt := now, updatedAt := now }
  copyVisible accountId runId
  commit
  return runId

/-! ## Persisting a page -/

def normalizedMediaType (item : ProviderOwnMediaItem) : MediaType :=
  if item.mediaType = "VIDEO" ∧ item.mediaProductType = "REELS" then .reel
  else if item.mediaType = "IMAGE" then .image
  else if item.mediaType = "VIDEO" then .video
  else if item.mediaType = "CAROUSEL_ALBUM" then .carousel
  else .unknown

def SyncItem.observed (runId rawRecordId : Uuid) (now : Instant) (item : ProviderOwnMediaItem) :
    SyncItem :=
  { runId
    providerMediaId := item.providerMediaId
    ownerProviderAccountId := item.ownerProviderAccountId
    mediaType := normalizedMediaType item
    permalink := item.permalink
    caption := item.caption
    publishedAt := item.publishedAt
    mediaUrl := item.mediaUrl
    thumbnailUrl := item.thumbnailUrl
    rawRecordId
    observedAt := now }

def itemGuard (row : SyncItem) (db : Db) : Option SqlError :=
  if row.mediaType = .unknown ∨ row.mediaType = .story then
    some (.checkViolation "own_media_sync_items_media_type_check")
  else if (db.syncRuns.lookup row.runId).isNone then
    some (.foreignKeyViolation "own_media_sync_items_run_id_fkey")
  else if (db.rawRecords.lookup row.rawRecordId).isNone then
    some (.foreignKeyViolation "own_media_sync_items_raw_record_id_fkey")
  else none

/-- `on conflict (run_id, provider_media_id) do update`. -/
def stageItem (row : SyncItem) : SyncTx Unit :=
  executeChecked (itemGuard row) fun db => { db with syncItems := db.syncItems.upsert row }

def stageItems (runId rawRecordId : Uuid) (providerAccountId : String) (now : Instant) :
    List ProviderOwnMediaItem → SyncTx Unit
  | [] => return ()
  | item :: rest => do
    if item.ownerProviderAccountId ≠ providerAccountId then Tx.throw .malformedMetadata
    else
      stageItem (SyncItem.observed runId rawRecordId now item)
      stageItems runId rawRecordId providerAccountId now rest

/-- The evidence of one page. -/
def rawPage (lib : Externals) (body : String) (now : Instant) (rawRecordId : Uuid) : RawRecord :=
  { rawRecordId
    recordKind := .apiResponse
    blobRef := hexEncode (lib.sha256 body)
    contentHash := lib.sha256 body
    byteSize := body.utf8ByteSize
    body
    observedAt := now }

def recordPage (runId : Uuid) (page : ProviderOwnMediaPage) (candidate : Option String)
    (now : Instant) : Db → Db :=
  updateRuns (SyncRun.runningAs runId) fun r =>
    { r with
      nextCursor := page.nextCursor
      candidateWatermark := r.candidateWatermark <|> candidate
      pageCount := r.pageCount + 1
      itemCount := r.itemCount + page.items.length
      updatedAt := now }

def persistPage (lib : Externals) (runId : Uuid) (providerAccountId : String)
    (page : ProviderOwnMediaPage) (candidate : Option String) (now : Instant) : SyncTx Unit := do
  if i64Max < page.rawBody.utf8ByteSize then Tx.throw .malformedMetadata
  else
    let rawRecordId ← nowV7
    insertInto "raw_records_pkey" Db.rawRecords (fun db t => { db with rawRecords := t })
      (fun _ => none) (rawPage lib page.rawBody now rawRecordId)
    stageItems runId rawRecordId providerAccountId now page.items
    execute (recordPage runId page candidate now)
    commit

/-! ## Completing a run -/

/-- A row other than the given one with the permalink. -/
def permalinkTaken (mediaId : Uuid) (permalink : String) (db : Db) : Bool :=
  db.media.rows.any fun m => m.permalink = permalink && m.mediaId ≠ mediaId

def officialMediaGuard (row : Media) (db : Db) : Option SqlError :=
  if row.providerMediaId.any fun id => (mediaByProvider id db).isSome then
    some (.uniqueViolation "media_provider_media_id_key")
  else if permalinkTaken row.mediaId row.permalink db then
    some (.uniqueViolation "media_permalink_key")
  else if row.accountId.any fun id => (db.accounts.lookup id).isNone then
    some (.foreignKeyViolation "media_account_id_fkey")
  else none

def newOfficialMedia (accountId mediaId : Uuid) (item : SyncItem) (now : Instant) : Media :=
  { mediaId
    accountId := some accountId
    providerMediaId := some item.providerMediaId
    permalink := item.permalink
    mediaType := item.mediaType
    caption := item.caption
    publishedAt := some item.publishedAt
    acquisitionMethod := .officialApi
    savedAuthority := .authoritativePlatformState
    upstreamStatus := .available
    createdAt := now
    updatedAt := now }

def claimOfficialMedia (accountId : Uuid) (item : SyncItem) (now : Instant) (m : Media) : Media :=
  { m with
    accountId := some accountId
    permalink := item.permalink
    mediaType := item.mediaType
    caption := item.caption
    publishedAt := some item.publishedAt
    acquisitionMethod := .officialApi
    savedAuthority := .authoritativePlatformState
    upstreamStatus := .available
    updatedAt := now }

def updateOfficialMedia (accountId mediaId : Uuid) (item : SyncItem) (now : Instant) :
    SyncTx Unit :=
  executeChecked
    (fun db => if permalinkTaken mediaId item.permalink db then
        some (.uniqueViolation "media_permalink_key")
      else if (db.accounts.lookup accountId).isNone then
        some (.foreignKeyViolation "media_account_id_fkey")
      else none)
    fun db => { db with
      media := db.media.update (fun m => m.mediaId = mediaId)
        (claimOfficialMedia accountId item now) }

/-- The media row of a staged item: found by its provider identity or inserted. -/
def officialMediaId (accountId : Uuid) (item : SyncItem) : SyncTx Uuid := do
  match ← query (mediaByProvider item.providerMediaId) with
  | some m => return m.mediaId
  | none =>
    let mediaId ← nowV7
    let createdAt ← Tx.now
    let row := newOfficialMedia accountId mediaId item createdAt
    insertInto "media_pkey" Db.media (fun db t => { db with media := t }) (officialMediaGuard row)
      row
    return mediaId

def ownMediaParserVersion : String := "official-own-media-v1"

def applyStagedItem (accountId : Uuid) (now : Instant) (item : SyncItem) : SyncTx Unit := do
  let mediaId ← officialMediaId accountId item
  updateOfficialMedia accountId mediaId item now
  let revisionId ← nowV7
  let revision : MediaRevision :=
    { revisionId, mediaId, rawRecordId := item.rawRecordId, parserVersion := ownMediaParserVersion,
      resolvedAt := now }
  insertInto "media_revisions_pkey" Db.mediaRevisions (fun db t => { db with mediaRevisions := t })
    (revisionGuard revision) revision
  execute (setCurrentRevision mediaId revisionId)

def applyStagedItems (accountId : Uuid) (now : Instant) : List SyncItem → SyncTx Unit
  | [] => return ()
  | item :: rest => do
    applyStagedItem accountId now item
    applyStagedItems accountId now rest

def authorityGuard (row : SyncAuthority) (db : Db) : Option SqlError :=
  if (db.accounts.lookup row.accountId).isNone then
    some (.foreignKeyViolation "own_media_authority_account_id_fkey")
  else if (db.syncRuns.lookup row.runId).isNone then
    some (.foreignKeyViolation "own_media_authority_run_id_fkey")
  else none

def writeAuthority (row : SyncAuthority) : SyncTx Unit :=
  executeChecked (authorityGuard row)
    fun db => { db with syncAuthorities := db.syncAuthorities.upsert row }

def failRun (runId : Uuid) (now : Instant) : Db → Db :=
  updateRuns (fun r => r.runId = runId) fun r =>
    { r with status := .failed, outcomeReason := some .capabilityChanged, updatedAt := now,
             finishedAt := some now }

def completeRun (runId : Uuid) (now : Instant) : Db → Db :=
  updateRuns (SyncRun.runningAs runId) fun r =>
    { r with status := .completed, outcomeReason := some .completed, nextCursor := none,
             updatedAt := now, finishedAt := some now }

/-- What a pass knows about its account. -/
structure SyncContext where
  accountId : Uuid
  userRef : Uuid
  generationId : Uuid
  providerAccountId : String
  deriving DecidableEq, Repr

/-- The account and its capability are still what the pass started from. -/
def SyncContext.current (ctx : SyncContext) (read : Option CapabilityRead) : Bool :=
  read.any fun r => r.userRef = ctx.userRef && r.providerAccountId = ctx.providerAccountId &&
    r.connectionStatus = .connected && r.generationId = ctx.generationId &&
    r.capabilityState = .available

/-- Makes the run authoritative, or closes it when the account changed meanwhile: whether
it completed. -/
def finalizeRun (lib : Externals) (config : OwnMediaSyncConfig) (ctx : SyncContext) (runId : Uuid)
    (candidate : Option String) (now : Instant) : SyncTx Bool := do
  let due ← ofExcept (nextDueAt config now)
  let read ← query (readCapability ctx.accountId)
  if !ctx.current read then
    execute (failRun runId now)
    commit
    return false
  else
    let staged ← query (stagedItems runId)
    applyStagedItems ctx.accountId now staged
    let _ ← mapError .publish (appendOwnMediaFacts lib runId ctx.userRef candidate now)
    writeAuthority { accountId := ctx.accountId, runId, activatedAt := now }
    writeState
      { accountId := ctx.accountId, watermark := candidate, nextDueAt := due,
        lastRunId := some runId, lastOutcome := some .completed, updatedAt := now }
    execute (completeRun runId now)
    commit
    return true

/-! ## The pass -/

def ProviderFailureClass.usageOutcome : ProviderFailureClass → UsageOutcome
  | .authentication => .authentication
  | .validation => .validation
  | .rateLimited => .rateLimited
  | .server => .server
  | .network => .network
  | .responseRefused => .responseRefused
  | .unsupported => .providerUnsupported

def isRetryable : ProviderFailureClass → Bool
  | .network | .rateLimited | .server => true
  | _ => false

def finishAttempt (budget : ProviderBudget) (reservation : UsageReservation)
    (answer : OwnMediaAnswer) (now : Instant) : SyncTx Unit :=
  mapError .budget (match answer with
    | .ok _ => budget.complete reservation .succeeded none now
    | .error e => budget.complete reservation e.failureClass.usageOutcome e.httpStatus now)

/-- A retryable failure suspends the run, any other closes it. -/
def markProviderFailure (runId : Uuid) (error : ProviderError) (now : Instant) : Db → Db :=
  if isRetryable error.failureClass then suspendRun runId .providerRetryable now
  else updateRuns (SyncRun.runningAs runId) fun r =>
    { r with status := .failed, outcomeReason := some .responseRefused, updatedAt := now,
             finishedAt := some now }

/-- What a pass carries around its page loop. -/
structure Walk where
  runId : Uuid
  oldWatermark : Option String
  candidate : Option String
  nextCursor : Option String
  deriving DecidableEq, Repr

/-- The candidate is the first item of the first page that has one. -/
def Walk.candidateAfter (walk : Walk) (page : ProviderOwnMediaPage) : Option String :=
  walk.candidate <|> page.items.head?.map ProviderOwnMediaItem.providerMediaId

def Walk.reached (walk : Walk) (page : ProviderOwnMediaPage) : Bool :=
  walk.oldWatermark.any fun w => page.items.any fun i => i.providerMediaId = w

/-- A traversal is complete at its old watermark, or without one at the end of the feed. -/
def Walk.completes (walk : Walk) (page : ProviderOwnMediaPage) : Bool :=
  walk.reached page || (walk.oldWatermark.isNone && page.nextCursor.isNone)

def Walk.after (walk : Walk) (page : ProviderOwnMediaPage) : Walk :=
  { walk with candidate := walk.candidateAfter page, nextCursor := page.nextCursor }

/-- Leaves the run resumable and ends the pass. -/
def stopRetryable (walk : Walk) (reason : SyncRunReason) (now : Instant) :
    SyncScript OwnMediaSyncOutcome := do
  Script.emit (execute (suspendRun walk.runId reason now)) fun _ => some (.suspended walk.runId)
  return .retryable walk.runId walk.nextCursor

def complete (lib : Externals) (config : OwnMediaSyncConfig) (ctx : SyncContext) (walk : Walk)
    (now : Instant) : SyncScript OwnMediaSyncOutcome := do
  let committed ← Script.emit (finalizeRun lib config ctx walk.runId walk.candidate now)
    fun committed => some (if committed then .completed walk.runId walk.candidate
      else .closed walk.runId)
  if committed then return .completed walk.runId walk.candidate
  else Script.fail .unavailable

def refuse (walk : Walk) (error : ProviderError) (now : Instant) :
    SyncScript OwnMediaSyncOutcome := do
  Script.emit (execute (markProviderFailure walk.runId error now))
    fun _ => some (if isRetryable error.failureClass then .suspended walk.runId
      else .closed walk.runId)
  if isRetryable error.failureClass then return .retryable walk.runId walk.nextCursor
  else Script.fail (.provider error)

/-- The page loop, at most `pages` pages long. -/
def traverse (lib : Externals) (config : OwnMediaSyncConfig) (ctx : SyncContext) (token : String)
    (now : Instant) : (pages : Nat) → ProviderBudget → Walk → SyncScript OwnMediaSyncOutcome
  | 0, _, walk => stopRetryable walk .pageLimit now
  | pages + 1, budget, walk =>
    if budget.exhausted then stopRetryable walk .budgetExhausted now
    else do
      let (reservation, budget) ←
        Script.tx (mapError .budget (budget.reserve .ownMediaPage now))
      let answer ← Script.request ⟨ctx.providerAccountId, token, walk.nextCursor⟩
      Script.tx (finishAttempt budget reservation answer now)
      match answer with
      | .error error => refuse walk error now
      | .ok page =>
        Script.emit (persistPage lib walk.runId ctx.providerAccountId page
            (walk.candidateAfter page) now)
          fun _ => some (.accepted walk.runId walk.nextCursor page)
        if walk.completes page then complete lib config ctx (walk.after page) now
        else if page.nextCursor.isNone then stopRetryable (walk.after page) .pageLimit now
        else traverse lib config ctx token now pages budget (walk.after page)

/-- Resumes the account's active run. A run of another capability generation is refused and
left as it is. -/
def resumeActive (lib : Externals) (config : OwnMediaSyncConfig) (ctx : SyncContext)
    (token : String) (now : Instant) (run : SyncRun) : SyncScript OwnMediaSyncOutcome :=
  if run.capabilityGenerationId ≠ ctx.generationId then Script.fail .unavailable
  else do
    Script.emit (execute (resumeRun run.runId now)) fun _ => some (.resumed run.runId)
    let budget ← Script.tx (mapError .budget
      (ProviderBudget.resume run.runId (some ctx.accountId) config.callBudget))
    traverse lib config ctx token now config.pagesPerRun budget
      ⟨run.runId, run.startWatermark, run.candidateWatermark, run.nextCursor⟩

def startFresh (lib : Externals) (config : OwnMediaSyncConfig) (ctx : SyncContext)
    (token : String) (now : Instant) : SyncScript OwnMediaSyncOutcome := do
  let watermark ← Script.tx (query (syncWatermark ctx.accountId))
  let runId ← Script.emit (openRun ctx.accountId ctx.userRef ctx.generationId watermark now)
    fun runId => some (.opened ctx.accountId runId ctx.generationId)
  traverse lib config ctx token now config.pagesPerRun
    (ProviderBudget.new runId (some ctx.accountId) config.callBudget)
    ⟨runId, watermark, none, none⟩

def runEligible (lib : Externals) (keys : CredentialKeyring) (config : OwnMediaSyncConfig)
    (accountId userRef generationId : Uuid) (now : Instant) : SyncScript OwnMediaSyncOutcome := do
  match ← Script.tx (query (readCredential accountId userRef)) with
  | none => Script.fail .unavailable
  | some (providerAccountId, envelope) =>
    match keys.openAccess accountId envelope with
    | none => Script.fail .crypto
    | some token =>
      let ctx : SyncContext := { accountId, userRef, generationId, providerAccountId }
      match ← Script.tx (query (activeRun accountId)) with
      | some run => resumeActive lib config ctx token now run
      | none => startFresh lib config ctx token now

/-- Runs one account job after evaluating its complete current capability generation. -/
def runAccountOnce (lib : Externals) (keys : CredentialKeyring) (config : OwnMediaSyncConfig)
    (accountId : Uuid) (now : Instant) : SyncScript OwnMediaSyncOutcome := do
  match ← Script.tx (query (readCapability accountId)) with
  | none => Script.fail .unavailable
  | some read =>
    if read.eligible then
      runEligible lib keys config accountId read.userRef read.generationId now
    else
      let runId ← Script.emit (recordNoop config accountId read now)
        fun runId => some (.noop accountId runId)
      return .capabilityNoop runId read.noopReason

end InstagramArchive

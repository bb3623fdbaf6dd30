import InstagramArchive.BlobErasure
import InstagramArchive.DataExportWorker
import InstagramArchive.ProviderCalls
import InstagramArchive.Relational.Programs
import InstagramArchive.System

/-!
# The whole service

The capture lane is the system of `System`. The other lanes are programs of several
transactions: account programs and own-media passes, import jobs, deletion requests and the
erasure of stored objects. Any number of them run at once over one database, and the
transactions of authorizations, revocations and receipts come in between. `Service.Runs` is the
transaction an action commits outside the capture lane, `ServiceTx` lists the transactions these
lanes have, and `serviceStep_cases` says that nothing else changes the database.
-/

namespace InstagramArchive

open Relational Relational.Tx

/-! ## Deletion requests -/

abbrev DeletionScript := Script Db PrivacyDeletionError Empty Unit Empty

/-- `DeletionStore::apply`: the stored operation is read before the transaction begins. -/
def applyRequest (lib : Externals) (request : DeletionRequest) : DeletionScript DeletionResult := do
  match ← Script.tx (query (loadExisting request)) with
  | some (.ok result) => return result
  | some (.error e) => Script.fail e
  | none => Script.tx (applyNewDeletion lib request)

/-! ## Programs -/

/-- A program of the service between two of its transactions. -/
inductive Job where
  | call (program : Program)
  | importing (script : DataExport.ImportScript Unit)
  | erasure (script : BlobScript BlobDeletionTaskOutcome)
  | deletion (script : DeletionScript DeletionResult)

/-- What programs are asked to do. -/
inductive Task where
  | connect (keys : CredentialKeyring) (userRef : Uuid) (relayId redirectUri : String)
      (callBudget discoveryRetries : Nat) (now : Instant)
  | refresh (keys : CredentialKeyring) (accountId userRef : Uuid)
      (callBudget discoveryRetries : Nat) (refreshSupported : Bool) (now : Instant)
  | sync (keys : CredentialKeyring) (config : OwnMediaSyncConfig) (accountId : Uuid)
      (now : Instant)
  | importing (job : DataExport.ImportJob)
  | erase (taskId : Uuid)
  | delete (request : DeletionRequest)

def Task.job (lib : Externals) : Task → Job
  | .connect keys userRef relayId redirectUri callBudget discoveryRetries now =>
    .call (.completion (Lifecycle.completeOfficialOauth lib keys userRef relayId redirectUri
      callBudget discoveryRetries now))
  | .refresh keys accountId userRef callBudget discoveryRetries refreshSupported now =>
    .call (.refresh (Lifecycle.refreshOfficialAccount lib keys accountId userRef callBudget
      discoveryRetries refreshSupported now))
  | .sync keys config accountId now => .call (.pass (runAccountOnce lib keys config accountId now))
  | .importing job => .importing (job.script lib)
  | .erase taskId => .erasure (processBlobDeletionTask lib taskId)
  | .delete request => .deletion (applyRequest lib request)

/-- What the relay, the providers, the archive files and the object store answer at one
moment. -/
structure Answers where
  provider : ProviderAnswers
  file : DataExport.FileAnswer
  object : Except BlobDeletionFailure Unit

def Job.advance (env : Env) (answers : Answers) (db : Db) : Job → Job × Db
  | .call program =>
    (.call (program.advance env answers.provider db).1,
      (program.advance env answers.provider db).2.1)
  | .importing script =>
    (.importing (script.advance env answers.file db).1, (script.advance env answers.file db).2.1)
  | .erasure script =>
    (.erasure (script.advance env answers.object db).1, (script.advance env answers.object db).2.1)
  | .deletion script =>
    (.deletion (script.advance env () db).1, (script.advance env () db).2.1)

/-! ## The system -/

structure Service where
  archive : System := {}
  jobs : List Job := []

def Service.db (s : Service) : Db := s.archive.db

inductive ServiceAction where
  | archive (action : Action)
  | beginOauth (env : Env) (userRef : Uuid) (stateHash redirectUriHash : List UInt8)
      (ttlSeconds : Nat) (now : Instant)
  | revoke (env : Env) (accountId userRef : Uuid) (outcome : ProviderRevokeOutcome)
      (now : Instant)
  /-- The transaction of a receipt whose object is stored. -/
  | receive (env : Env) (owner : Uuid) (digest : List UInt8) (byteSize : Nat)
  | begin (task : Task)
  /-- A program commits its next transaction, or is answered. -/
  | advance (env : Env) (answers : Answers) (job : Nat)

def Service.withDb (s : Service) (db : Db) : Service :=
  { s with archive := { s.archive with db } }

def serviceStep (lib : Externals) (s : Service) : ServiceAction → Service
  | .archive action => { s with archive := step lib s.archive action }
  | .beginOauth env userRef stateHash redirectUriHash ttlSeconds now =>
    s.withDb ((beginOfficialOauth userRef stateHash redirectUriHash ttlSeconds now).exec env
      s.db).2
  | .revoke env accountId userRef outcome now =>
    s.withDb ((scrubRevokedAccount accountId userRef outcome now).exec env s.db).2
  | .receive env owner digest byteSize =>
    s.withDb ((DataExport.persistReceipt owner (DataExport.storedArchive digest byteSize)).exec env
      s.db).2
  | .begin task => { s with jobs := s.jobs ++ [task.job lib] }
  | .advance env answers i =>
    match s.jobs[i]? with
    | none => s
    | some job =>
      { s.withDb (job.advance env answers s.db).2 with
        jobs := s.jobs.set i (job.advance env answers s.db).1 }

/-! ## Its transactions -/

/-- The transactions outside the capture lane. -/
inductive ServiceTx (lib : Externals) : {ε α : Type} → Tx Db ε α → Prop
  | query {ε α : Type} [OfSql ε] (f : Db → α) : ServiceTx lib (query f : Tx Db ε α)
  | fetchOne {ε α : Type} [OfSql ε] (e : ε) (f : Db → Option α) :
      ServiceTx lib (fetchOne e f : Tx Db ε α)
  | nowV7 {ε : Type} : ServiceTx lib (nowV7 : Tx Db ε Uuid)
  | mapError {ε ε' α : Type} {x : Tx Db ε α} (g : ε → ε') (h : ServiceTx lib x) :
      ServiceTx lib (mapError g x)
  | attempt {ε ε' α : Type} {x : Tx Db ε α} (h : ServiceTx lib x) :
      ServiceTx lib (attempt x : Tx Db ε' (Except ε α))
  | reserve (budget : ProviderBudget) (requestClass : RequestClass) (now : Instant) :
      ServiceTx lib (budget.reserve requestClass now)
  | complete (budget : ProviderBudget) (reservation : UsageReservation) (outcome : UsageOutcome)
      (httpStatus : Option Nat) (now : Instant) :
      ServiceTx lib (budget.complete reservation outcome httpStatus now)
  | resumeBudget (operationId : Uuid) (accountId : Option Uuid) (limit : Nat) :
      ServiceTx lib (ProviderBudget.resume operationId accountId limit)
  | beginOauth (userRef : Uuid) (stateHash redirectUriHash : List UInt8) (ttlSeconds : Nat)
      (now : Instant) :
      ServiceTx lib (beginOfficialOauth userRef stateHash redirectUriHash ttlSeconds now)
  | claimOauth (userRef : Uuid) (stateHash redirectUriHash : List UInt8) (now : Instant) :
      ServiceTx lib (claimOauthFlow userRef stateHash redirectUriHash now)
  | connect (keys : CredentialKeyring) (userRef candidate : Uuid) (account : ProviderAccount)
      (permissions : PermissionStatuses) (token : ProviderToken) (now : Instant) :
      ServiceTx lib (connectOfficialAccount lib keys userRef candidate account permissions token
        now)
  | refresh (accountId userRef : Uuid) (account : ProviderAccount)
      (permissions : PermissionStatuses) (envelope : List UInt8) (keyVersion : Nat)
      (expiresAt : Option Instant) (now : Instant) :
      ServiceTx lib (refreshOfficialAccount lib accountId userRef account permissions envelope
        keyVersion expiresAt now)
  | reauthorize (accountId userRef : Uuid) (now : Instant) :
      ServiceTx lib (markReauthorizationRequired accountId userRef now)
  | scrub (accountId userRef : Uuid) (outcome : ProviderRevokeOutcome) (now : Instant) :
      ServiceTx lib (scrubRevokedAccount accountId userRef outcome now)
  | noop (config : OwnMediaSyncConfig) (accountId : Uuid) (read : CapabilityRead) (now : Instant) :
      ServiceTx lib (recordNoop config accountId read now)
  | openRun (accountId userRef generationId : Uuid) (watermark : Option String) (now : Instant) :
      ServiceTx lib (openRun accountId userRef generationId watermark now)
  | resumeRun (runId : Uuid) (now : Instant) :
      ServiceTx lib (execute (resumeRun runId now) : SyncTx Unit)
  | suspendRun (runId : Uuid) (reason : SyncRunReason) (now : Instant) :
      ServiceTx lib (execute (suspendRun runId reason now) : SyncTx Unit)
  | providerFailure (runId : Uuid) (error : ProviderError) (now : Instant) :
      ServiceTx lib (execute (markProviderFailure runId error now) : SyncTx Unit)
  | page (runId : Uuid) (providerAccountId : String) (page : ProviderOwnMediaPage)
      (candidate : Option String) (now : Instant) :
      ServiceTx lib (persistPage lib runId providerAccountId page candidate now)
  | finalize (config : OwnMediaSyncConfig) (ctx : SyncContext) (runId : Uuid)
      (candidate : Option String) (now : Instant) :
      ServiceTx lib (finalizeRun lib config ctx runId candidate now)
  | receipt (owner : Uuid) (digest : List UInt8) (byteSize : Nat) :
      ServiceTx lib (DataExport.persistReceipt owner (DataExport.storedArchive digest byteSize))
  | inspected (runId : Uuid) (failure : Option DataExport.ArchiveFailureClass) :
      ServiceTx lib (DataExport.finishInspection runId failure)
  | parsed (runId : Uuid) (parsed : DataExport.ParsedExport)
      (found : Except DataExport.ArchiveFailureClass DataExport.ArchiveFile)
      (h : DataExport.parseFile lib found = .ok parsed) :
      ServiceTx lib (DataExport.persistParsed lib runId parsed)
  | unparsed (runId : Uuid) (failureClass : String) :
      ServiceTx lib (DataExport.failParse runId failureClass)
  | reconcile (runId : Uuid) : ServiceTx lib (DataExport.reconcile lib runId)
  | keepTask (operationId : Uuid) : ServiceTx lib (do
      let now ← Tx.now
      execute (pendBlobDeletion operationId now) : ArchiveTx SqlError Unit)
  | completeTask (taskId : Uuid) :
      ServiceTx lib (execute (completeTask taskId) : ArchiveTx SqlError Unit)
  | completeOperation (operationId : Uuid) : ServiceTx lib (do
      let now ← Tx.now
      execute (completeOperation operationId now) : ArchiveTx SqlError Unit)
  | delete (request : DeletionRequest) : ServiceTx lib (applyNewDeletion lib request)

def Job.Each (S : ∀ {ε α : Type}, Tx Db ε α → Prop) : Job → Prop
  | .call (.completion script) => script.Each S
  | .call (.refresh script) => script.Each S
  | .call (.pass script) => script.Each S
  | .importing script => script.Each S
  | .erasure script => script.Each S
  | .deletion script => script.Each S

/-! ### Account programs -/

namespace Lifecycle

section Programs

variable {lib : Externals} {ε α : Type} {budgetError : BudgetError → ε}

theorem attempt_each (call : ProviderCall α) (now : Instant) (budget : ProviderBudget) :
    (attempt budgetError call now budget).Each (ServiceTx lib) := by
  refine .bind (.tx (.mapError _ (.reserve budget call.requestClass now))) ?_
  rintro ⟨reservation, budget⟩
  refine .bind (.request call.request) fun answer => .bind (.tx (.mapError _ ?_)) fun _ => .pure _
  split
  · exact .complete budget reservation _ _ now
  · exact .complete budget reservation _ _ now

theorem discover_each (call : ProviderCall α) (now : Instant) (retries : Nat)
    (budget : ProviderBudget) :
    (discover budgetError call now retries budget).Each (ServiceTx lib) := by
  induction retries generalizing budget with
  | zero => exact attempt_each call now budget
  | succ retries ih =>
    refine .bind (attempt_each call now budget) ?_
    rintro ⟨result, budget⟩
    cases result with
    | ok value => exact .pure _
    | error error =>
      dsimp only
      split
      · exact ih budget
      · exact .pure _

theorem providerFailure_each (error : ProviderError) :
    (providerFailure error).Each (ServiceTx lib) := by
  unfold providerFailure
  split
  · exact .pure _
  · exact .fail _

theorem sealRenewal_each (keys : CredentialKeyring) (accountId : Uuid) (now : Instant)
    (token : ExchangedToken) (account : ProviderAccount) (permissions : PermissionStatuses) :
    (sealRenewal keys accountId now token account permissions).Each (ServiceTx lib) := by
  refine .bind (.tx (.fetchOne _ _)) fun providerId => ?_
  split
  · exact .fail _
  · split
    · exact .fail _
    · split
      · exact .fail _
      · exact .pure _

theorem renewAuthorization_each (keys : CredentialKeyring) (accountId : Uuid)
    (discoveryRetries : Nat) (now : Instant) (accessToken : String) (budget : ProviderBudget) :
    (renewAuthorization keys accountId discoveryRetries now accessToken budget).Each
      (ServiceTx lib) := by
  refine .bind (attempt_each _ now budget) ?_
  rintro ⟨refreshed, budget⟩
  cases refreshed with
  | error error => exact providerFailure_each error
  | ok token =>
    refine .bind (discover_each _ now discoveryRetries budget) ?_
    rintro ⟨discovered, budget⟩
    cases discovered with
    | error error => exact providerFailure_each error
    | ok account =>
      refine .bind (discover_each _ now discoveryRetries budget) ?_
      rintro ⟨permissions, budget⟩
      cases permissions with
      | error error => exact providerFailure_each error
      | ok permissions => exact sealRenewal_each keys accountId now token account permissions

theorem refreshOfficialAccount_each (keys : CredentialKeyring) (accountId userRef : Uuid)
    (callBudget discoveryRetries : Nat) (refreshSupported : Bool) (now : Instant) :
    (refreshOfficialAccount lib keys accountId userRef callBudget discoveryRetries refreshSupported
      now).Each (ServiceTx lib) := by
  refine .bind ?_ fun outcome => ?_
  · unfold prepareRefresh
    split
    · exact .fail _
    refine .bind (.emit (.query _)) fun row => ?_
    split
    · exact .fail _
    · split
      · exact .fail _
      · split
        · exact .fail _
        · exact .bind (.emit .nowV7) fun operationId => renewAuthorization_each ..
  · cases outcome with
    | rejected error => exact .bind (.tx (.reauthorize accountId userRef now)) fun _ => .fail _
    | renewed account permissions envelope keyVersion expiresAt =>
      refine .bind (.tx (.refresh accountId userRef account permissions envelope keyVersion
        expiresAt now)) fun _ => ?_
      exact .tx (.mapError _ (.query _))

theorem accepted_each (result : Except ProviderError α) :
    (accepted result).Each (ServiceTx lib) := by
  cases result with
  | ok value => exact .pure _
  | error error => exact .fail _

theorem exchangeAndDiscover_each (discoveryRetries : Nat) (now : Instant) (code : String)
    (budget : ProviderBudget) :
    (exchangeAndDiscover discoveryRetries now code budget).Each (ServiceTx lib) := by
  refine .bind (attempt_each _ now budget) ?_
  rintro ⟨exchanged, budget⟩
  refine .bind (accepted_each exchanged) fun exchanged => ?_
  refine .bind (discover_each _ now discoveryRetries budget) ?_
  rintro ⟨discovered, budget⟩
  refine .bind (accepted_each discovered) fun account => ?_
  refine .bind (discover_each _ now discoveryRetries budget) ?_
  rintro ⟨permissions, budget⟩
  exact .bind (accepted_each permissions) fun _ => .pure _

theorem candidateAccount_each (userRef : Uuid) (account : ProviderAccount) :
    (candidateAccount userRef account).Each (ServiceTx lib) := by
  refine .bind (.tx (.query _)) fun stored => ?_
  cases stored with
  | none => exact .tx .nowV7
  | some stored =>
    dsimp only
    split
    · exact .pure _
    · exact .fail _

theorem connectAccount_each (keys : CredentialKeyring) (userRef : Uuid) (now : Instant)
    (exchanged : ExchangedToken) (account : ProviderAccount) (permissions : PermissionStatuses) :
    (connectAccount lib keys userRef now exchanged account permissions).Each (ServiceTx lib) := by
  unfold connectAccount
  split
  · exact .fail _
  refine .bind (candidateAccount_each userRef account) fun candidate => ?_
  refine .bind (.emit (.connect keys userRef candidate account permissions _ now)) fun _ => ?_
  exact .bind (.tx (.mapError _ (.query _))) fun _ => .pure _

theorem completeOfficialOauth_each (keys : CredentialKeyring) (userRef : Uuid)
    (relayId redirectUri : String) (callBudget discoveryRetries : Nat) (now : Instant) :
    (completeOfficialOauth lib keys userRef relayId redirectUri callBudget discoveryRetries
      now).Each (ServiceTx lib) := by
  refine .bind (.request _) fun answer => ?_
  split
  · exact .fail _
  split
  · exact .fail _
  refine .bind (.emit (.claimOauth userRef _ _ now)) fun _ => ?_
  refine .bind (.emit .nowV7) fun operationId => ?_
  refine .bind (exchangeAndDiscover_each ..) ?_
  rintro ⟨exchanged, account, permissions⟩
  exact connectAccount_each keys userRef now exchanged account permissions

end Programs

end Lifecycle

/-! ### Own-media passes -/

section Passes

variable {lib : Externals} {config : OwnMediaSyncConfig} {ctx : SyncContext} {token : String}
  {now : Instant}

theorem stopRetryable_each (walk : Walk) (reason : SyncRunReason) :
    (stopRetryable walk reason now).Each (ServiceTx lib) :=
  .bind (.emit (.suspendRun walk.runId reason now)) fun _ => .pure _

theorem complete_each (walk : Walk) : (complete lib config ctx walk now).Each (ServiceTx lib) := by
  refine .bind (.emit (.finalize config ctx walk.runId walk.candidate now)) fun committed => ?_
  split
  · exact .pure _
  · exact .fail _

theorem refuse_each (walk : Walk) (error : ProviderError) :
    (refuse walk error now).Each (ServiceTx lib) := by
  refine .bind (.emit (.providerFailure walk.runId error now)) fun _ => ?_
  split
  · exact .pure _
  · exact .fail _

theorem finishAttempt_each (budget : ProviderBudget) (reservation : UsageReservation)
    (answer : OwnMediaAnswer) :
    (Script.tx (finishAttempt budget reservation answer now) : SyncScript Unit).Each
      (ServiceTx lib) := by
  refine .tx (.mapError _ ?_)
  split
  · exact .complete budget reservation _ _ now
  · exact .complete budget reservation _ _ now

theorem traverse_each (pages : Nat) (budget : ProviderBudget) (walk : Walk) :
    (traverse lib config ctx token now pages budget walk).Each (ServiceTx lib) := by
  induction pages generalizing budget walk with
  | zero => exact stopRetryable_each walk _
  | succ pages ih =>
    unfold traverse
    split
    · exact stopRetryable_each walk _
    refine .bind (.tx (.mapError _ (.reserve budget .ownMediaPage now))) ?_
    rintro ⟨reservation, budget⟩
    refine .bind (.request _) fun answer => ?_
    refine .bind (finishAttempt_each budget reservation answer) fun _ => ?_
    cases answer with
    | error error => exact refuse_each walk error
    | ok page =>
      refine .bind (.emit (.page walk.runId ctx.providerAccountId page _ now)) fun _ => ?_
      split
      · exact complete_each _
      · split
        · exact stopRetryable_each _ _
        · exact ih budget _

theorem runAccountOnce_each (keys : CredentialKeyring) (accountId : Uuid) :
    (runAccountOnce lib keys config accountId now).Each (ServiceTx lib) := by
  refine .bind (.tx (.query _)) fun read => ?_
  cases read with
  | none => exact .fail _
  | some read =>
    dsimp only
    split
    · refine .bind (.tx (.query _)) fun credential => ?_
      rcases credential with _ | ⟨providerAccountId, envelope⟩
      · exact .fail _
      dsimp only
      split
      · exact .fail _
      refine .bind (.tx (.query _)) fun run => ?_
      cases run with
      | some run =>
        dsimp only
        unfold resumeActive
        split
        · exact .fail _
        refine .bind (.emit (.resumeRun run.runId now)) fun _ => ?_
        refine .bind (.tx (.mapError _ (.resumeBudget run.runId _ _))) fun budget => ?_
        exact traverse_each ..
      | none =>
        refine .bind (.tx (.query _)) fun watermark => ?_
        refine .bind (.emit (.openRun accountId read.userRef _ watermark now)) fun runId => ?_
        exact traverse_each ..
    · exact .bind (.emit (.noop config accountId read now)) fun _ => .pure _

end Passes

/-! ### Import jobs -/

namespace DataExport

section Imports

variable {lib : Externals}

theorem openArchive_each (archive : BlobRef) (file : FileRequest) :
    (openArchive archive file).Each (ServiceTx lib) := by
  unfold openArchive
  split
  · exact .fail _
  · refine .bind (.request _) fun answer => ?_
    cases answer with
    | error e => exact .fail _
    | ok found => exact .pure _

theorem inspect_each (runId : Uuid) : (inspect runId).Each (ServiceTx lib) := by
  refine .bind (.tx (.fetchOne _ _)) ?_
  rintro ⟨state, archive, file⟩
  dsimp only
  split
  · exact .fail _
  · refine .bind (openArchive_each archive file) fun found => ?_
    cases found with
    | ok _ => exact .tx (.inspected runId _)
    | error failure => exact .bind (.tx (.inspected runId _)) fun _ => .fail _

theorem parse_each (runId : Uuid) : (parse lib runId).Each (ServiceTx lib) := by
  refine .bind (.tx (.fetchOne _ _)) ?_
  rintro ⟨state, archive, file⟩
  dsimp only
  split
  · exact .fail _
  · refine .bind (openArchive_each archive file) fun found => ?_
    cases hparsed : parseFile lib found with
    | ok parsed => exact .tx (.parsed runId parsed found hparsed)
    | error error => exact .bind (.tx (.unparsed runId _)) fun _ => .fail _

theorem handledInputFailure_each (e : ImportError) :
    (handledInputFailure e).Each (ServiceTx lib) := by
  cases e <;> first | exact .pure _ | exact .fail _

theorem advanceParsed_each (runId : Uuid) : (advanceParsed lib runId).Each (ServiceTx lib) :=
  .bind (.tx (.reconcile runId)) fun _ => .pure _

theorem advanceInspected_each (runId : Uuid) :
    (advanceInspected lib runId).Each (ServiceTx lib) := by
  refine .bind ((parse_each runId).attempt fun _ h => .attempt h) fun r => ?_
  cases r with
  | error e => exact handledInputFailure_each e
  | ok _ => exact advanceParsed_each runId

theorem advance_each (runId : Uuid) (state : ImportState) :
    (advance lib runId state).Each (ServiceTx lib) := by
  cases state with
  | received =>
    refine .bind ((inspect_each runId).attempt fun _ h => .attempt h) fun r => ?_
    cases r with
    | error e => exact handledInputFailure_each e
    | ok _ => exact advanceInspected_each runId
  | inspected => exact advanceInspected_each runId
  | parsed => exact advanceParsed_each runId
  | reconciled | failed => exact .pure _

theorem advanceEach_each (rows : List (Uuid × ImportState)) (pass : WorkerPass) :
    (advanceEach lib rows pass).Each (ServiceTx lib) := by
  induction rows generalizing pass with
  | nil => exact .pure _
  | cons row rest ih =>
    obtain ⟨runId, state⟩ := row
    refine .bind ((advance_each runId state).attempt fun _ h => .attempt h) fun r => ?_
    rcases r with e | advanced
    · cases e <;> first | exact ih _ | exact .fail _
    · cases advanced <;> exact ih _

theorem ImportJob.script_each (job : ImportJob) : (job.script lib).Each (ServiceTx lib) := by
  cases job with
  | inspect runId => exact inspect_each runId
  | parse runId => exact parse_each runId
  | reconcile runId => exact .bind (.tx (.reconcile runId)) fun _ => .pure _
  | pass batchSize =>
    refine .bind ?_ fun _ => .pure _
    exact .bind (.tx (.query _)) fun rows => advanceEach_each rows _

end Imports

end DataExport

/-! ### Deletions -/

theorem processBlobDeletionTask_each {lib : Externals} (taskId : Uuid) :
    (processBlobDeletionTask lib taskId).Each (ServiceTx lib) := by
  have hkeep : ∀ operationId : Option Uuid,
      (recordBlobFailure operationId).Each (ServiceTx lib) := by
    intro operationId
    cases operationId with
    | none => exact .pure _
    | some operationId => exact .tx (.keepTask operationId)
  refine .bind (.tx (.fetchOne _ _)) fun task => ?_
  split
  · exact .pure _
  refine .bind (.tx (.query _)) fun live => ?_
  split
  · exact .bind (hkeep _) fun _ => .pure _
  refine .bind (.request _) fun answer => ?_
  cases answer with
  | error failure => exact .bind (hkeep _) fun _ => .pure _
  | ok _ =>
    refine .bind (.tx (.completeTask taskId)) fun _ => ?_
    refine .bind ?_ fun _ => .pure _
    unfold finishOperation
    split
    · exact .pure _
    · exact .tx (.completeOperation _)

theorem applyRequest_each {lib : Externals} (request : DeletionRequest) :
    (applyRequest lib request).Each (ServiceTx lib) := by
  refine .bind (.tx (.query _)) fun existing => ?_
  rcases existing with _ | result | e
  · exact .tx (.delete request)
  · exact .fail _
  · exact .pure _

theorem Task.job_each {lib : Externals} (task : Task) : (task.job lib).Each (ServiceTx lib) := by
  cases task with
  | connect keys userRef relayId redirectUri callBudget discoveryRetries now =>
    exact Lifecycle.completeOfficialOauth_each keys userRef relayId redirectUri _ _ now
  | refresh keys accountId userRef callBudget discoveryRetries refreshSupported now =>
    exact Lifecycle.refreshOfficialAccount_each keys accountId userRef _ _ _ now
  | sync keys config accountId now => exact runAccountOnce_each keys accountId
  | importing job => exact job.script_each
  | erase taskId => exact processBlobDeletionTask_each taskId
  | delete request => exact applyRequest_each request

/-! ## Runs -/

/-- The transaction a program runs next. -/
inductive Job.Next : Job → {ε α : Type} → Tx Db ε α → Prop
  | completion {α : Type} {script : Lifecycle.OAuthScript Lifecycle.ConnectedOfficialAccount}
      {x : Tx Db OAuthError α} (h : script.Next x) : Next (.call (.completion script)) x
  | refresh {α : Type} {script : Lifecycle.RefreshScript (List CapabilityRow)}
      {x : Tx Db AccountLifecycleError α} (h : script.Next x) : Next (.call (.refresh script)) x
  | pass {α : Type} {script : SyncScript OwnMediaSyncOutcome} {x : SyncTx α} (h : script.Next x) :
      Next (.call (.pass script)) x
  | importing {α : Type} {script : DataExport.ImportScript Unit} {x : DataExport.ImportTx α}
      (h : script.Next x) : Next (.importing script) x
  | erasure {α : Type} {script : BlobScript BlobDeletionTaskOutcome} {x : ArchiveTx SqlError α}
      (h : script.Next x) : Next (.erasure script) x
  | deletion {α : Type} {script : DeletionScript DeletionResult} {x : DeletionTx α}
      (h : script.Next x) : Next (.deletion script) x

/-- The transaction an action runs outside the capture lane. -/
inductive Service.Runs (s : Service) : ServiceAction → Env → {ε α : Type} → Tx Db ε α → Prop
  | beginOauth (env : Env) (userRef : Uuid) (stateHash redirectUriHash : List UInt8)
      (ttlSeconds : Nat) (now : Instant) :
      Runs s (.beginOauth env userRef stateHash redirectUriHash ttlSeconds now) env
        (beginOfficialOauth userRef stateHash redirectUriHash ttlSeconds now)
  | revoke (env : Env) (accountId userRef : Uuid) (outcome : ProviderRevokeOutcome)
      (now : Instant) :
      Runs s (.revoke env accountId userRef outcome now) env
        (scrubRevokedAccount accountId userRef outcome now)
  | receive (env : Env) (owner : Uuid) (digest : List UInt8) (byteSize : Nat) :
      Runs s (.receive env owner digest byteSize) env
        (DataExport.persistReceipt owner (DataExport.storedArchive digest byteSize))
  | advance {ε α : Type} {x : Tx Db ε α} {job : Job} (env : Env) (answers : Answers) (i : Nat)
      (hjob : s.jobs[i]? = some job) (hx : job.Next x) : Runs s (.advance env answers i) env x

/-- The programs in flight have no other transactions than `ServiceTx` lists. -/
def Service.Sound (lib : Externals) (s : Service) : Prop :=
  ∀ job ∈ s.jobs, job.Each (ServiceTx lib)

section Steps

variable {lib : Externals} {s : Service}

theorem Job.Each.next {S : ∀ {ε α : Type}, Tx Db ε α → Prop} {job : Job} (h : job.Each S)
    {ε α : Type} {x : Tx Db ε α} (hx : job.Next x) : S x := by
  cases hx with
  | completion hx => exact Script.Each.next h hx
  | refresh hx => exact Script.Each.next h hx
  | pass hx => exact Script.Each.next h hx
  | importing hx => exact Script.Each.next h hx
  | erasure hx => exact Script.Each.next h hx
  | deletion hx => exact Script.Each.next h hx

theorem Service.Sound.runs (h : s.Sound lib) {a : ServiceAction} {env : Env} {ε α : Type}
    {x : Tx Db ε α} (hx : s.Runs a env x) : ServiceTx lib x := by
  cases hx with
  | beginOauth env userRef stateHash redirectUriHash ttlSeconds now =>
    exact .beginOauth userRef stateHash redirectUriHash ttlSeconds now
  | revoke env accountId userRef outcome now => exact .scrub accountId userRef outcome now
  | receive env owner digest byteSize => exact .receipt owner digest byteSize
  | advance env answers i hjob hx => exact (h _ (List.mem_of_getElem? hjob)).next hx

/-- A step of a program leaves the database alone or commits its next transaction. -/
theorem Job.advance_cases (job : Job) (env : Env) (answers : Answers) (db : Db) :
    (job.advance env answers db).2 = db ∨
      ∃ (ε α : Type) (x : Tx Db ε α) (v : α), job.Next x ∧
        x.Yields env db v (job.advance env answers db).2 := by
  rcases job with program | script | script | script
  · rcases program with script | script | script
    · rcases script.advance_cases env answers.provider.account db with h | ⟨α, x, v, hx, hy⟩
      · exact .inl h
      · exact .inr ⟨_, α, x, v, .completion hx, hy⟩
    · rcases script.advance_cases env answers.provider.account db with h | ⟨α, x, v, hx, hy⟩
      · exact .inl h
      · exact .inr ⟨_, α, x, v, .refresh hx, hy⟩
    · rcases script.advance_cases env answers.provider.media db with h | ⟨α, x, v, hx, hy⟩
      · exact .inl h
      · exact .inr ⟨_, α, x, v, .pass hx, hy⟩
  · rcases script.advance_cases env answers.file db with h | ⟨α, x, v, hx, hy⟩
    · exact .inl h
    · exact .inr ⟨_, α, x, v, .importing hx, hy⟩
  · rcases script.advance_cases env answers.object db with h | ⟨α, x, v, hx, hy⟩
    · exact .inl h
    · exact .inr ⟨_, α, x, v, .erasure hx, hy⟩
  · rcases script.advance_cases env () db with h | ⟨α, x, v, hx, hy⟩
    · exact .inl h
    · exact .inr ⟨_, α, x, v, .deletion hx, hy⟩

theorem Job.Each.advance {S : ∀ {ε α : Type}, Tx Db ε α → Prop} {job : Job} (h : job.Each S)
    (env : Env) (answers : Answers) (db : Db) : (job.advance env answers db).1.Each S := by
  rcases job with program | script | script | script
  · rcases program with script | script | script
    · exact Script.Each.advance h env answers.provider.account db
    · exact Script.Each.advance h env answers.provider.account db
    · exact Script.Each.advance h env answers.provider.media db
  · exact Script.Each.advance h env answers.file db
  · exact Script.Each.advance h env answers.object db
  · exact Script.Each.advance h env () db

theorem serviceStep_sound (a : ServiceAction) (h : s.Sound lib) : (serviceStep lib s a).Sound lib := by
  cases a with
  | archive | beginOauth | revoke | receive => exact h
  | begin task =>
    intro job hjob
    rcases List.mem_append.mp hjob with hjob | hjob
    · exact h job hjob
    · rw [List.mem_singleton.mp hjob]
      exact task.job_each
  | advance env answers i =>
    cases hi : s.jobs[i]? with
    | none =>
      simp only [serviceStep, hi]
      exact h
    | some job =>
      simp only [serviceStep, hi]
      intro other hother
      rcases List.mem_or_eq_of_mem_set hother with hother | rfl
      · exact h other hother
      · exact (h job (List.mem_of_getElem? hi)).advance env answers s.db

/-- **What a step can do**: nothing, the call of the capture lane, or the transaction the action
runs. -/
theorem serviceStep_cases (lib : Externals) (s : Service) (a : ServiceAction) :
    (serviceStep lib s a).db = s.db ∨
      (∃ action env call, a = .archive action ∧ s.archive.call action = some (env, call) ∧
        Effect lib env s.db call (serviceStep lib s a).db) ∨
      ∃ (env : Env) (ε α : Type) (x : Tx Db ε α) (v : α), s.Runs a env x ∧
        x.Yields env s.db v (serviceStep lib s a).db := by
  cases a with
  | archive action =>
    rcases step_effect lib s.archive action with ⟨-, h⟩ | ⟨env, call, hcall, h⟩
    · exact .inl h
    · exact .inr (.inl ⟨action, env, call, rfl, hcall, h⟩)
  | beginOauth env userRef stateHash redirectUriHash ttlSeconds now =>
    rcases exec_cases (beginOfficialOauth userRef stateHash redirectUriHash ttlSeconds now) env
      s.db with ⟨v, db', he, hy⟩ | ⟨e, he⟩
    · refine .inr (.inr ⟨env, _, _, _, v, .beginOauth .., ?_⟩)
      change Yields _ _ _ _ (Tx.exec _ _ _).2
      rw [he]
      exact hy
    · exact .inl (congrArg Prod.snd he)
  | revoke env accountId userRef outcome now =>
    rcases exec_cases (scrubRevokedAccount accountId userRef outcome now) env s.db with
      ⟨v, db', he, hy⟩ | ⟨e, he⟩
    · refine .inr (.inr ⟨env, _, _, _, v, .revoke .., ?_⟩)
      change Yields _ _ _ _ (Tx.exec _ _ _).2
      rw [he]
      exact hy
    · exact .inl (congrArg Prod.snd he)
  | receive env owner digest byteSize =>
    rcases exec_cases (DataExport.persistReceipt owner (DataExport.storedArchive digest byteSize))
      env s.db with ⟨v, db', he, hy⟩ | ⟨e, he⟩
    · refine .inr (.inr ⟨env, _, _, _, v, .receive .., ?_⟩)
      change Yields _ _ _ _ (Tx.exec _ _ _).2
      rw [he]
      exact hy
    · exact .inl (congrArg Prod.snd he)
  | begin task => exact .inl rfl
  | advance env answers i =>
    cases hi : s.jobs[i]? with
    | none =>
      simp only [serviceStep, hi]
      exact .inl trivial
    | some job =>
      simp only [serviceStep, hi]
      rcases job.advance_cases env answers s.db with h | ⟨ε, α, x, v, hx, hy⟩
      · exact .inl h
      · exact .inr (.inr ⟨env, ε, α, x, v, .advance env answers i hi hx, hy⟩)

/-- **Invariants of the service.** What every effect of the capture lane keeps, and every other
transaction a guarded step runs, holds of the database after every guarded run. -/
theorem service_invariant (lib : Externals) (P : Service → ServiceAction → Prop) (Inv : Db → Prop)
    (hcall : ∀ env db call db', Effect lib env db call db' → Inv db → Inv db')
    (htx : ∀ s a env (ε α : Type) (x : Tx Db ε α) v db', s.Sound lib → P s a → s.Runs a env x →
      x.Yields env s.db v db' → Inv s.db → Inv db')
    {actions : List ServiceAction} (hguard : Guarded (serviceStep lib) P {} actions)
    (hinit : Inv {}) : Inv (run (serviceStep lib) {} actions).db := by
  refine (run_invariant (serviceStep lib) P (fun s => s.Sound lib ∧ Inv s.db) ?_ hguard
    ⟨fun job hjob => absurd hjob (by simp), hinit⟩).2
  rintro s a hp ⟨hsound, hinv⟩
  refine ⟨serviceStep_sound a hsound, ?_⟩
  rcases serviceStep_cases lib s a with h | ⟨action, env, call, -, -, heffect⟩ |
    ⟨env, ε, α, x, v, hruns, hy⟩
  · rw [h]
    exact hinv
  · exact hcall env s.db call _ heffect hinv
  · exact htx s a env ε α x v _ hsound hp hruns hy hinv

end Steps

end InstagramArchive

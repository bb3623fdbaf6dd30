import InstagramArchive.OwnMedia

/-!
# Official accounts

The transactions of the account lifecycle: a pending authorization and its consumption, the
connection of an account, a refresh, the loss of an authorization and a revocation. Each
connection and each refresh replaces the permission evidence and the whole capability matrix
under a new generation.

The provider calls around these transactions reserve and complete attempts through
`ProviderBudget`.
-/

namespace InstagramArchive

open Relational Relational.Tx

/-! ## Capability reconciliation -/

/-- `BTreeMap<String, PermissionStatus>`. -/
abbrev PermissionStatuses := Table (String × PermissionStatus) Prod.fst

/-- The entries in the order of the map. -/
def PermissionStatuses.entries (permissions : PermissionStatuses) :
    List (String × PermissionStatus) :=
  permissions.rows.insertionSort fun a b => a.1 ≤ b.1

/-- A permission the observation omits is absent. -/
def PermissionStatuses.status (permissions : PermissionStatuses) (name : String) :
    PermissionStatus :=
  ((permissions.lookup name).map Prod.snd).getD .absent

def PermissionStatuses.granted (permissions : PermissionStatuses) : List String :=
  (permissions.entries.filter fun p => p.2 = .granted).map Prod.fst

/-- A complete provider observation for one account; its provider identity is read by no
modelled function. -/
structure AccountObservation where
  accountType : AccountType
  permissions : PermissionStatuses
  externalWriteConsent : Bool
  observedAt : Instant
  rawRecordId : Uuid

structure ReconciledCapability where
  capability : AccountCapability
  state : CapabilityState
  reason : CapabilityReason
  deriving DecidableEq, Repr

/-- Every capability, exactly once per reconciliation generation. -/
def AccountCapability.all : List AccountCapability :=
  [.accountIdentityRead, .ownMediaRead, .contentPublish, .commentManagement, .messageManagement,
    .nativeSavedRead]

def AccountType.isProfessional : AccountType → Bool
  | .business | .creator => true
  | _ => false

def permissionReason (status : PermissionStatus) (writePermission : Bool) : CapabilityReason :=
  match status with
  | .granted => .granted
  | .declined => .permissionDeclined
  | .expired => .permissionExpired
  | .absent => if writePermission then .missingPermission else .permissionAbsent
  | .unknown => .permissionUnknown

def basicPermission : String := "instagram_business_basic"

/-- The permission a capability writes under, if it writes. -/
def AccountCapability.writePermission : AccountCapability → Option String
  | .contentPublish => some "instagram_business_content_publish"
  | .commentManagement => some "instagram_business_manage_comments"
  | .messageManagement => some "instagram_business_manage_messages"
  | _ => none

def requiredPermissions : List String :=
  [basicPermission, "instagram_business_content_publish", "instagram_business_manage_comments",
    "instagram_business_manage_messages"]

def reconcileOne (observation : AccountObservation) (capability : AccountCapability) :
    ReconciledCapability :=
  let basic := observation.permissions.status basicPermission
  if capability = .nativeSavedRead then ⟨capability, .notSupported, .providerNotSupported⟩
  else if !observation.accountType.isProfessional then
    ⟨capability, .unavailable, .accountTypeUnsupported⟩
  else if basic ≠ .granted then ⟨capability, .unavailable, permissionReason basic false⟩
  else match capability.writePermission with
    | none => ⟨capability, .available, .granted⟩
    | some permission =>
      let status := observation.permissions.status permission
      if status ≠ .granted then ⟨capability, .unavailable, permissionReason status true⟩
      else if !observation.externalWriteConsent then
        ⟨capability, .unavailable, .writeConsentRequired⟩
      else ⟨capability, .available, .granted⟩

/-- Reconciles one complete observation into all closed capability rows. -/
def reconcile (observation : AccountObservation) : List ReconciledCapability :=
  AccountCapability.all.map (reconcileOne observation)

/-- Capability projection persistence failure. -/
inductive CapabilityPersistenceError where
  | database (error : SqlError)
  deriving DecidableEq, Repr

instance : OfSql CapabilityPersistenceError := ⟨.database⟩

/-! ## Rows of an account -/

section Rows

variable {ε : Type} [OfSql ε]

/-- The reference of a row to its account. -/
def accountMissing (constraint : String) (accountId : Uuid) (db : Db) : Option SqlError :=
  if (db.accounts.lookup accountId).isNone then some (.foreignKeyViolation constraint) else none

def permissionGuard (row : PermissionObservation) (db : Db) : Option SqlError :=
  if db.permissionObservations.rows.any fun o => o.accountId = row.accountId &&
      o.generationId = row.generationId && o.permissionName = row.permissionName then
    some (.uniqueViolation "account_permission_observations_generation_permission_key")
  else if (db.rawRecords.lookup row.rawRecordId).isNone then
    some (.foreignKeyViolation "account_permission_observations_raw_record_id_fkey")
  else accountMissing "account_permission_observations_account_id_fkey" row.accountId db

def insertPermission (row : PermissionObservation) : ArchiveTx ε Unit :=
  insertInto "account_permission_observations_pkey" Db.permissionObservations
    (fun db t => { db with permissionObservations := t }) (permissionGuard row) row

def insertCapability (row : CapabilityRow) : ArchiveTx ε Unit :=
  insertInto "account_capabilities_pkey" Db.accountCapabilities
    (fun db t => { db with accountCapabilities := t })
    (accountMissing "account_capabilities_account_id_fkey" row.accountId) row

def insertCapabilities : List CapabilityRow → ArchiveTx ε Unit
  | [] => return ()
  | row :: rest => do
    insertCapability row
    insertCapabilities rest

def credentialGuard (row : Credential) (db : Db) : Option SqlError :=
  if db.credentials.rows.any fun c => c.accountId = row.accountId then
    some (.uniqueViolation "credentials_account_id_key")
  else accountMissing "credentials_account_id_fkey" row.accountId db

def insertCredential (row : Credential) : ArchiveTx ε Unit :=
  insertInto "credentials_pkey" Db.credentials (fun db t => { db with credentials := t })
    (credentialGuard row) row

def insertAudit (row : CredentialAudit) : ArchiveTx ε Unit :=
  insertInto "account_credential_audit_pkey" Db.credentialAudits
    (fun db t => { db with credentialAudits := t })
    (accountMissing "account_credential_audit_account_id_fkey" row.accountId) row

/-- Appends the audit row of a lifecycle change. -/
def audit (accountId : Uuid) (changeKind : CredentialChange) (outcome : CredentialOutcome)
    (now : Instant) : ArchiveTx ε Unit := do
  let auditId ← nowV7
  insertAudit { auditId, accountId, changeKind, outcome, occurredAt := now }

def deletePermissions (accountId : Uuid) (db : Db) : Db :=
  { db with
    permissionObservations := db.permissionObservations.delete fun o => o.accountId = accountId }

def deleteCapabilities (accountId : Uuid) (db : Db) : Db :=
  { db with accountCapabilities := db.accountCapabilities.delete fun c => c.accountId = accountId }

def deleteCredentials (accountId : Uuid) (db : Db) : Db :=
  { db with credentials := db.credentials.delete fun c => c.accountId = accountId }

/-- The observed permissions and the required ones, in order. -/
def permissionNames (permissions : PermissionStatuses) : List String :=
  (permissions.rows.map Prod.fst ++ requiredPermissions).dedup.insertionSort (· ≤ ·)

def insertPermissions (accountId generationId : Uuid) (observation : AccountObservation) :
    List String → ArchiveTx ε Unit
  | [] => return ()
  | permissionName :: rest => do
    let observationId ← nowV7
    insertPermission
      { observationId, accountId, generationId, permissionName,
        permissionStatus := observation.permissions.status permissionName,
        rawRecordId := observation.rawRecordId, observedAt := observation.observedAt }
    insertPermissions accountId generationId observation rest

end Rows

/-- Replaces the complete capability generation inside a caller-owned transaction. -/
def reconcileAccountCapabilitiesInTransaction (accountId : Uuid)
    (observation : AccountObservation) : ArchiveTx CapabilityPersistenceError Uuid := do
  let generationId ← nowV7
  execute (deletePermissions accountId)
  execute (deleteCapabilities accountId)
  insertPermissions accountId generationId observation (permissionNames observation.permissions)
  insertCapabilities ((reconcile observation).map fun r =>
    { accountId, generationId, capability := r.capability, capabilityState := r.state,
      reason := r.reason, observedAt := observation.observedAt })
  let now ← Tx.now
  execute fun db => { db with
    accounts := db.accounts.update (fun a => a.accountId = accountId) fun a =>
      { a with accountType := observation.accountType, scopes := observation.permissions.granted,
               updatedAt := now } }
  return generationId

/-- The matrix of an account without authorization. -/
def unavailableMatrix (accountId generationId : Uuid) (reason : CapabilityReason)
    (now : Instant) : List CapabilityRow :=
  AccountCapability.all.map fun capability =>
    { accountId, generationId, capability, capabilityState := .unavailable, reason,
      observedAt := now }

/-! ## Evidence -/

def accountTypeWire : AccountType → String
  | .business => "business"
  | .creator => "creator"
  | .personal => "personal"
  | .unknown => "unknown"

def permissionStatusWire : PermissionStatus → String
  | .granted => "granted"
  | .declined => "declined"
  | .expired => "expired"
  | .absent => "absent"
  | .unknown => "unknown"

structure ProviderAccount where
  providerAccountId : String
  username : String
  accountType : AccountType
  deriving DecidableEq, Repr

structure ProviderToken where
  accessToken : String
  expiresInSeconds : Option Nat := none
  deriving DecidableEq, Repr

/-- `expires_in_seconds`, where it fits an `i64`. -/
def ProviderToken.expiresAt (token : ProviderToken) (now : Instant) : Option Instant :=
  (token.expiresInSeconds.filter (· ≤ i64Max)).map fun s => now + seconds s

def accountBody (lib : Externals) (account : ProviderAccount) : String :=
  lib.accountJson account.providerAccountId account.username (accountTypeWire account.accountType)

def permissionBody (lib : Externals) (permissions : PermissionStatuses) : String :=
  lib.permissionsJson (permissions.entries.map fun p => (p.1, permissionStatusWire p.2))

/-- Stores one provider response; `tooLong` is the caller's error for a length beyond `i64`. -/
def insertApiResponse {ε : Type} [OfSql ε] (lib : Externals) (tooLong : ε) (body : String)
    (now : Instant) : ArchiveTx ε Uuid := do
  if i64Max < body.utf8ByteSize then Tx.throw tooLong
  else
    let rawRecordId ← nowV7
    insertInto "raw_records_pkey" Db.rawRecords (fun db t => { db with rawRecords := t })
      (fun _ => none) (rawPage lib body now rawRecordId)
    return rawRecordId

/-! ## Connecting -/

/-- Platform code relay failure. -/
inductive RelayError where
  | unavailable
  | transport
  | responseRefused
  deriving DecidableEq, Repr

inductive OAuthError where
  | configuration
  | unavailable
  | crypto
  | relay (error : RelayError)
  | database (error : SqlError)
  | provider (error : ProviderError)
  | budget (error : BudgetError)
  | capability (error : CapabilityPersistenceError)
  deriving DecidableEq, Repr

instance : OfSql OAuthError := ⟨.database⟩

def flowGuard (row : OauthFlow) (db : Db) : Option SqlError :=
  if db.oauthFlows.rows.any fun f => f.stateHash = row.stateHash then
    some (.uniqueViolation "oauth_flows_state_hash_key")
  else none

/-- Begins one owner-bound provider authorization: the row of `begin_official_oauth`. -/
def beginOfficialOauth (userRef : Uuid) (stateHash redirectUriHash : List UInt8)
    (ttlSeconds : Nat) (now : Instant) : ArchiveTx OAuthError Uuid := do
  if i64Max < ttlSeconds then Tx.throw .configuration
  else
    let flowId ← nowV7
    let row : OauthFlow :=
      { flowId, userRef, stateHash, redirectUriHash, expiresAt := now + seconds ttlSeconds,
        createdAt := now }
    insertInto "oauth_flows_pkey" Db.oauthFlows (fun db t => { db with oauthFlows := t })
      (flowGuard row) row
    return flowId

def OauthFlow.claimable (userRef : Uuid) (stateHash redirectUriHash : List UInt8) (now : Instant)
    (f : OauthFlow) : Bool :=
  f.userRef = userRef && f.stateHash = stateHash && f.redirectUriHash = redirectUriHash &&
    f.consumedAt.isNone && now < f.expiresAt

/-- Consumes a pending authorization, once. -/
def claimOauthFlow (userRef : Uuid) (stateHash redirectUriHash : List UInt8) (now : Instant) :
    ArchiveTx OAuthError Unit := do
  let claimed ← statement fun db => .ok
    (db.oauthFlows.rows.any (OauthFlow.claimable userRef stateHash redirectUriHash now),
      { db with
        oauthFlows := db.oauthFlows.update
          (OauthFlow.claimable userRef stateHash redirectUriHash now)
          fun f => { f with consumedAt := some now } })
  if claimed then return () else Tx.throw .unavailable

/-- The account of a provider identity. -/
def accountByProvider (providerAccountId : String) (db : Db) : Option Account :=
  db.accounts.rows.find? fun a => a.providerAccountId = providerAccountId

/-- `insert into accounts .. on conflict (provider_account_id) do update .. where` the owner
is the same. -/
def upsertAccount (row : Account) : ArchiveTx OAuthError Uuid := do
  match ← query (accountByProvider row.providerAccountId) with
  | none =>
    insertInto "accounts_pkey" Db.accounts (fun db t => { db with accounts := t }) (fun _ => none)
      row
    return row.accountId
  | some stored =>
    if stored.userRef ≠ row.userRef then Tx.throw .unavailable
    else
      execute fun db => { db with
        accounts := db.accounts.update (fun a => a.accountId = stored.accountId) fun a =>
          { a with username := row.username, accountType := row.accountType,
                   connectionStatus := .connected, scopes := row.scopes,
                   updatedAt := row.updatedAt } }
      return stored.accountId

/-- The transaction of `complete_official_oauth`. -/
def connectOfficialAccount (lib : Externals) (keys : CredentialKeyring)
    (userRef candidateAccountId : Uuid) (account : ProviderAccount)
    (permissions : PermissionStatuses) (token : ProviderToken) (now : Instant) :
    ArchiveTx OAuthError Uuid := do
  let _ ← insertApiResponse lib .configuration (accountBody lib account) now
  let rawRecordId ← insertApiResponse lib .configuration (permissionBody lib permissions) now
  let accountId ← upsertAccount
    { accountId := candidateAccountId, userRef, providerAccountId := account.providerAccountId,
      username := account.username, accountType := account.accountType,
      connectionStatus := .connected, scopes := permissions.granted, connectedAt := now,
      updatedAt := now }
  match keys.sealAccess accountId token.accessToken with
  | none => Tx.throw .crypto
  | some accessTokenEnvelope =>
    if i32Max < keys.currentVersion then Tx.throw .configuration
    else
      execute (deleteCredentials accountId)
      let credentialId ← nowV7
      insertCredential
        { credentialId, accountId, accessTokenEnvelope, keyVersion := keys.currentVersion,
          grantedPermissions := permissions.granted, expiresAt := token.expiresAt now,
          createdAt := now }
      audit accountId .authorized .succeeded now
      let _ ← mapError .capability (reconcileAccountCapabilitiesInTransaction accountId
        { accountType := account.accountType, permissions, externalWriteConsent := false,
          observedAt := now, rawRecordId })
      commit
      return accountId

/-! ## Lifecycle -/

inductive AccountLifecycleError where
  | unavailable
  | database (error : SqlError)
  | unsupportedRefresh
  | crypto
  | provider (error : ProviderError)
  | budget (error : BudgetError)
  | capability (error : CapabilityPersistenceError)
  deriving DecidableEq, Repr

instance : OfSql AccountLifecycleError := ⟨.database⟩

abbrev LifecycleTx := ArchiveTx AccountLifecycleError

/-- The status of the account, for its owner. -/
def ownedStatus (accountId userRef : Uuid) (db : Db) : Option ConnectionStatus :=
  ((db.accounts.lookup accountId).filter fun a => a.userRef = userRef).map Account.connectionStatus

def rotateCredential (accountId : Uuid) (envelope : List UInt8) (keyVersion : Nat)
    (granted : List String) (expiresAt : Option Instant) (now : Instant) (db : Db) : Db :=
  { db with
    credentials := db.credentials.update (fun c => c.accountId = accountId) fun c =>
      { c with accessTokenEnvelope := envelope, keyVersion, grantedPermissions := granted,
               expiresAt, rotatedAt := some now } }

def renewAccount (accountId userRef : Uuid) (account : ProviderAccount) (granted : List String)
    (now : Instant) (db : Db) : Db :=
  { db with
    accounts := db.accounts.update (fun a => a.accountId = accountId && a.userRef = userRef)
      fun a => { a with username := account.username, accountType := account.accountType,
                        connectionStatus := .connected, scopes := granted, updatedAt := now } }

/-- The final transaction of `refresh_official_account`; `envelope` is the sealed new token. -/
def refreshOfficialAccount (lib : Externals) (accountId userRef : Uuid) (account : ProviderAccount)
    (permissions : PermissionStatuses) (envelope : List UInt8) (keyVersion : Nat)
    (expiresAt : Option Instant) (now : Instant) : LifecycleTx Uuid := do
  let status ← query (ownedStatus accountId userRef)
  if status ≠ some .connected then Tx.throw .unavailable
  else
    let rawRecordId ← insertApiResponse lib .unavailable (permissionBody lib permissions) now
    execute (rotateCredential accountId envelope keyVersion permissions.granted expiresAt now)
    execute (renewAccount accountId userRef account permissions.granted now)
    audit accountId .refreshed .succeeded now
    let generationId ← mapError .capability (reconcileAccountCapabilitiesInTransaction accountId
      { accountType := account.accountType, permissions, externalWriteConsent := false,
        observedAt := now, rawRecordId })
    commit
    return generationId

/-- Sets the status of the account for its owner: how many rows it touched. -/
def closeAccount (accountId userRef : Uuid) (status : ConnectionStatus) (now : Instant) :
    LifecycleTx Nat := statement fun db => .ok
  ((db.accounts.rows.filter fun a => a.accountId = accountId && a.userRef = userRef).length,
    { db with
      accounts := db.accounts.update (fun a => a.accountId = accountId && a.userRef = userRef)
        fun a => { a with connectionStatus := status, scopes := [], updatedAt := now } })

def markReauthorizationRequired (accountId userRef : Uuid) (now : Instant) : LifecycleTx Unit := do
  execute (deleteCredentials accountId)
  execute (deleteCapabilities accountId)
  let generationId ← nowV7
  insertCapabilities (unavailableMatrix accountId generationId .reauthorizationRequired now)
  let updated ← closeAccount accountId userRef .reauthorizationRequired now
  if updated ≠ 1 then Tx.throw .unavailable
  else
    audit accountId .reauthorizationRequired .authenticationFailed now
    commit

/-- Safe result of the optional provider-side revoke attempt. -/
inductive ProviderRevokeOutcome where
  | succeeded
  | failed
  | unsupported
  deriving DecidableEq, Repr

def ProviderRevokeOutcome.audited : ProviderRevokeOutcome → CredentialOutcome
  | .succeeded => .succeeded
  | .failed => .providerFailed
  | .unsupported => .providerUnsupported

/-- Scrubs every locally recoverable secret and marks the account revoked. -/
def scrubRevokedAccount (accountId userRef : Uuid) (outcome : ProviderRevokeOutcome)
    (now : Instant) : LifecycleTx Unit := do
  match ← query fun db => db.accounts.lookup accountId with
  | none => Tx.throw .unavailable
  | some account =>
    if account.userRef ≠ userRef then Tx.throw .unavailable
    else if account.connectionStatus = .revoked then return ()
    else
      execute (deleteCredentials accountId)
      execute fun db => { db with oauthFlows := db.oauthFlows.delete fun f => f.userRef = userRef }
      execute (deleteCapabilities accountId)
      let generationId ← nowV7
      insertCapabilities (unavailableMatrix accountId generationId .revoked now)
      let _ ← closeAccount accountId userRef .revoked now
      audit accountId .revoked outcome.audited now
      commit

end InstagramArchive

import InstagramArchive.Accounts

/-!
# Account programs

Connecting an account and refreshing it are programs of several transactions with provider
calls between them. A call is reserved in the usage ledger before it is made and completed
there afterwards, each in a transaction of its own; the transaction that changes the account
comes after the last call.
-/

namespace InstagramArchive

open Relational Relational.Tx

/-! ## Questions and answers -/

/-- A question to the platform relay or to the provider. -/
inductive AccountRequest where
  | claim (relayId : String)
  | exchangeCode (code : String)
  | refreshToken (accessToken : String)
  | discoverAccount (accessToken : String)
  | discoverPermissions (accessToken : String)
  deriving DecidableEq, Repr

/-- The class a question is accounted under; the relay is not the provider. -/
def AccountRequest.requestClass : AccountRequest → Option RequestClass
  | .claim _ => none
  | .exchangeCode _ => some .codeExchange
  | .refreshToken _ => some .tokenRefresh
  | .discoverAccount _ => some .accountDiscovery
  | .discoverPermissions _ => some .permissionDiscovery

/-- A claimed relay: the raw state and code of one authorization callback. -/
structure RelayClaim where
  userRef : Uuid
  state : String
  authorizationCode : String
  redirectUri : String
  deriving DecidableEq, Repr

/-- The token of an exchange or a refresh; its reported permissions are read by no function. -/
structure ExchangedToken extends ProviderToken where
  userId : String
  deriving DecidableEq, Repr

/-- What the relay and the provider answer to each question they can be asked. -/
structure AccountAnswer where
  claim : Except RelayError RelayClaim
  token : Except ProviderError ExchangedToken
  account : Except ProviderError ProviderAccount
  permissions : Except ProviderError PermissionStatuses

/-- What an account program leaves behind when it commits. -/
inductive AccountEvent where
  /-- The account and its credential were read. -/
  | read
  /-- A pending authorization with this state was consumed. -/
  | claimed (stateHash : List UInt8)
  /-- The identity the provider calls are accounted under. -/
  | accounted (operationId : Uuid)
  | connected (accountId : Uuid)
  deriving DecidableEq, Repr

abbrev AccountScript (ε α : Type) := Script Db ε AccountRequest AccountAnswer AccountEvent α

/-- One provider operation, what it is accounted under and which answer it reads. -/
structure ProviderCall (α : Type) where
  request : AccountRequest
  requestClass : RequestClass
  answer : AccountAnswer → Except ProviderError α
  accounted : request.requestClass = some requestClass

namespace ProviderCall

def exchangeCode (code : String) : ProviderCall ExchangedToken :=
  ⟨.exchangeCode code, .codeExchange, AccountAnswer.token, rfl⟩

def refreshToken (accessToken : String) : ProviderCall ExchangedToken :=
  ⟨.refreshToken accessToken, .tokenRefresh, AccountAnswer.token, rfl⟩

def discoverAccount (accessToken : String) : ProviderCall ProviderAccount :=
  ⟨.discoverAccount accessToken, .accountDiscovery, AccountAnswer.account, rfl⟩

def discoverPermissions (accessToken : String) : ProviderCall PermissionStatuses :=
  ⟨.discoverPermissions accessToken, .permissionDiscovery, AccountAnswer.permissions, rfl⟩

end ProviderCall

/-! ## Provider calls -/

namespace Lifecycle

section Calls

variable {ε α : Type} (budgetError : BudgetError → ε)

def finishAttempt (budget : ProviderBudget) (reservation : UsageReservation)
    (result : Except ProviderError α) (now : Instant) : ArchiveTx ε Unit :=
  mapError budgetError (match result with
    | .ok _ => budget.complete reservation .succeeded none now
    | .error e => budget.complete reservation e.failureClass.usageOutcome e.httpStatus now)

/-- Reserves an attempt, makes the call and completes the attempt. -/
def attempt (call : ProviderCall α) (now : Instant) (budget : ProviderBudget) :
    AccountScript ε (Except ProviderError α × ProviderBudget) := do
  let (reservation, budget) ←
    Script.tx (mapError budgetError (budget.reserve call.requestClass now))
  let answer ← Script.request call.request
  Script.tx (finishAttempt budgetError budget reservation (call.answer answer) now)
  return (call.answer answer, budget)

/-- Only discoveries and page reads are retried, and only after a transient failure. -/
def shouldRetry (requestClass : RequestClass) (failure : ProviderFailureClass) : Bool :=
  (match requestClass with
    | .accountDiscovery | .permissionDiscovery | .ownMediaPage => true
    | _ => false) && isRetryable failure

/-- A discovery, repeated while its failure may be retried and retries remain. -/
def discover (call : ProviderCall α) (now : Instant) :
    (retries : Nat) → ProviderBudget →
      AccountScript ε (Except ProviderError α × ProviderBudget)
  | 0, budget => attempt budgetError call now budget
  | retries + 1, budget => do
    let (result, budget) ← attempt budgetError call now budget
    match result with
    | .ok value => return (.ok value, budget)
    | .error error =>
      if shouldRetry call.requestClass error.failureClass then
        discover call now retries budget
      else return (.error error, budget)

end Calls

/-! ## Refreshing -/

abbrev RefreshScript := AccountScript AccountLifecycleError

/-- Owner, status and access token of a connected or disconnected account. -/
def storedCredential (accountId : Uuid) (db : Db) :
    Option (Uuid × ConnectionStatus × List UInt8) := do
  let account ← db.accounts.lookup accountId
  let credential ← db.credentials.rows.find? fun c => c.accountId = accountId
  return (account.userRef, account.connectionStatus, credential.accessTokenEnvelope)

/-- What the provider calls of a refresh end in, when they end in a transaction. -/
inductive RefreshOutcome where
  /-- The provider refused the authorization. -/
  | rejected (error : ProviderError)
  | renewed (account : ProviderAccount) (permissions : PermissionStatuses)
      (envelope : List UInt8) (keyVersion : Nat) (expiresAt : Option Instant)

def providerFailure (error : ProviderError) : RefreshScript RefreshOutcome :=
  if error.failureClass = .authentication then return .rejected error
  else Script.fail (.provider error)

/-- Checks the discovered identity and seals the new token. -/
def sealRenewal (keys : CredentialKeyring) (accountId : Uuid) (now : Instant)
    (token : ExchangedToken) (account : ProviderAccount) (permissions : PermissionStatuses) :
    RefreshScript RefreshOutcome := do
  let providerId ← Script.tx (fetchOne (.database .rowNotFound)
    fun db => (db.accounts.lookup accountId).map Account.providerAccountId)
  if providerId ≠ account.providerAccountId then Script.fail .unavailable
  else match keys.sealAccess accountId token.accessToken with
    | none => Script.fail .crypto
    | some envelope =>
      if i32Max < keys.currentVersion then Script.fail .unavailable
      else return .renewed account permissions envelope keys.currentVersion (token.expiresAt now)

/-- The provider calls of a refresh. -/
def renewAuthorization (keys : CredentialKeyring) (accountId : Uuid) (discoveryRetries : Nat)
    (now : Instant) (accessToken : String) (budget : ProviderBudget) :
    RefreshScript RefreshOutcome := do
  let (refreshed, budget) ← attempt .budget (.refreshToken accessToken) now budget
  match refreshed with
  | .error error => providerFailure error
  | .ok token =>
    let (discovered, budget) ←
      discover .budget (.discoverAccount token.accessToken) now discoveryRetries budget
    match discovered with
    | .error error => providerFailure error
    | .ok account =>
      let (permissions, _) ←
        discover .budget (.discoverPermissions token.accessToken) now discoveryRetries budget
      match permissions with
      | .error error => providerFailure error
      | .ok permissions => sealRenewal keys accountId now token account permissions

/-- Everything before the transaction that changes the account. -/
def prepareRefresh (keys : CredentialKeyring) (accountId userRef : Uuid)
    (callBudget discoveryRetries : Nat) (refreshSupported : Bool) (now : Instant) :
    RefreshScript RefreshOutcome :=
  if !refreshSupported then Script.fail .unsupportedRefresh
  else do
    match ← Script.emit (query (storedCredential accountId)) fun _ => some .read with
    | none => Script.fail .unavailable
    | some (owner, connectionStatus, envelope) =>
      if owner ≠ userRef ∨ connectionStatus = .revoked then Script.fail .unavailable
      else match keys.openAccess accountId envelope with
        | none => Script.fail .crypto
        | some accessToken =>
          let operationId ← Script.emit nowV7 fun operationId => some (.accounted operationId)
          renewAuthorization keys accountId discoveryRetries now accessToken
            (ProviderBudget.new operationId (some accountId) callBudget)

def AccountCapability.wireValue : AccountCapability → String
  | .accountIdentityRead => "account_identity_read"
  | .ownMediaRead => "own_media_read"
  | .contentPublish => "content_publish"
  | .commentManagement => "comment_management"
  | .messageManagement => "message_management"
  | .nativeSavedRead => "native_saved_read"

/-- The stored matrix of an account, by the names of its capabilities. -/
def loadAccountCapabilities (accountId : Uuid) (db : Db) : List CapabilityRow :=
  (db.accountCapabilities.rows.filter fun r => r.accountId = accountId).insertionSort
    fun a b => AccountCapability.wireValue a.capability ≤ AccountCapability.wireValue b.capability

/-- The transaction a refresh ends in. -/
def concludeRefresh (lib : Externals) (accountId userRef : Uuid) (now : Instant) :
    RefreshOutcome → RefreshScript (List CapabilityRow)
  | .rejected error => do
    Script.tx (markReauthorizationRequired accountId userRef now)
    Script.fail (.provider error)
  | .renewed account permissions envelope keyVersion expiresAt => do
    let _ ← Script.tx (InstagramArchive.refreshOfficialAccount lib accountId userRef account
      permissions envelope keyVersion expiresAt now)
    Script.tx (mapError AccountLifecycleError.capability
      (query (loadAccountCapabilities accountId)))

/-- Refreshes encrypted credential material and re-discovers actual provider capabilities. -/
def refreshOfficialAccount (lib : Externals) (keys : CredentialKeyring) (accountId userRef : Uuid)
    (callBudget discoveryRetries : Nat) (refreshSupported : Bool) (now : Instant) :
    RefreshScript (List CapabilityRow) := do
  let outcome ←
    prepareRefresh keys accountId userRef callBudget discoveryRetries refreshSupported now
  concludeRefresh lib accountId userRef now outcome

/-! ## Connecting -/

abbrev OAuthScript := AccountScript OAuthError

structure ConnectedOfficialAccount where
  accountId : Uuid
  providerAccountId : String
  accountType : AccountType
  capabilities : List CapabilityRow

/-- A provider operation whose failure ends the program. -/
def accepted {α : Type} : Except ProviderError α → OAuthScript α
  | .ok value => return value
  | .error error => Script.fail (.provider error)

/-- The provider calls of a completion. -/
def exchangeAndDiscover (discoveryRetries : Nat) (now : Instant) (code : String)
    (budget : ProviderBudget) :
    OAuthScript (ExchangedToken × ProviderAccount × PermissionStatuses) := do
  let (exchanged, budget) ← attempt .budget (.exchangeCode code) now budget
  let exchanged ← accepted exchanged
  let (discovered, budget) ←
    discover .budget (.discoverAccount exchanged.accessToken) now discoveryRetries budget
  let account ← accepted discovered
  let (permissions, _) ←
    discover .budget (.discoverPermissions exchanged.accessToken) now discoveryRetries budget
  let permissions ← accepted permissions
  return (exchanged, account, permissions)

/-- The account the provider identity is stored under for its owner, or a new identity. -/
def candidateAccount (userRef : Uuid) (account : ProviderAccount) : OAuthScript Uuid := do
  match ← Script.tx (query (accountByProvider account.providerAccountId)) with
  | some stored =>
    if stored.userRef = userRef then return stored.accountId
    else Script.fail .unavailable
  | none => Script.tx nowV7

/-- The transaction a completion ends in. -/
def connectAccount (lib : Externals) (keys : CredentialKeyring) (userRef : Uuid) (now : Instant)
    (exchanged : ExchangedToken) (account : ProviderAccount) (permissions : PermissionStatuses) :
    OAuthScript ConnectedOfficialAccount := do
  if exchanged.userId ≠ account.providerAccountId then Script.fail .unavailable
  else
    let candidateAccountId ← candidateAccount userRef account
    let accountId ← Script.emit (connectOfficialAccount lib keys userRef candidateAccountId account
      permissions exchanged.toProviderToken now) fun accountId => some (.connected accountId)
    let capabilities ← Script.tx (mapError OAuthError.capability
      (query (loadAccountCapabilities accountId)))
    return { accountId, providerAccountId := account.providerAccountId,
             accountType := account.accountType, capabilities }

/-- Claims one platform relay and completes the owner-bound connection. -/
def completeOfficialOauth (lib : Externals) (keys : CredentialKeyring) (userRef : Uuid)
    (relayId redirectUri : String) (callBudget discoveryRetries : Nat) (now : Instant) :
    OAuthScript ConnectedOfficialAccount := do
  let answer ← Script.request (.claim relayId)
  match answer.claim with
  | .error error => Script.fail (.relay error)
  | .ok claim =>
    if claim.userRef ≠ userRef ∨ claim.redirectUri ≠ redirectUri then Script.fail .unavailable
    else
      Script.emit (claimOauthFlow userRef (lib.sha256 claim.state) (lib.sha256 redirectUri) now)
        fun _ => some (.claimed (lib.sha256 claim.state))
      let operationId ← Script.emit nowV7 fun operationId => some (.accounted operationId)
      let (exchanged, account, permissions) ← exchangeAndDiscover discoveryRetries now
        claim.authorizationCode (ProviderBudget.new operationId none callBudget)
      connectAccount lib keys userRef now exchanged account permissions

end Lifecycle

/-! ## What the provider calls write -/

namespace Lifecycle

section Usage

variable {ε α : Type} {budgetError : BudgetError → ε}

theorem attempt_usage (call : ProviderCall α) (now : Instant) (budget : ProviderBudget) :
    (attempt budgetError call now budget).Respects OnlyUsage := by
  refine .bind (.tx (.mapError (budget.reserve_onlyUsage call.requestClass now))) ?_
  rintro ⟨reservation, budget⟩
  refine .bind (.request call.request) fun answer => .bind (.tx (.mapError ?_)) fun _ => .pure _
  cases call.answer answer with
  | ok value => exact budget.complete_onlyUsage reservation _ _ now
  | error error => exact budget.complete_onlyUsage reservation _ _ now

theorem discover_usage (call : ProviderCall α) (now : Instant) (retries : Nat)
    (budget : ProviderBudget) :
    (discover budgetError call now retries budget).Respects OnlyUsage := by
  induction retries generalizing budget with
  | zero => exact attempt_usage call now budget
  | succ retries ih =>
    refine .bind (attempt_usage call now budget) ?_
    rintro ⟨result, budget⟩
    cases result with
    | ok value => exact .pure _
    | error error =>
      dsimp only
      split
      · exact ih budget
      · exact .pure _

theorem providerFailure_usage (error : ProviderError) :
    (providerFailure error).Respects OnlyUsage := by
  unfold providerFailure
  split
  · exact .pure _
  · exact .fail _

theorem sealRenewal_usage (keys : CredentialKeyring) (accountId : Uuid) (now : Instant)
    (token : ExchangedToken) (account : ProviderAccount) (permissions : PermissionStatuses) :
    (sealRenewal keys accountId now token account permissions).Respects OnlyUsage := by
  refine .bind (.tx (.fetchOne _ _)) fun providerId => ?_
  split
  · exact .fail _
  · split
    · exact .fail _
    · split
      · exact .fail _
      · exact .pure _

theorem renewAuthorization_usage (keys : CredentialKeyring) (accountId : Uuid)
    (discoveryRetries : Nat) (now : Instant) (accessToken : String) (budget : ProviderBudget) :
    (renewAuthorization keys accountId discoveryRetries now accessToken budget).Respects
      OnlyUsage := by
  refine .bind (attempt_usage _ now budget) ?_
  rintro ⟨refreshed, budget⟩
  cases refreshed with
  | error error => exact providerFailure_usage error
  | ok token =>
    refine .bind (discover_usage _ now discoveryRetries budget) ?_
    rintro ⟨discovered, budget⟩
    cases discovered with
    | error error => exact providerFailure_usage error
    | ok account =>
      refine .bind (discover_usage _ now discoveryRetries budget) ?_
      rintro ⟨permissions, budget⟩
      cases permissions with
      | error error => exact providerFailure_usage error
      | ok permissions => exact sealRenewal_usage keys accountId now token account permissions

/-- A supported refresh reads the credential first. Until its last transaction it writes the
usage ledger only, and it goes on only if the account it read was not revoked. -/
theorem prepareRefresh_reads (keys : CredentialKeyring) (accountId userRef : Uuid)
    (callBudget discoveryRetries : Nat) (now : Instant) :
    ∃ next, prepareRefresh keys accountId userRef callBudget discoveryRetries true now =
        .transact (query (storedCredential accountId)) (fun _ => some .read) next ∧
      ∀ row, (next row).Respects OnlyUsage ∧ ((∃ e, next row = .finish (.error e)) ∨
        ∃ owner status envelope, row = some (owner, status, envelope) ∧ status ≠ .revoked) := by
  refine ⟨_, rfl, fun row => ?_⟩
  rcases row with _ | ⟨owner, status, envelope⟩
  · exact ⟨trivial, .inl ⟨_, rfl⟩⟩
  change Script.Respects OnlyUsage (if owner ≠ userRef ∨ status = .revoked then _ else _) ∧
    ((∃ e, (if owner ≠ userRef ∨ status = .revoked then _ else _) = _) ∨ _)
  split
  · exact ⟨trivial, .inl ⟨_, rfl⟩⟩
  · next hstatus =>
    refine ⟨?_, .inr ⟨owner, status, envelope, rfl, fun h => hstatus (.inr h)⟩⟩
    split
    · trivial
    · exact .bind (.emit .nowV7) fun operationId => renewAuthorization_usage ..

end Usage

end Lifecycle

/-- **What a claim does.** There is a pending authorization, and it is consumed. -/
theorem claimOauthFlow_yields {userRef : Uuid} {stateHash redirectUriHash : List UInt8}
    {now : Instant} {env : Env} {db db' : Db} {u : Unit}
    (h : (claimOauthFlow userRef stateHash redirectUriHash now).Yields env db u db') :
    (∃ f ∈ db.oauthFlows, OauthFlow.claimable userRef stateHash redirectUriHash now f) ∧
      db' = { db with
        oauthFlows := db.oauthFlows.update
          (OauthFlow.claimable userRef stateHash redirectUriHash now)
          fun f => { f with consumedAt := some now } } := by
  obtain ⟨claimed, m, h1, h⟩ := h.bind
  have hclaimed := h1.statement
  simp only [Except.ok.injEq, Prod.mk.injEq] at hclaimed
  split at h
  · next hany =>
    obtain ⟨-, rfl⟩ := yields_pure.mp h
    rw [← hclaimed.1] at hany
    exact ⟨List.any_eq_true.mp hany, hclaimed.2.symm⟩
  · exact h.throw.elim

end InstagramArchive

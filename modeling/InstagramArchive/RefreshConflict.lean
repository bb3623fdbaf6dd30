import InstagramArchive.AccountLifecycle
import InstagramArchive.ConnectionInvariant
import InstagramArchive.OwnMediaAuthority
import InstagramArchive.Reference

/-!
# Refreshes against revocations and completions

A refresh reads the credential, makes its provider calls and opens its last transaction only
then; in between a revocation can commit, or a completion that replaces the credential. The
system runs any number of refreshes and completions, advanced one step at a time in any order,
between scrubs, new authorizations and whatever the rest of the service writes.
-/

namespace InstagramArchive

open Relational Relational.Tx

/-! ## The system -/

/-- A refresh under way, or one that ended. -/
structure RefreshRun where
  accountId : Uuid
  userRef : Uuid
  now : Instant
  script : Lifecycle.RefreshScript (List CapabilityRow)
  /-- It has read the credential it acts on. -/
  read : Bool := false
  /-- Since then the account was revoked, or a completion replaced its credential. -/
  superseded : Bool := false

structure ConnectionSystem where
  db : Db
  refreshes : List RefreshRun := []
  completions : List (Lifecycle.OAuthScript Lifecycle.ConnectedOfficialAccount) := []

inductive ConnectionAction where
  | beginRefresh (keys : CredentialKeyring) (accountId userRef : Uuid)
      (callBudget discoveryRetries : Nat) (refreshSupported : Bool) (now : Instant)
  /-- A refresh commits its next transaction or receives its next answer. -/
  | advanceRefresh (index : Nat) (env : Env) (answer : AccountAnswer)
  | beginCompletion (keys : CredentialKeyring) (userRef : Uuid) (relayId redirectUri : String)
      (callBudget discoveryRetries : Nat) (now : Instant)
  | advanceCompletion (index : Nat) (env : Env) (answer : AccountAnswer)
  | scrub (env : Env) (accountId userRef : Uuid) (outcome : ProviderRevokeOutcome) (now : Instant)
  /-- The rest of the service writes: every table but the accounts, credentials and
  capabilities. -/
  | others (tables : Db)

/-- The refreshes after a revocation of the account or a new credential for it. -/
def supersede (accountId : Uuid) (refreshes : List RefreshRun) : List RefreshRun :=
  refreshes.map fun r =>
    if r.read && r.accountId = accountId then { r with superseded := true } else r

def supersedeOn (event : Option AccountEvent) (refreshes : List RefreshRun) : List RefreshRun :=
  match event with
  | some (.connected accountId) => supersede accountId refreshes
  | _ => refreshes

def RefreshRun.advance (env : Env) (answer : AccountAnswer) (db : Db) (r : RefreshRun) :
    RefreshRun × Db :=
  ({ r with
      script := (r.script.advance env answer db).1
      read := r.read || (r.script.advance env answer db).2.2 = some .read },
    (r.script.advance env answer db).2.1)

/-- The tables of others, with the connections of the database. -/
def withConnections (tables db : Db) : Db :=
  { tables with
    accounts := db.accounts
    credentials := db.credentials
    accountCapabilities := db.accountCapabilities }

def connectionStep (lib : Externals) (s : ConnectionSystem) : ConnectionAction → ConnectionSystem
  | .beginRefresh keys accountId userRef callBudget discoveryRetries refreshSupported now =>
    { s with
      refreshes := s.refreshes ++
        [⟨accountId, userRef, now, Lifecycle.refreshOfficialAccount lib keys accountId userRef
          callBudget discoveryRetries refreshSupported now, false, false⟩] }
  | .advanceRefresh index env answer =>
    match s.refreshes[index]? with
    | none => s
    | some r =>
      { s with
        db := (r.advance env answer s.db).2
        refreshes := s.refreshes.set index (r.advance env answer s.db).1 }
  | .beginCompletion keys userRef relayId redirectUri callBudget discoveryRetries now =>
    { s with
      completions := s.completions ++ [Lifecycle.completeOfficialOauth lib keys userRef relayId
        redirectUri callBudget discoveryRetries now] }
  | .advanceCompletion index env answer =>
    match s.completions[index]? with
    | none => s
    | some c =>
      { db := (c.advance env answer s.db).2.1
        refreshes := supersedeOn (c.advance env answer s.db).2.2 s.refreshes
        completions := s.completions.set index (c.advance env answer s.db).1 }
  | .scrub env accountId userRef outcome now =>
    match (scrubRevokedAccount accountId userRef outcome now).exec env s.db with
    | (.ok _, db) => { s with db, refreshes := supersede accountId s.refreshes }
    | (.error _, db) => { s with db }
  | .others tables => { s with db := withConnections tables s.db }

/-! ## What is said of a step -/

def connectionStatus (accountId : Uuid) (db : Db) : Option ConnectionStatus :=
  (db.accounts.lookup accountId).map Account.connectionStatus

/-- Status, credential and capability rows of the account are the same. -/
structure SameAuthorization (accountId : Uuid) (db db' : Db) : Prop where
  status : connectionStatus accountId db' = connectionStatus accountId db
  credentials : (accountView accountId db').credentials = (accountView accountId db).credentials
  matrix : (accountView accountId db').matrix = (accountView accountId db).matrix

/-- A step of a superseded refresh changes nothing about the connection, and an account leaves
`revoked` only through a completion. -/
structure ActsOnOwnConnection (lib : Externals) (s : ConnectionSystem) (a : ConnectionAction) :
    Prop where
  superseded : ∀ index env answer r, a = .advanceRefresh index env answer →
    s.refreshes[index]? = some r → r.superseded = true →
    SameAuthorization r.accountId s.db (connectionStep lib s a).db
  revoked : ∀ accountId, connectionStatus accountId s.db = some .revoked →
    connectionStatus accountId (connectionStep lib s a).db ≠ some .revoked →
    ∃ index env answer, a = .advanceCompletion index env answer

/-- The provider refused the authorization of the refresh: what remains is to mark the account
for reauthorization. -/
def RefreshRun.Rejected (lib : Externals) (r : RefreshRun) : Prop :=
  ∃ error, r.script = Lifecycle.concludeRefresh lib r.accountId r.userRef r.now (.rejected error)

/-- The provider calls of the refresh succeeded: what remains is to store the new token. -/
def RefreshRun.Renewed (lib : Externals) (r : RefreshRun) : Prop :=
  ∃ account permissions envelope keyVersion expiresAt,
    r.script = Lifecycle.concludeRefresh lib r.accountId r.userRef r.now
      (.renewed account permissions envelope keyVersion expiresAt)

/-- A superseded refresh does not take its last transaction after the provider refused its
authorization, nor while the account is connected. -/
def Undisturbed (lib : Externals) (s : ConnectionSystem) : ConnectionAction → Prop
  | .advanceRefresh index _ _ => ∀ r, s.refreshes[index]? = some r → r.superseded = true →
    ¬ r.Rejected lib ∧
      (r.Renewed lib → ownedStatus r.accountId r.userRef s.db ≠ some .connected)
  | _ => True

/-! ## Revocations -/

/-- No account is revoked that was not. -/
def KeepsUnrevoked (db db' : Db) : Prop :=
  ∀ id, connectionStatus id db' = some .revoked → connectionStatus id db = some .revoked

instance : IsPreorder Db KeepsUnrevoked where
  refl _ _ h := h
  trans _ _ _ h h' id hid := h id (h' id hid)

section Revocations

variable {ε : Type} [OfSql ε] {lib : Externals} {env : Env} {db db' : Db}
  {accountId userRef : Uuid}

theorem connectionStatus_congr (h : db'.accounts = db.accounts) (id : Uuid) :
    connectionStatus id db' = connectionStatus id db := by
  unfold connectionStatus
  rw [h]

theorem KeepsUnrevoked.of_accounts (h : db'.accounts = db.accounts) : KeepsUnrevoked db db' :=
  fun id hid => connectionStatus_congr h id ▸ hid

theorem OnlyUsage.keepsUnrevoked (h : OnlyUsage db db') : KeepsUnrevoked db db' := by
  obtain ⟨t, rfl⟩ := h
  exact .of_accounts rfl

theorem OnlyUsage.sameAuthorization (h : OnlyUsage db db') (id : Uuid) :
    SameAuthorization id db db' := by
  obtain ⟨t, rfl⟩ := h
  exact ⟨rfl, rfl, rfl⟩

/-- An update of the owner's row of an account sets its status. -/
theorem connectionStatus_update {p : Account → Bool} {f : Account → Account}
    {hf : ∀ a, (f a).accountId = a.accountId} (ht : db'.accounts = db.accounts.update p f hf)
    (id : Uuid) :
    connectionStatus id db' = (db.accounts.lookup id).map fun a =>
      if p a then (f a).connectionStatus else a.connectionStatus := by
  unfold connectionStatus
  rw [ht, Table.lookup_update, Option.map_map]
  congr 1
  funext a
  simp only [Function.comp_apply]
  split <;> rfl

theorem reconcile_keepsUnrevoked (observation : AccountObservation) :
    (reconcileAccountCapabilitiesInTransaction accountId observation).Respects KeepsUnrevoked := by
  intro env db generationId db' h id hid
  obtain ⟨haccounts, -, -⟩ := reconcile_yields h
  rw [connectionStatus_update haccounts] at hid
  simpa [connectionStatus] using hid

theorem upsertAccount_keepsUnrevoked {row : Account} (hrow : row.connectionStatus = .connected) :
    (upsertAccount row).Respects KeepsUnrevoked := by
  refine Tx.Respects.bind (.query _) fun stored => ?_
  cases stored with
  | none =>
    refine Tx.Respects.bind ?_ fun _ => .pure _
    intro env db u db' h id hid
    obtain ⟨-, t, ht, rfl⟩ := h.insertInto
    unfold connectionStatus at hid
    rw [Table.lookup_of_insert? ht] at hid
    split at hid
    · rw [Option.map_some, hrow] at hid
      cases hid
    · exact hid
  | some stored =>
    dsimp only
    split
    · exact .throw
    · refine Tx.Respects.bind ?_ fun _ => .pure _
      intro env db u db' h id hid
      have hmoved : db'.accounts = db.accounts.update (fun a => a.accountId = stored.accountId)
          (fun a => { a with username := row.username, accountType := row.accountType,
                             connectionStatus := .connected, scopes := row.scopes,
                             updatedAt := row.updatedAt }) (fun _ => rfl) := by
        rw [h.execute]
      rw [connectionStatus_update hmoved] at hid
      obtain ⟨a, ha, hstatus⟩ := Option.map_eq_some_iff.mp hid
      split at hstatus
      · cases hstatus
      · unfold connectionStatus
        rw [ha, Option.map_some, hstatus]

theorem connectOfficialAccount_keepsUnrevoked (keys : CredentialKeyring) (candidate : Uuid)
    (account : ProviderAccount) (permissions : PermissionStatuses) (token : ProviderToken)
    (now : Instant) :
    (connectOfficialAccount lib keys userRef candidate account permissions token now).Respects
      KeepsUnrevoked := by
  have hraw : ∀ body, (insertApiResponse lib OAuthError.configuration body now).Respects
      KeepsUnrevoked := fun body env db rawId db' h =>
    .of_accounts (insertApiResponse_same _ body now env db rawId db' h).accounts
  refine .bind (hraw _) fun _ => .bind (hraw _) fun rawRecordId => ?_
  refine Tx.Respects.bind (upsertAccount_keepsUnrevoked rfl) fun id => ?_
  split
  · exact .throw
  split
  · exact .throw
  refine Tx.Respects.bind (.execute fun _ => .of_accounts rfl) fun _ => ?_
  refine Tx.Respects.bind .nowV7 fun credentialId => ?_
  refine Tx.Respects.bind (.insertInto fun _ _ => .of_accounts rfl) fun _ => ?_
  refine Tx.Respects.bind (R := KeepsUnrevoked) ?_ fun _ => ?_
  · exact fun env db u db' h => .of_accounts (audit_same _ _ _ env db u db' h).accounts
  refine Tx.Respects.bind (.mapError (reconcile_keepsUnrevoked _)) fun _ => ?_
  exact .bind (.query _) fun _ => .pure _

theorem closeAccount_status {status : ConnectionStatus} {now : Instant} {updated : Nat}
    (h : (closeAccount accountId userRef status now).Yields env db updated db') (id : Uuid) :
    connectionStatus id db' = (db.accounts.lookup id).map fun a =>
      if a.accountId = accountId ∧ a.userRef = userRef then status else a.connectionStatus := by
  obtain ⟨-, hclosed⟩ := closeAccount_yields h
  have hmoved : db'.accounts = db.accounts.update
      (fun a => a.accountId = accountId && a.userRef = userRef)
      (fun a => { a with connectionStatus := status, scopes := [], updatedAt := now })
      (fun _ => rfl) := by
    rw [hclosed]
  rw [connectionStatus_update hmoved]
  simp

/-- An account that loses its authorization is `reauthorization_required` afterwards; the status
of the others stays. -/
theorem markReauthorizationRequired_status {now : Instant} {u : Unit}
    (h : (markReauthorizationRequired accountId userRef now).Yields env db u db') (id : Uuid) :
    connectionStatus id db' = connectionStatus id db ∨
      id = accountId ∧ connectionStatus id db' = some .reauthorizationRequired := by
  obtain ⟨g, m, m', hm, hclose, hsame⟩ := markReauthorizationRequired_yields h
  rw [connectionStatus_congr hsame.accounts, closeAccount_status hclose, hm.accounts]
  cases ha : db.accounts.lookup id with
  | none => exact .inl (by simp [connectionStatus, ha])
  | some a =>
    have hid : a.accountId = id := (Table.lookup_eq_some.mp ha).2
    by_cases hown : a.accountId = accountId ∧ a.userRef = userRef
    · exact .inr ⟨hid.symm.trans hown.1, by simp [hown]⟩
    · exact .inl (by simp [connectionStatus, ha, hown])

/-- A scrub revokes its account; the status of the others stays. -/
theorem scrubRevokedAccount_status {outcome : ProviderRevokeOutcome} {now : Instant} {u : Unit}
    (h : (scrubRevokedAccount accountId userRef outcome now).Yields env db u db') (id : Uuid) :
    connectionStatus id db' =
      if id = accountId then some .revoked else connectionStatus id db := by
  obtain ⟨a, ha, howner, ⟨hrevoked, rfl⟩ | ⟨-, g, m, updated, m', hm, hclose, hsame⟩⟩ :=
    scrubRevokedAccount_yields h
  · split
    · next hid =>
      unfold connectionStatus
      rw [hid, ha, Option.map_some, hrevoked]
    · rfl
  · rw [connectionStatus_congr hsame.accounts, closeAccount_status hclose, hm.accounts]
    split
    · next hid =>
      have hown := (Table.lookup_eq_some.mp ha).2
      simp [hid, ha, hown, howner]
    · next hid =>
      unfold connectionStatus
      apply Option.map_congr
      intro b hb
      have hne : b.accountId ≠ accountId := (Table.lookup_eq_some.mp hb).2.trans_ne hid
      simp [hne]

/-- A refresh commits its last transaction on a connected account only, which it leaves
connected; the status of the others stays. -/
theorem refreshOfficialAccount_status {account : ProviderAccount}
    {permissions : PermissionStatuses} {envelope : List UInt8} {keyVersion : Nat}
    {expiresAt : Option Instant} {now : Instant} {generationId : Uuid}
    (h : (refreshOfficialAccount lib accountId userRef account permissions envelope keyVersion
      expiresAt now).Yields env db generationId db') :
    ownedStatus accountId userRef db = some .connected ∧ ∀ id,
      connectionStatus id db' = connectionStatus id db ∨
        id = accountId ∧ connectionStatus id db' = some .connected := by
  obtain ⟨status, _, h1, h⟩ := h.bind
  obtain ⟨rfl, rfl⟩ := h1.query
  split at h
  · exact h.throw.elim
  rename_i hstatus
  refine ⟨not_not.mp hstatus, fun id => ?_⟩
  obtain ⟨rawRecordId, m1, h2, h⟩ := h.bind
  have hraw := insertApiResponse_same _ _ _ _ _ _ _ h2
  obtain ⟨_, m2, h3, h⟩ := h.bind
  have hrotated := h3.execute
  obtain ⟨_, m3, h4, h⟩ := h.bind
  have hrenewed := h4.execute
  obtain ⟨_, m4, h5, h⟩ := h.bind
  have haudit := audit_same _ _ _ _ _ _ _ h5
  obtain ⟨g, m5, h6, h⟩ := h.bind
  obtain ⟨haccounts, -, -⟩ := reconcile_yields h6.mapError
  obtain ⟨_, _, h7, h⟩ := h.bind
  obtain rfl := h7.commit
  obtain ⟨rfl, rfl⟩ := yields_pure.mp h
  have hreconciled : connectionStatus id m5 = connectionStatus id m3 := by
    rw [connectionStatus_update haccounts, haudit.accounts]
    simp [connectionStatus]
  have hkept : m2.accounts = db.accounts := by
    rw [hrotated]
    exact hraw.accounts
  have hmoved : m3.accounts = db.accounts.update
      (fun a => a.accountId = accountId && a.userRef = userRef) (fun a =>
        { a with username := account.username, accountType := account.accountType,
                 connectionStatus := .connected, scopes := permissions.granted,
                 updatedAt := now }) (fun _ => rfl) := by
    rw [hrenewed, ← hkept]
    rfl
  rw [hreconciled, connectionStatus_update hmoved]
  cases ha : db.accounts.lookup id with
  | none => exact .inl (by simp [connectionStatus, ha])
  | some a =>
    have hid : a.accountId = id := (Table.lookup_eq_some.mp ha).2
    by_cases hown : a.accountId = accountId ∧ a.userRef = userRef
    · exact .inr ⟨hid.symm.trans hown.1, by simp [hown]⟩
    · exact .inl (by simp [connectionStatus, ha, hown])

end Revocations

/-! ## Completions -/

section Completions

theorem Lifecycle.accepted_respects {α : Type} (result : Except ProviderError α) :
    (Lifecycle.accepted result).Respects KeepsUnrevoked := by
  cases result with
  | ok value => exact .pure _
  | error error => exact .fail _

theorem Lifecycle.exchangeAndDiscover_keepsUnrevoked (discoveryRetries : Nat) (now : Instant)
    (code : String) (budget : ProviderBudget) :
    (Lifecycle.exchangeAndDiscover discoveryRetries now code budget).Respects KeepsUnrevoked := by
  have husage : ∀ db db', OnlyUsage db db' → KeepsUnrevoked db db' :=
    fun _ _ h => h.keepsUnrevoked
  refine .bind ((attempt_usage _ now budget).mono husage) ?_
  rintro ⟨exchanged, budget⟩
  refine .bind (accepted_respects exchanged) fun token => ?_
  refine .bind ((discover_usage _ now discoveryRetries budget).mono husage) ?_
  rintro ⟨discovered, budget⟩
  refine .bind (accepted_respects discovered) fun account => ?_
  refine .bind ((discover_usage _ now discoveryRetries budget).mono husage) ?_
  rintro ⟨permissions, budget⟩
  exact .bind (accepted_respects permissions) fun _ => .pure _

/-- A completion revokes no account. -/
theorem Lifecycle.completeOfficialOauth_keepsUnrevoked (lib : Externals) (keys : CredentialKeyring)
    (userRef : Uuid) (relayId redirectUri : String) (callBudget discoveryRetries : Nat)
    (now : Instant) :
    (Lifecycle.completeOfficialOauth lib keys userRef relayId redirectUri callBudget
      discoveryRetries now).Respects KeepsUnrevoked := by
  refine .bind (.request _) fun answer => ?_
  split
  · exact .fail _
  split
  · exact .fail _
  refine .bind (.emit ?_) fun _ => .bind (.emit .nowV7) fun operationId => ?_
  · intro env db u db' h
    obtain ⟨-, rfl⟩ := claimOauthFlow_yields h
    exact .of_accounts rfl
  refine .bind (exchangeAndDiscover_keepsUnrevoked discoveryRetries now _ _) ?_
  rintro ⟨exchanged, account, permissions⟩
  unfold connectAccount
  dsimp only
  split
  · exact .fail _
  refine .bind ?_ fun candidate => ?_
  · refine .bind (.tx (.query _)) fun stored => ?_
    cases stored with
    | none => exact .tx .nowV7
    | some stored =>
      dsimp only
      split
      · exact .pure _
      · exact .fail _
  refine .bind (.emit (connectOfficialAccount_keepsUnrevoked keys _ _ _ _ now)) fun accountId => ?_
  exact .bind (.tx (.mapError (.query _))) fun _ => .pure _

end Completions

/-! ## Refreshes under way -/

/-- Where a refresh stands. -/
inductive RefreshRun.Stage (lib : Externals) (db : Db) (r : RefreshRun) : Prop
  /-- It has not read the credential. -/
  | waiting (keys : CredentialKeyring) (callBudget discoveryRetries : Nat)
      (h : r.script = Lifecycle.refreshOfficialAccount lib keys r.accountId r.userRef callBudget
        discoveryRetries true r.now)
  /-- It makes its provider calls, or is about to conclude. If the account is revoked, that
  happened after it read the credential. -/
  | calling (calls : Lifecycle.RefreshScript Lifecycle.RefreshOutcome)
      (hcalls : calls.Respects OnlyUsage) (hread : r.read = true)
      (h : r.script = calls >>= Lifecycle.concludeRefresh lib r.accountId r.userRef r.now)
      (hrevoked : connectionStatus r.accountId db = some .revoked → r.superseded = true)
  /-- Nothing of the account is left to change. -/
  | settled (h : r.script.Respects OnlyUsage)

section Stages

variable {lib : Externals} {db db' : Db} {r : RefreshRun}

theorem RefreshRun.Stage.of_keeps (h : r.Stage lib db) (hk : KeepsUnrevoked db db') :
    r.Stage lib db' := by
  cases h with
  | waiting keys callBudget discoveryRetries h =>
    exact .waiting keys callBudget discoveryRetries h
  | calling calls hcalls hread h hrevoked =>
    exact .calling calls hcalls hread h fun hid => hrevoked (hk _ hid)
  | settled h => exact .settled h

/-- A revocation supersedes the refreshes of its account. -/
theorem RefreshRun.Stage.supersede {accountId : Uuid} (h : r.Stage lib db)
    (hk : ∀ id, id ≠ accountId → connectionStatus id db' = some .revoked →
      connectionStatus id db = some .revoked) :
    RefreshRun.Stage lib db'
      (if r.read && r.accountId = accountId then { r with superseded := true } else r) := by
  split
  · next hmatch =>
    cases h with
    | waiting keys callBudget discoveryRetries h =>
      exact .waiting keys callBudget discoveryRetries h
    | calling calls hcalls hread h hrevoked => exact .calling calls hcalls hread h fun _ => rfl
    | settled h => exact .settled h
  · next hmatch =>
    cases h with
    | waiting keys callBudget discoveryRetries h =>
      exact .waiting keys callBudget discoveryRetries h
    | calling calls hcalls hread h hrevoked =>
      refine .calling calls hcalls hread h fun hid => hrevoked (hk _ ?_ hid)
      rintro rfl
      simp [hread] at hmatch
    | settled h => exact .settled h

/-- What a step of a refresh does to the connections. -/
structure RefreshRun.Moved (lib : Externals) (r : RefreshRun) (db : Db) (next : RefreshRun × Db) :
    Prop where
  superseded : r.superseded = true → SameAuthorization r.accountId db next.2
  /-- It neither revokes an account nor takes one out of `revoked`. -/
  revoked : ∀ id, connectionStatus id next.2 = some .revoked ↔
    connectionStatus id db = some .revoked
  stage : next.1.Stage lib next.2

/-- A step that writes the usage ledger only. -/
theorem RefreshRun.Moved.of_usage {next : RefreshRun × Db} (h : OnlyUsage db next.2)
    (hstage : next.1.Stage lib next.2) : r.Moved lib db next where
  superseded _ := h.sameAuthorization _
  revoked id := by rw [(h.sameAuthorization id).status]
  stage := hstage

/-- **Step lemma.** A refresh that concludes. -/
theorem RefreshRun.Moved.conclude {outcome : Lifecycle.RefreshOutcome}
    (hscript : r.script = Lifecycle.concludeRefresh lib r.accountId r.userRef r.now outcome)
    (hrevoked : connectionStatus r.accountId db = some .revoked → r.superseded = true)
    (hguard : r.superseded = true → ¬ r.Rejected lib ∧
      (r.Renewed lib → ownedStatus r.accountId r.userRef db ≠ some .connected))
    (env : Env) (answer : AccountAnswer) : r.Moved lib db (r.advance env answer db) := by
  cases outcome with
  | rejected error =>
    have hsuperseded : ¬ r.superseded = true := fun h => (hguard h).1 ⟨error, hscript⟩
    have hstatus : connectionStatus r.accountId db ≠ some .revoked :=
      fun h => hsuperseded (hrevoked h)
    unfold RefreshRun.advance
    rw [hscript]
    rcases Tx.exec_cases (markReauthorizationRequired r.accountId r.userRef r.now) env db with
      ⟨u, db', he, hy⟩ | ⟨e, he⟩
    · have hadvance : (Lifecycle.concludeRefresh lib r.accountId r.userRef r.now
          (.rejected error)).advance env answer db = (Script.fail (.provider error), db', none) :=
        Script.advance_ok he
      rw [hadvance]
      refine ⟨fun h => (hsuperseded h).elim, fun id => ?_, .settled trivial⟩
      rcases markReauthorizationRequired_status hy id with hsame | ⟨rfl, hreauthorize⟩
      · rw [hsame]
      · rw [hreauthorize]
        exact iff_of_false (by simp) hstatus
    · have hadvance : (Lifecycle.concludeRefresh lib r.accountId r.userRef r.now
          (.rejected error)).advance env answer db = (.finish (.error e), db, none) :=
        Script.advance_error he
      rw [hadvance]
      exact .of_usage (Std.Refl.refl db) (.settled trivial)
  | renewed account permissions envelope keyVersion expiresAt =>
    unfold RefreshRun.advance
    rw [hscript]
    rcases Tx.exec_cases (refreshOfficialAccount lib r.accountId r.userRef account permissions
      envelope keyVersion expiresAt r.now) env db with ⟨g, db', he, hy⟩ | ⟨e, he⟩
    · have hadvance : (Lifecycle.concludeRefresh lib r.accountId r.userRef r.now
          (.renewed account permissions envelope keyVersion expiresAt)).advance env answer db =
          (Script.tx (mapError AccountLifecycleError.capability
            (query (Lifecycle.loadAccountCapabilities r.accountId))), db', none) :=
        Script.advance_ok he
      rw [hadvance]
      obtain ⟨hconnected, hstatus⟩ := refreshOfficialAccount_status hy
      refine ⟨fun h => ?_, fun id => ?_, .settled (.tx (.mapError (.query _)))⟩
      · exact ((hguard h).2 ⟨account, permissions, envelope, keyVersion, expiresAt, hscript⟩
          hconnected).elim
      · rcases hstatus id with hsame | ⟨rfl, hafter⟩
        · rw [hsame]
        · obtain ⟨a, ha, -, hbefore⟩ := ownedStatus_eq_some hconnected
          rw [hafter]
          refine iff_of_false (by simp) ?_
          unfold connectionStatus
          rw [ha, Option.map_some, hbefore]
          simp
    · have hadvance : (Lifecycle.concludeRefresh lib r.accountId r.userRef r.now
          (.renewed account permissions envelope keyVersion expiresAt)).advance env answer db =
          (.finish (.error e), db, none) := Script.advance_error he
      rw [hadvance]
      exact .of_usage (Std.Refl.refl db) (.settled trivial)

/-- **Step lemma.** A refresh under way. -/
theorem RefreshRun.Stage.advance (h : r.Stage lib db)
    (hguard : r.superseded = true → ¬ r.Rejected lib ∧
      (r.Renewed lib → ownedStatus r.accountId r.userRef db ≠ some .connected))
    (env : Env) (answer : AccountAnswer) : r.Moved lib db (r.advance env answer db) := by
  cases h with
  | settled h =>
    obtain ⟨husage, hnext⟩ := h.advance env answer db
    exact .of_usage husage (.settled hnext)
  | calling calls hcalls hread h hrevoked =>
    by_cases hended : ∃ outcome, calls = .finish (.ok outcome)
    · obtain ⟨outcome, rfl⟩ := hended
      exact .conclude h hrevoked hguard env answer
    · obtain ⟨husage, next, hnext, hscript⟩ := hcalls.advance_bind
        (Lifecycle.concludeRefresh lib r.accountId r.userRef r.now)
        (fun outcome ho => hended ⟨outcome, ho⟩) env answer db
      rw [← h] at husage hscript
      refine .of_usage husage (.calling next hnext ?_ hscript fun hid => hrevoked ?_)
      · simp [RefreshRun.advance, hread]
      · rwa [← (husage.sameAuthorization r.accountId).status]
  | waiting keys callBudget discoveryRetries h =>
    obtain ⟨next, hprepare, hnext⟩ := Lifecycle.prepareRefresh_reads keys r.accountId r.userRef
      callBudget discoveryRetries r.now
    have hscript : r.script = .transact (query (Lifecycle.storedCredential r.accountId))
        (fun _ => some .read)
        fun row => next row >>= Lifecycle.concludeRefresh lib r.accountId r.userRef r.now := by
      rw [h, Lifecycle.refreshOfficialAccount, hprepare]
      rfl
    unfold RefreshRun.advance
    rw [hscript]
    rcases Tx.exec_cases (query (Lifecycle.storedCredential r.accountId) :
      LifecycleTx _) env db with ⟨row, db', he, hy⟩ | ⟨e, he⟩
    · rw [Script.advance_ok he]
      obtain ⟨rfl, rfl⟩ := hy.query
      refine .of_usage (Std.Refl.refl db) ?_
      obtain ⟨husage, ⟨e, hfailed⟩ | ⟨owner, status, envelope, hrow, hstatus⟩⟩ :=
        hnext (Lifecycle.storedCredential r.accountId db)
      · refine .settled ?_
        dsimp only
        rw [hfailed]
        trivial
      · refine .calling _ husage (by simp) rfl fun hid => (hstatus ?_).elim
        unfold Lifecycle.storedCredential at hrow
        cases ha : db.accounts.lookup r.accountId with
        | none => simp [ha] at hrow
        | some a =>
          cases hc : db.credentials.rows.find? fun c => c.accountId = r.accountId with
          | none => simp [ha, hc] at hrow
          | some c =>
            simp [ha, hc] at hrow
            simp [connectionStatus, ha] at hid
            rw [← hrow.2.1, hid]
    · rw [Script.advance_error he]
      exact .of_usage (Std.Refl.refl db) (.settled trivial)

end Stages

/-! ## Whole runs -/

/-- Every refresh stands where `Stage` says, and no completion can revoke an account. -/
structure ConnectionSystem.Followed (lib : Externals) (s : ConnectionSystem) : Prop where
  refreshes : ∀ r ∈ s.refreshes, r.Stage lib s.db
  completions : ∀ c ∈ s.completions, c.Respects KeepsUnrevoked

section Runs

variable {lib : Externals} {s : ConnectionSystem}

theorem ConnectionSystem.Followed.superseded (h : s.Followed lib) {accountId : Uuid} {db : Db}
    (hk : ∀ id, id ≠ accountId → connectionStatus id db = some .revoked →
      connectionStatus id s.db = some .revoked) :
    ∀ r ∈ supersede accountId s.refreshes, r.Stage lib db := by
  intro r hr
  obtain ⟨x, hx, rfl⟩ := List.mem_map.mp hr
  exact (h.refreshes x hx).supersede hk

/-- **Step lemma** of a refresh in the system. -/
theorem ConnectionSystem.Followed.advanceRefresh (h : s.Followed lib) {index : Nat} {env : Env}
    {answer : AccountAnswer} (hg : Undisturbed lib s (.advanceRefresh index env answer)) :
    (connectionStep lib s (.advanceRefresh index env answer)).Followed lib ∧
      ActsOnOwnConnection lib s (.advanceRefresh index env answer) := by
  cases hr : s.refreshes[index]? with
  | none =>
    have hstep : connectionStep lib s (.advanceRefresh index env answer) = s := by
      simp only [connectionStep, hr]
    refine ⟨hstep.symm ▸ h, ?_, fun id hid hne => (hne (hstep.symm ▸ hid)).elim⟩
    intro i e a r ha hsome
    cases ha
    rw [hr] at hsome
    cases hsome
  | some r =>
    have hmoved := (h.refreshes r (List.mem_of_getElem? hr)).advance (hg r hr) env answer
    have hstep : connectionStep lib s (.advanceRefresh index env answer) =
        { s with db := (r.advance env answer s.db).2
                 refreshes := s.refreshes.set index (r.advance env answer s.db).1 } := by
      simp only [connectionStep, hr]
    have hkeeps : KeepsUnrevoked s.db (r.advance env answer s.db).2 :=
      fun id hid => (hmoved.revoked id).mp hid
    constructor
    · rw [hstep]
      refine ⟨fun x hx => ?_, h.completions⟩
      rcases List.mem_or_eq_of_mem_set hx with hx | rfl
      · exact (h.refreshes x hx).of_keeps hkeeps
      · exact hmoved.stage
    · constructor
      · intro i e a x ha hsome hsuperseded
        cases ha
        rw [hr] at hsome
        cases hsome
        rw [hstep]
        exact hmoved.superseded hsuperseded
      · intro id hid hne
        rw [hstep] at hne
        exact (hne ((hmoved.revoked id).mpr hid)).elim

/-- A step of no refresh acts on its own connection when it leaves revoked accounts revoked or
belongs to a completion. -/
theorem ActsOnOwnConnection.of_other {a : ConnectionAction}
    (ha : ∀ index env answer, a ≠ .advanceRefresh index env answer)
    (hrevoked : ∀ id, connectionStatus id s.db = some .revoked →
      connectionStatus id (connectionStep lib s a).db = some .revoked) :
    ActsOnOwnConnection lib s a where
  superseded index env answer _ h := (ha index env answer h).elim
  revoked id hid hne := (hne (hrevoked id hid)).elim

/-- **Step lemma** of a completion in the system. -/
theorem ConnectionSystem.Followed.advanceCompletion (h : s.Followed lib) (index : Nat) (env : Env)
    (answer : AccountAnswer) :
    (connectionStep lib s (.advanceCompletion index env answer)).Followed lib ∧
      ActsOnOwnConnection lib s (.advanceCompletion index env answer) := by
  refine ⟨?_, fun i e a r ha => (ConnectionAction.noConfusion ha),
    fun id _ _ => ⟨index, env, answer, rfl⟩⟩
  cases hc : s.completions[index]? with
  | none =>
    have hstep : connectionStep lib s (.advanceCompletion index env answer) = s := by
      simp only [connectionStep, hc]
    rw [hstep]
    exact h
  | some c =>
    have hkept := (h.completions c (List.mem_of_getElem? hc)).advance env answer s.db
    simp only [connectionStep, hc]
    constructor
    · intro r hr
      dsimp only at hr
      unfold supersedeOn at hr
      split at hr
      · exact h.superseded (fun id _ hid => hkept.1 id hid) r hr
      · exact (h.refreshes r hr).of_keeps hkept.1
    · intro x hx
      rcases List.mem_or_eq_of_mem_set hx with hx | rfl
      · exact h.completions x hx
      · exact hkept.2

theorem ConnectionSystem.Followed.scrub (h : s.Followed lib) (env : Env) (accountId userRef : Uuid)
    (outcome : ProviderRevokeOutcome) (now : Instant) :
    (connectionStep lib s (.scrub env accountId userRef outcome now)).Followed lib ∧
      ActsOnOwnConnection lib s (.scrub env accountId userRef outcome now) := by
  rcases Tx.exec_cases (scrubRevokedAccount accountId userRef outcome now) env s.db with
    ⟨u, db', he, hy⟩ | ⟨e, he⟩
  · have hstep : connectionStep lib s (.scrub env accountId userRef outcome now) =
        { s with db := db', refreshes := supersede accountId s.refreshes } := by
      simp only [connectionStep, he]
    refine ⟨?_, .of_other (fun _ _ _ ha => ConnectionAction.noConfusion ha) fun id hid => ?_⟩
    · rw [hstep]
      refine ⟨h.superseded fun id hne hid => ?_, h.completions⟩
      rwa [scrubRevokedAccount_status hy, if_neg hne] at hid
    · rw [hstep]
      dsimp only
      rw [scrubRevokedAccount_status hy]
      split
      · rfl
      · exact hid
  · have hstep : connectionStep lib s (.scrub env accountId userRef outcome now) = s := by
      simp only [connectionStep, he]
    rw [hstep]
    exact ⟨h, .of_other (fun _ _ _ ha => ConnectionAction.noConfusion ha) fun id hid => by
      rw [hstep]
      exact hid⟩

/-- **Step lemma.** -/
theorem connectionStep_followed (h : s.Followed lib) (a : ConnectionAction)
    (hg : Undisturbed lib s a) :
    (connectionStep lib s a).Followed lib ∧ ActsOnOwnConnection lib s a := by
  cases a with
  | advanceRefresh index env answer => exact h.advanceRefresh hg
  | advanceCompletion index env answer => exact h.advanceCompletion index env answer
  | scrub env accountId userRef outcome now => exact h.scrub env accountId userRef outcome now
  | beginRefresh keys accountId userRef callBudget discoveryRetries refreshSupported now =>
    refine ⟨⟨fun r hr => ?_, h.completions⟩,
      .of_other (fun _ _ _ ha => ConnectionAction.noConfusion ha) fun _ hid => hid⟩
    rcases List.mem_append.mp hr with hr | hr
    · exact h.refreshes r hr
    · rw [List.mem_singleton] at hr
      subst hr
      cases refreshSupported with
      | true => exact .waiting keys callBudget discoveryRetries rfl
      | false => exact .settled trivial
  | beginCompletion keys userRef relayId redirectUri callBudget discoveryRetries now =>
    refine ⟨⟨h.refreshes, fun c hc => ?_⟩,
      .of_other (fun _ _ _ ha => ConnectionAction.noConfusion ha) fun _ hid => hid⟩
    rcases List.mem_append.mp hc with hc | hc
    · exact h.completions c hc
    · rw [List.mem_singleton] at hc
      subst hc
      exact Lifecycle.completeOfficialOauth_keepsUnrevoked lib keys userRef relayId redirectUri
        callBudget discoveryRetries now
  | others tables =>
    exact ⟨⟨fun r hr => (h.refreshes r hr).of_keeps (.of_accounts rfl), h.completions⟩,
      .of_other (fun _ _ _ ha => ConnectionAction.noConfusion ha) fun _ hid => hid⟩

/-- **Refreshes act on their own connection.** In every run over any database in which no
superseded refresh concludes after a refused authorization or on a connected account, no
superseded refresh changes its account's status, credential or capabilities, and an account
leaves `revoked` only through a completion. -/
theorem refreshes_act_on_own_connection (lib : Externals) (db : Db)
    (actions : List ConnectionAction)
    (hg : Guarded (connectionStep lib) (Undisturbed lib) { db } actions) :
    Guarded (connectionStep lib) (ActsOnOwnConnection lib) { db } actions := by
  have hstart : ConnectionSystem.Followed lib { db } :=
    ⟨fun _ hr => (List.not_mem_nil hr).elim, fun _ hc => (List.not_mem_nil hc).elim⟩
  generalize ({ db } : ConnectionSystem) = s at hg hstart
  induction actions generalizing s with
  | nil => trivial
  | cons a rest ih =>
    obtain ⟨hfollowed, hacts⟩ := connectionStep_followed hstart a hg.1
    exact ⟨hacts, ih _ hg.2 hfollowed⟩

end Runs

/-! ### Runs of the system -/

/-- A provider that refuses every authorization. -/
def refusedAuthorization : AccountAnswer :=
  ⟨.error .unavailable, .error ⟨.authentication, some 401⟩, .error ⟨.authentication, some 401⟩,
    .error ⟨.authentication, some 401⟩⟩

/-- Steps of the first refresh of the system. -/
def refreshSteps (first : Uuid) (n : Nat) : List ConnectionAction :=
  (List.range n).map fun k => .advanceRefresh 0 (quietEnv 0 (first + 16 * k)) refusedAuthorization

/-- A refresh reads the credential and reserves its first call; then the account is revoked. -/
def revokedDuringCall : List ConnectionAction :=
  .beginRefresh plainKeys 1 9 4 2 true 0 :: refreshSteps 100 3 ++
    [.scrub (quietEnv 0 200) 1 9 .unsupported 0]

/-- A refresh that waits for an answer does not conclude. -/
theorem undisturbed_of_asked {lib : Externals} {s : ConnectionSystem} {index : Nat} {env : Env}
    {answer : AccountAnswer} {request : AccountRequest}
    (h : (s.refreshes[index]?.bind fun r => r.script.asked) = some request) :
    Undisturbed lib s (.advanceRefresh index env answer) := by
  intro r hr _
  have hasked : r.script.asked = some request := by
    rw [hr] at h
    exact h
  constructor
  · rintro ⟨error, hscript⟩
    rw [hscript] at hasked
    cases hasked
  · rintro ⟨account, permissions, envelope, keyVersion, expiresAt, hscript⟩
    rw [hscript] at hasked
    cases hasked

theorem refreshes_act_on_own_connection_revoked :
    Guarded (connectionStep reference) (ActsOnOwnConnection reference) { db := connectedDb }
      (revokedDuringCall ++ refreshSteps 300 1) := by
  apply refreshes_act_on_own_connection
  have hfresh : ∀ (s : ConnectionSystem) (a : ConnectionAction),
      (s.refreshes.all fun r => !r.superseded) = true → Undisturbed reference s a := by
    intro s a hall
    cases a with
    | advanceRefresh index env answer =>
      intro r hr hsuperseded
      have := List.all_eq_true.mp hall r (List.mem_of_getElem? hr)
      simp [hsuperseded] at this
    | _ => trivial
  have hfirst : Guarded (connectionStep reference) (Undisturbed reference) { db := connectedDb }
      revokedDuringCall := by
    have hcomputed : Guarded (connectionStep reference)
        (fun s _ => (s.refreshes.all fun r => !r.superseded) = true) { db := connectedDb }
        revokedDuringCall := by decide +kernel
    exact hcomputed.mono _ hfresh
  have hasked : ((run (connectionStep reference) { db := connectedDb }
      revokedDuringCall).refreshes[0]?.bind fun r => r.script.asked) = some (.refreshToken "t") := by
    decide +kernel
  have hlast : Undisturbed reference
      (run (connectionStep reference) { db := connectedDb } revokedDuringCall)
      (.advanceRefresh 0 (quietEnv 0 300) refusedAuthorization) := undisturbed_of_asked hasked
  exact (guarded_append _ _ _ _ _).mpr ⟨hfirst, hlast, trivial⟩

/-- The refused authorization of a revoked account, up to the last transaction. -/
def refusedAfterRevocation : List ConnectionAction := revokedDuringCall ++ refreshSteps 300 2

/-- The provider refuses the authorization after the account was revoked: the refresh takes the
account out of `revoked`. -/
theorem refused_refresh_leaves_revoked :
    connectionStatus 1 (run (connectionStep reference) { db := connectedDb }
        revokedDuringCall).db = some .revoked ∧
      connectionStatus 1 (run (connectionStep reference) { db := connectedDb }
        (refusedAfterRevocation ++ refreshSteps 400 1)).db = some .reauthorizationRequired ∧
      ¬ Guarded (connectionStep reference) (ActsOnOwnConnection reference) { db := connectedDb }
        (refusedAfterRevocation ++ refreshSteps 400 1) := by
  refine ⟨by decide +kernel, by decide +kernel, fun hguarded => ?_⟩
  have hlast : ActsOnOwnConnection reference
      (run (connectionStep reference) { db := connectedDb } refusedAfterRevocation)
      (.advanceRefresh 0 (quietEnv 0 400) refusedAuthorization) :=
    ((guarded_append _ _ _ _ _).mp hguarded).2.1
  obtain ⟨index, env, answer, h⟩ :=
    hlast.revoked 1 (by decide +kernel) (by decide +kernel)
  cases h

end InstagramArchive

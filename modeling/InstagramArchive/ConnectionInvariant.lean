import InstagramArchive.Accounts
import InstagramArchive.Erasure
import InstagramArchive.Relational.Execution

/-!
# The connection invariant

Four procedures rewrite what an account is: its status, its credential, its scopes and type,
and a capability matrix that each of them deletes and inserts again. `ConnectionInvariant`
says how these agree. A transaction of the lifecycle touches the rows of one account, so the
invariant is one of `accountView`, account by account; `RewritesAccount` and `sound_of_rewrite`
are the step every transaction takes.
-/

namespace InstagramArchive

open Relational Relational.Tx

/-! ## Lifecycle transactions -/

/-- The committed transactions of the account lifecycle. A sweep over stranded revocations runs
`scrub` with a failed provider outcome. -/
inductive AccountCall where
  | connect (keys : CredentialKeyring) (userRef candidateAccountId : Uuid)
      (account : ProviderAccount) (permissions : PermissionStatuses) (token : ProviderToken)
      (now : Instant)
  | refresh (accountId userRef : Uuid) (account : ProviderAccount)
      (permissions : PermissionStatuses) (envelope : List UInt8) (keyVersion : Nat)
      (expiresAt : Option Instant) (now : Instant)
  | reauthorize (accountId userRef : Uuid) (now : Instant)
  | scrub (accountId userRef : Uuid) (outcome : ProviderRevokeOutcome) (now : Instant)
  | delete (request : DeletionRequest)

def AccountCall.perform (lib : Externals) (env : Env) (db : Db) : AccountCall → Db
  | .connect keys userRef candidateAccountId account permissions token now =>
    ((connectOfficialAccount lib keys userRef candidateAccountId account permissions token
      now).exec env db).2
  | .refresh accountId userRef account permissions envelope keyVersion expiresAt now =>
    ((refreshOfficialAccount lib accountId userRef account permissions envelope keyVersion
      expiresAt now).exec env db).2
  | .reauthorize accountId userRef now =>
    ((markReauthorizationRequired accountId userRef now).exec env db).2
  | .scrub accountId userRef outcome now =>
    ((scrubRevokedAccount accountId userRef outcome now).exec env db).2
  | .delete request => ((applyDeletion lib request).exec env db).2

/-- One transaction in its environment. -/
def accountStep (lib : Externals) (db : Db) (call : Env × AccountCall) : Db :=
  call.2.perform lib call.1 db

/-! ## The invariant -/

/-- The capabilities that read the provider. -/
def AccountCapability.reads : AccountCapability → Bool
  | .accountIdentityRead | .ownMediaRead => true
  | _ => false

/-- What is stored about one account. -/
structure AccountView where
  account : Option Account
  matrix : List CapabilityRow
  credentials : List Credential

def accountView (accountId : Uuid) (db : Db) : AccountView where
  account := db.accounts.lookup accountId
  matrix := db.accountCapabilities.rows.filter fun r => r.accountId = accountId
  credentials := db.credentials.rows.filter fun c => c.accountId = accountId

/-- The rows of an account agree with each other. -/
structure Account.Sound (a : Account) (matrix : List CapabilityRow)
    (credentials : List Credential) : Prop where
  capabilities : matrix.map CapabilityRow.capability = AccountCapability.all
  generation : ∃ generationId, ∀ r ∈ matrix, r.generationId = generationId
  credential : credentials ≠ [] ↔ a.connectionStatus = .connected
  available : ∀ r ∈ matrix, r.capabilityState = .available → r.capability.reads = true ∧
    a.connectionStatus = .connected ∧ a.accountType.isProfessional = true ∧
    basicPermission ∈ a.scopes

def AccountView.Sound (v : AccountView) : Prop :=
  match v.account with
  | none => v.matrix = [] ∧ v.credentials = []
  | some a => a.Sound v.matrix v.credentials

/-- Every account is sound, and a provider identity belongs to one account. -/
structure ConnectionSound (db : Db) : Prop where
  views : ∀ accountId, (accountView accountId db).Sound
  providers : (db.accounts.rows.map Account.providerAccountId).Nodup

theorem connectionSound_initial : ConnectionSound {} where
  views _ := ⟨rfl, rfl⟩
  providers := List.nodup_nil

section Rewriting

variable {db db' : Db} {accountId : Uuid} {matrix : List CapabilityRow}

/-- `db'` rewrites the rows of one account, and gives it this matrix. -/
structure RewritesAccount (accountId : Uuid) (matrix : List CapabilityRow) (db db' : Db) :
    Prop where
  accounts : ∀ id, id ≠ accountId → db'.accounts.lookup id = db.accounts.lookup id
  capabilities : db'.accountCapabilities.rows =
    (db.accountCapabilities.rows.filter fun r => r.accountId ≠ accountId) ++ matrix
  matrix : ∀ r ∈ matrix, r.accountId = accountId
  credentials : ∀ id, id ≠ accountId →
    (db'.credentials.rows.filter fun c => c.accountId = id) =
      db.credentials.rows.filter fun c => c.accountId = id

theorem RewritesAccount.view_of_ne (h : RewritesAccount accountId matrix db db') {id : Uuid}
    (hne : id ≠ accountId) : accountView id db' = accountView id db := by
  have hmatrix : (matrix.filter fun r => r.accountId = id) = [] := by
    apply List.filter_eq_nil_iff.mpr
    intro r hr
    simp [h.matrix r hr, Ne.symm hne]
  have hkept : ((db.accountCapabilities.rows.filter fun r => r.accountId ≠ accountId).filter
      fun r => r.accountId = id) =
        db.accountCapabilities.rows.filter fun r => r.accountId = id := by
    rw [List.filter_filter]
    apply List.filter_congr
    intro r _
    by_cases hr : r.accountId = id <;> simp [hr, hne]
  simp only [accountView, h.accounts id hne, h.credentials id hne, h.capabilities,
    List.filter_append, hkept, hmatrix, List.append_nil]

theorem RewritesAccount.matrix_eq (h : RewritesAccount accountId matrix db db') :
    (accountView accountId db').matrix = matrix := by
  have hgone : ((db.accountCapabilities.rows.filter fun r => r.accountId ≠ accountId).filter
      fun r => r.accountId = accountId) = [] := by
    rw [List.filter_filter]
    apply List.filter_eq_nil_iff.mpr
    intro r _
    simp
  have hall : (matrix.filter fun r => r.accountId = accountId) = matrix :=
    List.filter_eq_self.mpr fun r hr => by simp [h.matrix r hr]
  simp only [accountView, h.capabilities, List.filter_append, hgone, hall, List.nil_append]

/-- **Step lemma.** A transaction that rewrites one account keeps the invariant when that
account is sound afterwards. -/
theorem sound_of_rewrite (hs : ConnectionSound db) (h : RewritesAccount accountId matrix db db')
    (haccount : ∃ a, db'.accounts.lookup accountId = some a ∧
      a.Sound matrix (db'.credentials.rows.filter fun c => c.accountId = accountId))
    (hproviders : (db'.accounts.rows.map Account.providerAccountId).Nodup) :
    ConnectionSound db' := by
  refine ⟨fun id => ?_, hproviders⟩
  by_cases hid : id = accountId
  · subst hid
    obtain ⟨a, ha, hsound⟩ := haccount
    have hmatrix := h.matrix_eq
    unfold AccountView.Sound
    rw [hmatrix]
    simp only [accountView, ha]
    exact hsound
  · rw [h.view_of_ne hid]
    exact hs.views id

end Rewriting

/-! ## What the statements do -/

/-- The tables the invariant is about. -/
structure SameConnection (db db' : Db) : Prop where
  accounts : db'.accounts = db.accounts
  capabilities : db'.accountCapabilities = db.accountCapabilities
  credentials : db'.credentials = db.credentials

instance : IsPreorder Db SameConnection where
  refl _ := ⟨rfl, rfl, rfl⟩
  trans _ _ _ h h' := ⟨h'.accounts.trans h.accounts, h'.capabilities.trans h.capabilities,
    h'.credentials.trans h.credentials⟩

/-- The matrix of an observation under a generation. -/
def observedMatrix (accountId generationId : Uuid) (observation : AccountObservation) :
    List CapabilityRow :=
  (reconcile observation).map fun r =>
    { accountId, generationId, capability := r.capability, capabilityState := r.state,
      reason := r.reason, observedAt := observation.observedAt }

section Statements

variable {ε : Type} [OfSql ε] {lib : Externals} {env : Env} {db db' : Db} {accountId : Uuid}

theorem insertCapabilities_yields {rows : List CapabilityRow} {u : Unit}
    (h : (insertCapabilities rows : ArchiveTx ε Unit).Yields env db u db') :
    db' = { db with accountCapabilities := db'.accountCapabilities } ∧
      db'.accountCapabilities.rows = db.accountCapabilities.rows ++ rows ∧
      ∀ r ∈ rows, (db.accounts.lookup r.accountId).isSome := by
  induction rows generalizing db with
  | nil =>
    obtain ⟨-, rfl⟩ := yields_pure.mp h
    exact ⟨rfl, (List.append_nil _).symm, fun r hr => (List.not_mem_nil hr).elim⟩
  | cons row rest ih =>
    obtain ⟨_, _, h1, h⟩ := h.bind
    obtain ⟨hguard, t, ht, rfl⟩ := h1.insertInto
    obtain ⟨hframe, hrows, hall⟩ := ih h
    refine ⟨hframe, ?_, fun r hr => ?_⟩
    · rw [hrows, (Table.insert?_eq_some ht).1, List.append_assoc]
      rfl
    · rcases List.mem_cons.mp hr with rfl | hr
      · unfold accountMissing at hguard
        split at hguard
        · cases hguard
        · next hnone => simpa [Option.isSome_iff_ne_none] using hnone
      · exact hall r hr

theorem insertPermissions_same {generationId : Uuid} {observation : AccountObservation}
    (names : List String) :
    (insertPermissions accountId generationId observation names : ArchiveTx ε Unit).Respects
      SameConnection := by
  induction names with
  | nil => exact .pure _
  | cons name rest ih =>
    exact .bind .nowV7 fun _ => .bind (.insertInto fun _ _ => ⟨rfl, rfl, rfl⟩) fun _ => ih

theorem insertApiResponse_same (tooLong : ε) (body : String) (now : Instant) :
    (insertApiResponse lib tooLong body now).Respects SameConnection := by
  unfold insertApiResponse
  split
  · exact .throw
  · exact .bind .nowV7 fun _ => .bind (.insertInto fun _ _ => ⟨rfl, rfl, rfl⟩) fun _ => .pure _

theorem audit_same (changeKind : CredentialChange) (outcome : CredentialOutcome) (now : Instant) :
    (audit accountId changeKind outcome now : ArchiveTx ε Unit).Respects SameConnection :=
  .bind .nowV7 fun _ => .insertInto fun _ _ => ⟨rfl, rfl, rfl⟩

theorem rows_deleteCapabilities (db : Db) :
    (deleteCapabilities accountId db).accountCapabilities.rows =
      db.accountCapabilities.rows.filter fun r => r.accountId ≠ accountId := by
  unfold deleteCapabilities
  rw [Table.rows_delete]
  exact List.filter_congr fun r _ => by simp

theorem rows_deleteCredentials (db : Db) :
    (deleteCredentials accountId db).credentials.rows =
      db.credentials.rows.filter fun c => c.accountId ≠ accountId := by
  unfold deleteCredentials
  rw [Table.rows_delete]
  exact List.filter_congr fun c _ => by simp

/-- **What a reconciliation does.** The matrix is replaced under a new generation, and the
account gets the type and the granted permissions of the observation. -/
theorem reconcile_yields {observation : AccountObservation} {generationId : Uuid}
    (h : (reconcileAccountCapabilitiesInTransaction accountId observation).Yields env db
      generationId db') :
    db'.accounts = db.accounts.update (fun a => a.accountId = accountId) (fun a =>
        { a with accountType := observation.accountType
                 scopes := observation.permissions.granted
                 updatedAt := env.now }) (fun _ => rfl) ∧
      db'.accountCapabilities.rows =
        (db.accountCapabilities.rows.filter fun r => r.accountId ≠ accountId) ++
          observedMatrix accountId generationId observation ∧
      db'.credentials = db.credentials := by
  obtain ⟨g, _, h1, h⟩ := h.bind
  obtain rfl := h1.nowV7
  obtain ⟨_, m1, h2, h⟩ := h.bind
  obtain rfl := h2.execute
  obtain ⟨_, m2, h3, h⟩ := h.bind
  have hdeleted := h3.execute
  obtain ⟨_, m3, h4, h⟩ := h.bind
  have hpermissions := insertPermissions_same _ env _ _ _ h4
  obtain ⟨_, m4, h5, h⟩ := h.bind
  obtain ⟨hframe, hrows, -⟩ := insertCapabilities_yields h5
  obtain ⟨now, _, h6, h⟩ := h.bind
  obtain ⟨rfl, rfl⟩ := h6.now
  obtain ⟨_, m5, h7, h⟩ := h.bind
  have hupdated := h7.execute
  obtain ⟨rfl, rfl⟩ := yields_pure.mp h
  have haccounts : m4.accounts = db.accounts := by
    rw [hframe, hpermissions.accounts, hdeleted]
    rfl
  have hcredentials : m4.credentials = db.credentials := by
    rw [hframe, hpermissions.credentials, hdeleted]
    rfl
  refine ⟨?_, ?_, ?_⟩
  · rw [hupdated, haccounts]
  · rw [hupdated, hrows, hpermissions.capabilities, hdeleted, rows_deleteCapabilities]
    rfl
  · rw [hupdated, hcredentials]

end Statements

/-! ## Sound matrices -/

section Matrices

variable {accountId generationId : Uuid} {observation : AccountObservation}

theorem reconcileOne_capability (observation : AccountObservation) (c : AccountCapability) :
    (reconcileOne observation c).capability = c := by
  unfold reconcileOne
  dsimp only
  split
  · rfl
  · split
    · rfl
    · split
      · rfl
      · split
        · rfl
        · split
          · rfl
          · split <;> rfl

/-- Without write consent an available capability reads, and its account is professional and
granted the basic permission. -/
theorem reconcileOne_available {c : AccountCapability}
    (hconsent : observation.externalWriteConsent = false)
    (h : (reconcileOne observation c).state = .available) :
    c.reads = true ∧ observation.accountType.isProfessional = true ∧
      observation.permissions.status basicPermission = .granted := by
  unfold reconcileOne at h
  dsimp only at h
  by_cases hnative : c = .nativeSavedRead
  · rw [if_pos hnative] at h
    cases h
  rw [if_neg hnative] at h
  by_cases hprofessional : observation.accountType.isProfessional = true
  · rw [hprofessional, Bool.not_true, if_neg Bool.false_ne_true] at h
    by_cases hbasic : observation.permissions.status basicPermission = .granted
    · rw [if_neg (not_not_intro hbasic)] at h
      refine ⟨?_, hprofessional, hbasic⟩
      cases c with
      | accountIdentityRead | ownMediaRead => rfl
      | nativeSavedRead => exact (hnative rfl).elim
      | contentPublish | commentManagement | messageManagement =>
        simp only [AccountCapability.writePermission, hconsent, Bool.not_false, if_true] at h
        split at h <;> cases h
    · rw [if_pos hbasic] at h
      cases h
  · rw [Bool.eq_false_iff.mpr hprofessional, Bool.not_false, if_pos rfl] at h
    cases h

theorem mem_granted {permissions : PermissionStatuses} {name : String}
    (h : permissions.status name = .granted) : name ∈ permissions.granted := by
  unfold PermissionStatuses.status at h
  cases hfind : permissions.lookup name with
  | none =>
    rw [hfind] at h
    cases h
  | some p =>
    rw [hfind] at h
    obtain ⟨hp, hname⟩ := Table.lookup_eq_some.mp hfind
    unfold PermissionStatuses.granted PermissionStatuses.entries
    refine List.mem_map.mpr ⟨p, ?_, hname⟩
    simp only [List.mem_filter, List.mem_insertionSort, decide_eq_true_eq]
    exact ⟨hp, h⟩

/-- A connected account with the matrix of what it was observed to be. -/
theorem Account.sound_observed {a : Account} {credentials : List Credential}
    (hconsent : observation.externalWriteConsent = false)
    (hstatus : a.connectionStatus = .connected) (htype : a.accountType = observation.accountType)
    (hscopes : a.scopes = observation.permissions.granted) (hcredentials : credentials ≠ []) :
    a.Sound (observedMatrix accountId generationId observation) credentials where
  capabilities := by
    unfold observedMatrix reconcile
    simp only [List.map_map]
    calc _ = AccountCapability.all.map id :=
          List.map_congr_left fun c _ => reconcileOne_capability observation c
      _ = AccountCapability.all := List.map_id _
  generation := ⟨generationId, fun r hr => by
    obtain ⟨x, -, rfl⟩ := List.mem_map.mp hr
    rfl⟩
  credential := iff_of_true hcredentials hstatus
  available r hr hstate := by
    obtain ⟨x, hx, rfl⟩ := List.mem_map.mp hr
    obtain ⟨c, -, rfl⟩ := List.mem_map.mp hx
    obtain ⟨hreads, hprofessional, hbasic⟩ := reconcileOne_available hconsent hstate
    rw [htype, hscopes, reconcileOne_capability]
    exact ⟨hreads, hstatus, hprofessional, mem_granted hbasic⟩

/-- An account without authorization. -/
theorem Account.sound_unavailable {a : Account} {reason : CapabilityReason} {now : Instant}
    (hstatus : a.connectionStatus ≠ .connected) :
    a.Sound (unavailableMatrix accountId generationId reason now) [] where
  capabilities := rfl
  generation := ⟨generationId, fun r hr => by
    obtain ⟨x, -, rfl⟩ := List.mem_map.mp hr
    rfl⟩
  credential := iff_of_false (fun h => h rfl) hstatus
  available r hr hstate := by
    obtain ⟨x, -, rfl⟩ := List.mem_map.mp hr
    cases hstate

end Matrices

/-! ## Every transaction keeps the invariant -/

section Transactions

variable {lib : Externals} {env : Env} {db db' : Db} {accountId userRef : Uuid}

/-- What an update of one account leaves in the table. -/
theorem accounts_update (accountId : Uuid) {t t' : Table Account Account.accountId} {p : Account → Bool}
    {f : Account → Account} {hf : ∀ a, (f a).accountId = a.accountId} (ht : t' = t.update p f hf)
    (hp : ∀ a, p a = true → a.accountId = accountId)
    (hprovider : ∀ a, (f a).providerAccountId = a.providerAccountId) :
    (∀ id, id ≠ accountId → t'.lookup id = t.lookup id) ∧
      t'.rows.map Account.providerAccountId = t.rows.map Account.providerAccountId ∧
      t'.lookup accountId = (t.lookup accountId).map fun a => if p a then f a else a := by
  subst ht
  refine ⟨fun id hne => ?_, ?_, Table.lookup_update t p f hf accountId⟩
  · rw [Table.lookup_update]
    cases hlookup : t.lookup id with
    | none => rfl
    | some a =>
      have hid : a.accountId = id := (Table.lookup_eq_some.mp hlookup).2
      cases hpa : p a with
      | true => exact (hne (hid.symm.trans (hp a hpa))).elim
      | false => simp [hpa]
  · rw [Table.rows_update, List.map_map]
    apply List.map_congr_left
    intro a _
    simp only [Function.comp_apply]
    split
    · exact hprovider a
    · rfl

/-- **What the upsert does.** The account is connected, and every other account is as before. -/
theorem upsertAccount_yields {row : Account} (hrow : row.connectionStatus = .connected)
    (h : (upsertAccount row).Yields env db accountId db')
    (hproviders : (db.accounts.rows.map Account.providerAccountId).Nodup) :
    (∃ a, db'.accounts.lookup accountId = some a ∧ a.connectionStatus = .connected) ∧
      (∀ id, id ≠ accountId → db'.accounts.lookup id = db.accounts.lookup id) ∧
      (db'.accounts.rows.map Account.providerAccountId).Nodup ∧
      db' = { db with accounts := db'.accounts } := by
  obtain ⟨stored, _, h1, h⟩ := h.bind
  obtain ⟨hstored, rfl⟩ := h1.query
  cases stored with
  | none =>
    obtain ⟨_, _, h2, h⟩ := h.bind
    obtain ⟨-, t, ht, rfl⟩ := h2.insertInto
    obtain ⟨rfl, rfl⟩ := yields_pure.mp h
    refine ⟨⟨row, ?_, hrow⟩, fun id hne => ?_, ?_, rfl⟩
    · exact Table.lookup_mem ((Table.mem_of_insert? ht row).mpr (.inr rfl))
    · change t.lookup id = db.accounts.lookup id
      rw [Table.lookup_of_insert? ht, if_neg (Ne.symm hne)]
    · change (t.rows.map Account.providerAccountId).Nodup
      rw [(Table.insert?_eq_some ht).1, List.map_append, List.nodup_append]
      refine ⟨hproviders, List.nodup_singleton _, ?_⟩
      intro provider hprovider other hother heq
      obtain ⟨a, ha, rfl⟩ := List.mem_map.mp hprovider
      have hnone := List.find?_eq_none.mp hstored.symm a ha
      rw [List.map_singleton, List.mem_singleton] at hother
      exact hnone (by simp [heq, hother])
  | some x =>
    dsimp only at h
    split at h
    · exact h.throw.elim
    · obtain ⟨_, m, h2, h⟩ := h.bind
      have hupdated := h2.execute
      obtain ⟨rfl, rfl⟩ := yields_pure.mp h
      have hx : x ∈ db.accounts := List.mem_of_find?_eq_some hstored.symm
      have hmoved : m.accounts = db.accounts.update (fun a => a.accountId = x.accountId) (fun a =>
          { a with username := row.username, accountType := row.accountType,
                   connectionStatus := .connected, scopes := row.scopes,
                   updatedAt := row.updatedAt }) (fun _ => rfl) := by
        rw [hupdated]
      obtain ⟨hothers, hsame, hlookup⟩ := accounts_update x.accountId hmoved
        (fun a ha => by simpa using ha) (fun _ => rfl)
      rw [Table.lookup_mem hx] at hlookup
      simp only [Option.map_some, decide_true, if_true] at hlookup
      refine ⟨⟨_, hlookup, rfl⟩, hothers, hsame ▸ hproviders, ?_⟩
      rw [hupdated]

theorem connect_sound {keys : CredentialKeyring} {candidate : Uuid} {account : ProviderAccount}
    {permissions : PermissionStatuses} {token : ProviderToken} {now : Instant}
    (h : (connectOfficialAccount lib keys userRef candidate account permissions token now).Yields
      env db accountId db') (hs : ConnectionSound db) : ConnectionSound db' := by
  obtain ⟨_, m1, h1, h⟩ := h.bind
  obtain ⟨rawRecordId, m2, h2, h⟩ := h.bind
  have hraw : SameConnection db m2 := IsTrans.trans _ _ _
    (insertApiResponse_same _ _ _ _ _ _ _ h1) (insertApiResponse_same _ _ _ _ _ _ _ h2)
  obtain ⟨id, m3, h3, h⟩ := h.bind
  obtain ⟨⟨a, ha, hconnected⟩, hothers, hproviders, hframe⟩ :=
    upsertAccount_yields rfl h3 (hraw.accounts ▸ hs.providers)
  split at h
  · exact h.throw.elim
  · rename_i envelope _
    split at h
    · exact h.throw.elim
    obtain ⟨_, m4, h4, h⟩ := h.bind
    have hdeleted := h4.execute
    obtain ⟨credentialId, _, h5, h⟩ := h.bind
    obtain rfl := h5.nowV7
    obtain ⟨_, m5, h6, h⟩ := h.bind
    obtain ⟨-, t, ht, hm5⟩ := h6.insertInto
    obtain ⟨_, m6, h7, h⟩ := h.bind
    have haudit := audit_same _ _ _ _ _ _ _ h7
    obtain ⟨g, m7, h8, h⟩ := h.bind
    obtain ⟨haccounts, hcapabilities, hcredentials⟩ := reconcile_yields h8.mapError
    obtain ⟨_, _, h9, h⟩ := h.bind
    obtain rfl := h9.commit
    obtain ⟨rfl, rfl⟩ := yields_pure.mp h
    have hm6 : m6.accounts = m3.accounts ∧
        m6.accountCapabilities = db.accountCapabilities ∧ m6.credentials = t := by
      refine ⟨?_, ?_, ?_⟩
      · rw [haudit.accounts, hm5, hdeleted]
        rfl
      · rw [haudit.capabilities, hm5, hdeleted]
        change m3.accountCapabilities = _
        rw [hframe]
        exact hraw.capabilities
      · rw [haudit.credentials, hm5]
    have hrows : ∃ c : Credential, c.accountId = accountId ∧
        t.rows = (db.credentials.rows.filter fun c => c.accountId ≠ accountId) ++ [c] := by
      have hdeletedRows : m4.credentials.rows =
          db.credentials.rows.filter fun c => c.accountId ≠ accountId := by
        rw [hdeleted, rows_deleteCredentials, hframe]
        change m2.credentials.rows.filter _ = _
        rw [hraw.credentials]
      have hinserted := (Table.insert?_eq_some ht).1
      rw [hdeletedRows] at hinserted
      exact ⟨_, rfl, hinserted⟩
    obtain ⟨c, hc, hrows⟩ := hrows
    obtain ⟨hothers', hsame, hlookup⟩ := accounts_update accountId haccounts
      (fun a ha => by simpa using ha) (fun _ => rfl)
    rw [hm6.1] at hothers' hsame hlookup
    have hid : a.accountId = accountId := (Table.lookup_eq_some.mp ha).2
    have hfinal : m7.accounts.lookup accountId = some
        { a with accountType := account.accountType, scopes := permissions.granted,
                 updatedAt := env.now } := by
      rw [hlookup, ha]
      simp [hid]
    have hcredential : (m7.credentials.rows.filter fun x => x.accountId = accountId) ≠ [] := by
      rw [hcredentials, hm6.2.2, hrows]
      simp [hc]
    have hsound : Account.Sound { a with accountType := account.accountType,
                                         scopes := permissions.granted, updatedAt := env.now }
        (observedMatrix accountId g
          { accountType := account.accountType, permissions, externalWriteConsent := false,
            observedAt := now, rawRecordId }) _ :=
      Account.sound_observed rfl hconnected rfl rfl hcredential
    refine sound_of_rewrite hs ⟨fun id hne => ?_, ?_, ?_, fun id hne => ?_⟩ ⟨_, hfinal, hsound⟩
      (hsame ▸ hproviders)
    · rw [hothers' id hne, hothers id hne, hraw.accounts]
    · rw [hcapabilities, hm6.2.1]
    · intro r hr
      obtain ⟨x, -, rfl⟩ := List.mem_map.mp hr
      rfl
    · rw [hcredentials, hm6.2.2, hrows, List.filter_append, List.filter_filter]
      have hnone : ([c].filter fun x => x.accountId = id) = [] := by simp [hc, Ne.symm hne]
      rw [hnone, List.append_nil]
      exact List.filter_congr fun x _ => by by_cases hx : x.accountId = id <;> simp [hx, hne]

theorem ownedStatus_eq_some {status : ConnectionStatus}
    (h : ownedStatus accountId userRef db = some status) :
    ∃ a, db.accounts.lookup accountId = some a ∧ a.userRef = userRef ∧
      a.connectionStatus = status := by
  obtain ⟨a, ha, hstatus⟩ := Option.map_eq_some_iff.mp h
  obtain ⟨ha, hp⟩ := Option.filter_eq_some_iff.mp ha
  exact ⟨a, ha, by simpa using hp, hstatus⟩

/-- The credentials of an account are as many after its rotation. -/
theorem credentials_rotate (id accountId : Uuid) (envelope : List UInt8) (keyVersion : Nat)
    (granted : List String) (expiresAt : Option Instant) (now : Instant) (db : Db) :
    ((rotateCredential accountId envelope keyVersion granted expiresAt now
        db).credentials.rows.filter fun c => c.accountId = id) =
      (db.credentials.rows.filter fun c => c.accountId = id).map fun c =>
        if c.accountId = accountId then
          { c with accessTokenEnvelope := envelope, keyVersion, grantedPermissions := granted,
                   expiresAt, rotatedAt := some now } else c := by
  unfold rotateCredential
  rw [Table.rows_update]
  induction db.credentials.rows with
  | nil => rfl
  | cons c rest ih =>
    simp only [decide_eq_true_eq] at ih
    by_cases hid : c.accountId = id <;> by_cases hA : c.accountId = accountId <;>
      simp_all

theorem refresh_sound {account : ProviderAccount} {permissions : PermissionStatuses}
    {envelope : List UInt8} {keyVersion : Nat} {expiresAt : Option Instant} {now : Instant}
    {generationId : Uuid}
    (h : (refreshOfficialAccount lib accountId userRef account permissions envelope keyVersion
      expiresAt now).Yields env db generationId db') (hs : ConnectionSound db) :
    ConnectionSound db' := by
  obtain ⟨status, _, h1, h⟩ := h.bind
  obtain ⟨rfl, rfl⟩ := h1.query
  split at h
  · exact h.throw.elim
  rename_i hstatus
  obtain ⟨a, ha, howner, hconnected⟩ := ownedStatus_eq_some (not_not.mp hstatus)
  obtain ⟨rawRecordId, m1, h2, h⟩ := h.bind
  have hraw := insertApiResponse_same _ _ _ _ _ _ _ h2
  obtain ⟨_, m2, h3, h⟩ := h.bind
  have hrotated := h3.execute
  obtain ⟨_, m3, h4, h⟩ := h.bind
  have hrenewed := h4.execute
  obtain ⟨_, m4, h5, h⟩ := h.bind
  have haudit := audit_same _ _ _ _ _ _ _ h5
  obtain ⟨g, m5, h6, h⟩ := h.bind
  obtain ⟨haccounts, hcapabilities, hcredentials⟩ := reconcile_yields h6.mapError
  obtain ⟨_, _, h7, h⟩ := h.bind
  obtain rfl := h7.commit
  obtain ⟨rfl, rfl⟩ := yields_pure.mp h
  have hmoved : m4.accounts = db.accounts.update
      (fun a => a.accountId = accountId && a.userRef = userRef) (fun a =>
        { a with username := account.username, accountType := account.accountType,
                 connectionStatus := .connected, scopes := permissions.granted,
                 updatedAt := now }) (fun _ => rfl) := by
    have hm2 : m2.accounts = db.accounts := by
      rw [hrotated]
      exact hraw.accounts
    rw [haudit.accounts, hrenewed, ← hm2]
    rfl
  obtain ⟨hfirst, hsame, hlookup⟩ := accounts_update accountId hmoved
    (fun a ha => by
      simp only [Bool.and_eq_true, decide_eq_true_eq] at ha
      exact ha.1) (fun _ => rfl)
  obtain ⟨hsecond, hsame', hlookup'⟩ := accounts_update accountId haccounts
    (fun a ha => by simpa using ha) (fun _ => rfl)
  have hid : a.accountId = accountId := (Table.lookup_eq_some.mp ha).2
  have hfinal : m5.accounts.lookup accountId = some
      { a with username := account.username, accountType := account.accountType,
               connectionStatus := .connected, scopes := permissions.granted,
               updatedAt := env.now } := by
    rw [hlookup', hlookup, ha]
    simp [hid, howner]
  have hcapabilities' : m4.accountCapabilities = db.accountCapabilities := by
    rw [haudit.capabilities, hrenewed, renewAccount, hrotated, rotateCredential]
    exact hraw.capabilities
  have hcredentials' : m4.credentials = (rotateCredential accountId envelope keyVersion
      permissions.granted expiresAt now m1).credentials := by
    rw [haudit.credentials, hrenewed, renewAccount, hrotated]
  have hview := hs.views accountId
  unfold AccountView.Sound at hview
  simp only [accountView, ha] at hview
  have hcredential : (m5.credentials.rows.filter fun c => c.accountId = accountId) ≠ [] := by
    rw [hcredentials, hcredentials', credentials_rotate, hraw.credentials]
    simpa using hview.credential.mpr hconnected
  have hsound : Account.Sound
      { a with username := account.username, accountType := account.accountType,
               connectionStatus := .connected, scopes := permissions.granted,
               updatedAt := env.now }
      (observedMatrix accountId generationId
        { accountType := account.accountType, permissions, externalWriteConsent := false,
          observedAt := now, rawRecordId }) _ := Account.sound_observed rfl rfl rfl rfl hcredential
  have hproviders : (m5.accounts.rows.map Account.providerAccountId).Nodup := by
    rw [hsame', hsame]
    exact hs.providers
  refine sound_of_rewrite hs ⟨fun id hne => ?_, ?_, ?_, fun id hne => ?_⟩ ⟨_, hfinal, hsound⟩
    hproviders
  · rw [hsecond id hne, hfirst id hne]
  · rw [hcapabilities, hcapabilities']
  · intro r hr
    obtain ⟨x, -, rfl⟩ := List.mem_map.mp hr
    rfl
  · rw [hcredentials, hcredentials', credentials_rotate, hraw.credentials]
    refine (List.map_congr_left fun c hc => ?_).trans (List.map_id _)
    have hcid : c.accountId = id := by simpa using (List.mem_filter.mp hc).2
    exact if_neg (hcid ▸ hne)

/-- The credential of an account is gone, and its matrix says why. -/
structure Unauthorized (accountId generationId : Uuid) (reason : CapabilityReason) (now : Instant)
    (db db' : Db) : Prop where
  accounts : db'.accounts = db.accounts
  capabilities : db'.accountCapabilities.rows =
    (db.accountCapabilities.rows.filter fun r => r.accountId ≠ accountId) ++
      unavailableMatrix accountId generationId reason now
  credentials : db'.credentials.rows = db.credentials.rows.filter fun c => c.accountId ≠ accountId

/-- **What closing an account does.** -/
theorem closeAccount_yields {status : ConnectionStatus} {now : Instant} {updated : Nat}
    (h : (closeAccount accountId userRef status now).Yields env db updated db') :
    (db.accounts.rows.filter fun a => a.accountId = accountId && a.userRef = userRef).length =
        updated ∧
      db' = { db with
        accounts := db.accounts.update (fun a => a.accountId = accountId && a.userRef = userRef)
          fun a => { a with connectionStatus := status, scopes := [], updatedAt := now } } := by
  have hclosed := h.statement
  simp only [Except.ok.injEq, Prod.mk.injEq] at hclosed
  exact ⟨hclosed.1, hclosed.2.symm⟩

/-- The account without authorization is closed. -/
theorem close_sound {m m' : Db} {a : Account} {status : ConnectionStatus}
    {reason : CapabilityReason} {generationId : Uuid} {now : Instant} (hs : ConnectionSound db)
    (hstatus : status ≠ .connected) (ha : db.accounts.lookup accountId = some a)
    (howner : a.userRef = userRef) (hm : Unauthorized accountId generationId reason now db m)
    {updated : Nat} (h : (closeAccount accountId userRef status now).Yields env m updated m') :
    ConnectionSound m' := by
  obtain ⟨-, hclosed⟩ := closeAccount_yields h
  have hmoved : m'.accounts = db.accounts.update
      (fun a => a.accountId = accountId && a.userRef = userRef)
      (fun a => { a with connectionStatus := status, scopes := [], updatedAt := now })
      (fun _ => rfl) := by
    rw [hclosed, ← hm.accounts]
  obtain ⟨hothers, hsame, hlookup⟩ := accounts_update accountId hmoved
    (fun a ha => by
      simp only [Bool.and_eq_true, decide_eq_true_eq] at ha
      exact ha.1) (fun _ => rfl)
  have hid : a.accountId = accountId := (Table.lookup_eq_some.mp ha).2
  have hfinal : m'.accounts.lookup accountId = some
      { a with connectionStatus := status, scopes := [], updatedAt := now } := by
    rw [hlookup, ha]
    simp [hid, howner]
  have hcredentials : m'.credentials.rows =
      db.credentials.rows.filter fun c => c.accountId ≠ accountId := by
    rw [hclosed, ← hm.credentials]
  have hnone : (m'.credentials.rows.filter fun c => c.accountId = accountId) = [] := by
    rw [hcredentials, List.filter_filter]
    apply List.filter_eq_nil_iff.mpr
    intro c _
    simp
  have hproviders : (m'.accounts.rows.map Account.providerAccountId).Nodup := by
    rw [hsame]
    exact hs.providers
  have hsound : Account.Sound
      { a with connectionStatus := status, scopes := [], updatedAt := now }
      (unavailableMatrix accountId generationId reason now)
      (m'.credentials.rows.filter fun c => c.accountId = accountId) := by
    rw [hnone]
    exact Account.sound_unavailable hstatus
  refine sound_of_rewrite hs ⟨hothers, ?_, ?_, fun id hne => ?_⟩ ⟨_, hfinal, hsound⟩ hproviders
  · rw [hclosed, ← hm.capabilities]
  · intro r hr
    obtain ⟨x, -, rfl⟩ := List.mem_map.mp hr
    rfl
  · rw [hcredentials, List.filter_filter]
    exact List.filter_congr fun c _ => by by_cases hc : c.accountId = id <;> simp [hc, hne]

theorem ConnectionSound.congr (hs : ConnectionSound db) (h : SameConnection db db') :
    ConnectionSound db' := by
  refine ⟨fun id => ?_, h.accounts ▸ hs.providers⟩
  have hview : accountView id db' = accountView id db := by
    unfold accountView
    rw [h.accounts, h.capabilities, h.credentials]
  rw [hview]
  exact hs.views id

/-- **What the loss of an authorization does.** -/
theorem markReauthorizationRequired_yields {now : Instant} {u : Unit}
    (h : (markReauthorizationRequired accountId userRef now).Yields env db u db') :
    ∃ generationId m m', Unauthorized accountId generationId .reauthorizationRequired now db m ∧
      (closeAccount accountId userRef .reauthorizationRequired now).Yields env m 1 m' ∧
      SameConnection m' db' := by
  obtain ⟨_, m1, h1, h⟩ := h.bind
  have hcredentials := h1.execute
  obtain ⟨_, m2, h2, h⟩ := h.bind
  have hcapabilities := h2.execute
  obtain ⟨g, _, h3, h⟩ := h.bind
  obtain rfl := h3.nowV7
  obtain ⟨_, m3, h4, h⟩ := h.bind
  obtain ⟨hframe, hrows, -⟩ := insertCapabilities_yields h4
  obtain ⟨updated, m4, h5, h⟩ := h.bind
  split at h
  · exact h.throw.elim
  rename_i hone
  obtain ⟨_, m5, h6, h⟩ := h.bind
  have haudit := audit_same _ _ _ _ _ _ _ h6
  obtain rfl := h.commit
  obtain rfl := not_not.mp hone
  refine ⟨g, m3, m4, ⟨?_, ?_, ?_⟩, h5, haudit⟩
  · rw [hframe, hcapabilities, hcredentials]
    rfl
  · rw [hrows, hcapabilities, rows_deleteCapabilities, hcredentials]
    rfl
  · rw [hframe, hcapabilities, hcredentials]
    exact rows_deleteCredentials db

/-- **What a scrub does.** A revoked account stays as it is. -/
theorem scrubRevokedAccount_yields {outcome : ProviderRevokeOutcome} {now : Instant} {u : Unit}
    (h : (scrubRevokedAccount accountId userRef outcome now).Yields env db u db') :
    ∃ a, db.accounts.lookup accountId = some a ∧ a.userRef = userRef ∧
      ((a.connectionStatus = .revoked ∧ db = db') ∨ a.connectionStatus ≠ .revoked ∧
        ∃ generationId m updated m', Unauthorized accountId generationId .revoked now db m ∧
          (closeAccount accountId userRef .revoked now).Yields env m updated m' ∧
          SameConnection m' db') := by
  obtain ⟨account, _, h1, h⟩ := h.bind
  obtain ⟨haccount, rfl⟩ := h1.query
  cases account with
  | none => exact h.throw.elim
  | some a =>
    dsimp only at h
    split at h
    · exact h.throw.elim
    rename_i howner
    refine ⟨a, haccount.symm, not_not.mp howner, ?_⟩
    split at h
    · next hrevoked =>
      obtain ⟨-, rfl⟩ := yields_pure.mp h
      exact .inl ⟨hrevoked, rfl⟩
    rename_i hrevoked
    obtain ⟨_, m1, h2, h⟩ := h.bind
    have hcredentials := h2.execute
    obtain ⟨_, m2, h3, h⟩ := h.bind
    have hflows := h3.execute
    obtain ⟨_, m3, h4, h⟩ := h.bind
    have hcapabilities := h4.execute
    obtain ⟨g, _, h5, h⟩ := h.bind
    obtain rfl := h5.nowV7
    obtain ⟨_, m4, h6, h⟩ := h.bind
    obtain ⟨hframe, hrows, -⟩ := insertCapabilities_yields h6
    obtain ⟨updated, m5, h7, h⟩ := h.bind
    obtain ⟨_, m6, h8, h⟩ := h.bind
    have haudit := audit_same _ _ _ _ _ _ _ h8
    obtain rfl := h.commit
    refine .inr ⟨hrevoked, g, m4, updated, m5, ⟨?_, ?_, ?_⟩, h7, haudit⟩
    · rw [hframe, hcapabilities, hflows, hcredentials]
      rfl
    · rw [hrows, hcapabilities, rows_deleteCapabilities, hflows, hcredentials]
      rfl
    · rw [hframe, hcapabilities, hflows, hcredentials]
      exact rows_deleteCredentials db

theorem reauthorize_sound {now : Instant} {u : Unit}
    (h : (markReauthorizationRequired accountId userRef now).Yields env db u db')
    (hs : ConnectionSound db) : ConnectionSound db' := by
  obtain ⟨g, m, m', hm, hclose, hsame⟩ := markReauthorizationRequired_yields h
  -- the owner's row is the one row that was touched
  obtain ⟨hone, -⟩ := closeAccount_yields hclose
  obtain ⟨a, ha⟩ := List.exists_mem_of_length_pos (hone ▸ Nat.one_pos)
  obtain ⟨ha, hp⟩ := List.mem_filter.mp ha
  simp only [Bool.and_eq_true, decide_eq_true_eq] at hp
  rw [hm.accounts] at ha
  have hlookup : db.accounts.lookup accountId = some a := hp.1 ▸ Table.lookup_mem ha
  exact (close_sound hs (by decide) hlookup hp.2 hm hclose).congr hsame

theorem scrub_sound {outcome : ProviderRevokeOutcome} {now : Instant} {u : Unit}
    (h : (scrubRevokedAccount accountId userRef outcome now).Yields env db u db')
    (hs : ConnectionSound db) : ConnectionSound db' := by
  obtain ⟨a, ha, howner, ⟨-, rfl⟩ | ⟨-, g, m, updated, m', hm, hclose, hsame⟩⟩ :=
    scrubRevokedAccount_yields h
  · exact hs
  · exact (close_sound hs (by decide) ha howner hm hclose).congr hsame

end Transactions

/-! ## Deletions -/

section Deletions

variable {lib : Externals} {env : Env} {db db' : Db} {request : DeletionRequest}

/-- Whatever a statement of a deletion erases, it keeps the rows of every account that is not
its target. -/
theorem Erasure.view {id : Uuid} (h : Erasure lib request db db')
    (hid : request.target ≠ .connection id) : accountView id db' = accountView id db := by
  have hother : ∀ {accountId}, request.target = .connection accountId → id ≠ accountId := by
    rintro accountId htarget rfl
    exact hid htarget
  cases h with
  | clearAccount accountId htarget =>
    have hne := hother htarget
    unfold accountView
    congr 1
    · exact Table.filter_delete _ _ fun r hr => by
        simp only [decide_eq_true_eq] at hr
        simpa [hr] using hne
    · exact Table.filter_delete _ _ fun c hc => by
        simp only [decide_eq_true_eq] at hc
        simpa [hc] using hne
  | account accountId htarget hfree =>
    have hne := hother htarget
    unfold accountView
    congr 1
    exact Table.lookup_delete _ _ fun a _ ha => by simpa [ha] using hne
  | removal happ =>
    rw [happ.eq]
    rfl
  | _ => rfl

theorem Erasure.providers (h : Erasure lib request db db') :
    (db'.accounts.rows.map Account.providerAccountId).Sublist
      (db.accounts.rows.map Account.providerAccountId) := by
  cases h with
  | account accountId htarget hfree =>
    exact (List.filter_sublist).map _
  | removal happ =>
    rw [happ.eq]
  | _ => exact .refl _

theorem eraseConnectionRaws_same {operationId : Uuid} (rawIds : List Uuid) :
    (eraseConnectionRaws operationId rawIds).Respects SameConnection := by
  induction rawIds with
  | nil => exact .pure 0
  | cons rawId rest ih =>
    refine .bind (.query _) fun raw => ?_
    cases raw with
    | none => exact ih
    | some raw =>
      refine .bind ?_ fun _ => .bind ?_ fun _ => .bind ih fun _ => .pure _
      · intro env db u db' h
        obtain ⟨-, rfl⟩ := h.deleteFrom
        exact ⟨rfl, rfl, rfl⟩
      · exact .bind .nowV7 fun _ => .bind (.insertUnless fun _ _ => ⟨rfl, rfl, rfl⟩) fun _ =>
          .pure _

/-- Nothing is left of a deleted connection. -/
theorem applyConnectionRows_view {accountId : Uuid} {pending : Nat}
    (h : (applyConnectionRows lib request accountId).Yields env db pending db') :
    accountView accountId db' = ⟨none, [], []⟩ := by
  obtain ⟨rawIds, _, h1, h⟩ := h.bind
  obtain ⟨-, rfl⟩ := h1.query
  obtain ⟨rows, _, h2, h⟩ := h.bind
  obtain ⟨-, rfl⟩ := h2.query
  obtain ⟨n, m1, h3, h⟩ := h.bind
  obtain ⟨_, m2, h4, h⟩ := h.bind
  obtain ⟨_, m3, h5, h⟩ := h.bind
  have hcleared := h5.execute
  obtain ⟨more, m4, h6, h⟩ := h.bind
  have hraws := eraseConnectionRaws_same _ _ _ _ _ h6
  obtain ⟨_, m5, h7, h⟩ := h.bind
  obtain ⟨-, hdeleted⟩ := h7.deleteFrom
  obtain ⟨-, rfl⟩ := yields_pure.mp h
  have haccount : m5.accounts.lookup accountId = none := by
    rw [hdeleted]
    apply Table.lookup_eq_none.mpr
    intro a ha
    simpa using ((Table.mem_delete ..).mp ha).2
  have hmatrix : (m5.accountCapabilities.rows.filter fun r => r.accountId = accountId) = [] := by
    have hsame : m5.accountCapabilities = (clearAccount accountId m2).accountCapabilities := by
      rw [hdeleted, ← hcleared]
      exact hraws.capabilities
    rw [hsame]
    apply List.filter_eq_nil_iff.mpr
    intro r hr
    simpa using ((Table.mem_delete ..).mp hr).2
  have hcredentials : (m5.credentials.rows.filter fun c => c.accountId = accountId) = [] := by
    have hsame : m5.credentials = (clearAccount accountId m2).credentials := by
      rw [hdeleted, ← hcleared]
      exact hraws.credentials
    rw [hsame]
    apply List.filter_eq_nil_iff.mpr
    intro c hc
    simpa using ((Table.mem_delete ..).mp hc).2
  unfold accountView
  rw [haccount, hmatrix, hcredentials]

theorem applyDeletion_sound {result : DeletionResult}
    (h : (applyDeletion lib request).Yields env db result db') (hs : ConnectionSound db) :
    ConnectionSound db' := by
  rcases applyDeletion_yields h with ⟨-, rfl⟩ |
    ⟨-, -, -, operations, effects, mid, pending, -, ht, rfl⟩
  · exact hs
  have herases := applyTargetRows_erases env _ _ _ ht
  have hprovider : (mid.accounts.rows.map Account.providerAccountId).Nodup := by
    refine herases.invariant (P := fun m => (m.accounts.rows.map
      Account.providerAccountId).Nodup) (fun a b ha hb => ?_) hs.providers
    exact ha.sublist hb.providers
  have hview : ∀ id, request.target ≠ .connection id → accountView id mid = accountView id db := by
    intro id hid
    refine herases.invariant (P := fun m => accountView id m = accountView id db)
      (fun a b ha hb => ?_) rfl
    rw [hb.view hid, ha]
  have hsame : SameConnection mid (finishDeletion request.operationId
      (if pending > 0 then .pendingBlobDeletion else .complete) env.now mid) := ⟨rfl, rfl, rfl⟩
  refine ConnectionSound.congr ⟨fun id => ?_, hprovider⟩ hsame
  by_cases hid : request.target = .connection id
  · have hrows : (applyConnectionRows lib request id).Yields env
        { db with deletionOperations := operations, deletionEffects := effects } pending mid := by
      unfold applyTargetRows at ht
      rw [hid] at ht
      exact ht
    rw [applyConnectionRows_view hrows]
    exact ⟨rfl, rfl⟩
  · rw [hview id hid]
    exact hs.views id

end Deletions

/-! ## Whole runs -/

/-- What holds of accounts, credentials and capabilities together. -/
structure ConnectionInvariant (db : Db) : Prop where
  /-- Exactly one row for each capability of an account. -/
  capabilities : ∀ a ∈ db.accounts, ∀ capability, ∃! r, r ∈ db.accountCapabilities.rows ∧
    r.accountId = a.accountId ∧ r.capability = capability
  /-- The rows of an account share one generation. -/
  generation : ∀ a ∈ db.accounts, ∃ generationId, ∀ r ∈ db.accountCapabilities,
    r.accountId = a.accountId → r.generationId = generationId
  credential : ∀ a ∈ db.accounts,
    (∃ c ∈ db.credentials, c.accountId = a.accountId) ↔ a.connectionStatus = .connected
  reads : ∀ r ∈ db.accountCapabilities, r.capability.reads = true →
    r.capabilityState = .available → ∃ a ∈ db.accounts, a.accountId = r.accountId ∧
      a.connectionStatus = .connected ∧ (a.accountType = .business ∨ a.accountType = .creator) ∧
      basicPermission ∈ a.scopes
  writes : ∀ r ∈ db.accountCapabilities, r.capability.reads = false →
    r.capabilityState ≠ .available
  /-- A provider account is attached to one owner. -/
  owner : ∀ a ∈ db.accounts, ∀ b ∈ db.accounts, a.providerAccountId = b.providerAccountId →
    a.userRef = b.userRef

theorem ConnectionSound.account {db : Db} {a : Account} (hs : ConnectionSound db)
    (ha : a ∈ db.accounts) : a.Sound (accountView a.accountId db).matrix
      (accountView a.accountId db).credentials := by
  have hview := hs.views a.accountId
  unfold AccountView.Sound at hview
  have hlookup : (accountView a.accountId db).account = some a := Table.lookup_mem ha
  rw [hlookup] at hview
  exact hview

/-- A stored capability row belongs to a stored account. -/
theorem ConnectionSound.owner {db : Db} {r : CapabilityRow} (hs : ConnectionSound db)
    (hr : r ∈ db.accountCapabilities) : ∃ a ∈ db.accounts, a.accountId = r.accountId := by
  have hview := hs.views r.accountId
  unfold AccountView.Sound at hview
  cases hlookup : (accountView r.accountId db).account with
  | some a => exact ⟨a, (Table.lookup_eq_some.mp hlookup).1, (Table.lookup_eq_some.mp hlookup).2⟩
  | none =>
    rw [hlookup] at hview
    have hmem : r ∈ (accountView r.accountId db).matrix :=
      List.mem_filter.mpr ⟨hr, by simp⟩
    rw [hview.1] at hmem
    cases hmem

theorem ConnectionSound.invariant {db : Db} (hs : ConnectionSound db) : ConnectionInvariant db where
  capabilities a ha capability := by
    have hcapabilities := (hs.account ha).capabilities
    have hmem : capability ∈ (accountView a.accountId db).matrix.map CapabilityRow.capability := by
      rw [hcapabilities]
      cases capability <;> decide
    obtain ⟨r, hr, rfl⟩ := List.mem_map.mp hmem
    obtain ⟨hr, hid⟩ := List.mem_filter.mp hr
    refine ⟨r, ⟨hr, by simpa using hid, rfl⟩, ?_⟩
    rintro r' ⟨hr', hid', hcapability⟩
    refine Table.eq_of_key_eq hr' hr ?_
    simp only [CapabilityRow.key, Prod.mk.injEq]
    exact ⟨hid'.trans (of_decide_eq_true hid).symm, hcapability⟩
  generation a ha := by
    obtain ⟨g, hg⟩ := (hs.account ha).generation
    exact ⟨g, fun r hr hid => hg r (List.mem_filter.mpr ⟨hr, by simpa using hid⟩)⟩
  credential a ha := by
    rw [← (hs.account ha).credential]
    constructor
    · rintro ⟨c, hc, hid⟩
      exact List.ne_nil_of_mem (List.mem_filter.mpr ⟨hc, by simpa using hid⟩)
    · intro hne
      obtain ⟨c, hc⟩ := List.exists_mem_of_ne_nil _ hne
      obtain ⟨hc, hid⟩ := List.mem_filter.mp hc
      exact ⟨c, hc, by simpa using hid⟩
  reads r hr _ hstate := by
    obtain ⟨a, ha, hid⟩ := hs.owner hr
    obtain ⟨-, hstatus, hprofessional, hbasic⟩ := (hs.account ha).available r
      (List.mem_filter.mpr ⟨hr, by simpa using hid.symm⟩) hstate
    refine ⟨a, ha, hid, hstatus, ?_, hbasic⟩
    cases htype : a.accountType <;> simp_all [AccountType.isProfessional]
  writes r hr hwrites hstate := by
    obtain ⟨a, ha, hid⟩ := hs.owner hr
    have hreads := ((hs.account ha).available r
      (List.mem_filter.mpr ⟨hr, by simpa using hid.symm⟩) hstate).1
    rw [hwrites] at hreads
    cases hreads
  owner a ha b hb hprovider := by
    rw [List.inj_on_of_nodup_map hs.providers ha hb hprovider]

/-- **Step lemma.** Every transaction of the account lifecycle, committed or not, keeps every
account sound. -/
theorem accountStep_sound (lib : Externals) (db : Db) (call : Env × AccountCall)
    (hs : ConnectionSound db) : ConnectionSound (accountStep lib db call) := by
  obtain ⟨env, call⟩ := call
  cases call with
  | connect keys userRef candidate account permissions token now =>
    exact exec_rel (fun _ m => ConnectionSound m) _ env db hs fun _ _ h => connect_sound h hs
  | refresh accountId userRef account permissions envelope keyVersion expiresAt now =>
    exact exec_rel (fun _ m => ConnectionSound m) _ env db hs fun _ _ h => refresh_sound h hs
  | reauthorize accountId userRef now =>
    exact exec_rel (fun _ m => ConnectionSound m) _ env db hs fun _ _ h => reauthorize_sound h hs
  | scrub accountId userRef outcome now =>
    exact exec_rel (fun _ m => ConnectionSound m) _ env db hs fun _ _ h => scrub_sound h hs
  | delete request =>
    exact exec_rel (fun _ m => ConnectionSound m) _ env db hs fun _ _ h => applyDeletion_sound h hs

/-- **The connection invariant.** After every run of lifecycle transactions, in any order and
with any provider answers, status, credential, scopes, account type and capability matrix of
every account agree, and no provider account has two owners. -/
theorem connection_invariant (lib : Externals) (calls : List (Env × AccountCall)) :
    ConnectionInvariant (run (accountStep lib) {} calls) := by
  have hsound : ConnectionSound (run (accountStep lib) {} calls) :=
    run_invariant (accountStep lib) (fun _ _ => True) ConnectionSound
      (fun db call _ hs => accountStep_sound lib db call hs)
      (guarded_of_all (accountStep lib) (fun _ _ => trivial) _ _) connectionSound_initial
  exact hsound.invariant

end InstagramArchive

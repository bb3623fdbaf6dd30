import InstagramArchive.AccountLifecycle
import InstagramArchive.ConnectionInvariant
import InstagramArchive.OwnMediaWrites
import InstagramArchive.Relational.Metering

/-!
# Provider calls are metered

A program that calls the provider first consumes its authorization or opens its run, then draws
reservations from a budget, one for each call. `Meter` is what is known of such a program
between two of its steps, `MeterStep` what a transaction of it can do to the usage ledger and
to the pending authorizations, and `MeterAsks` what a call costs. A completion, a refresh and
an own-media pass are metered by these alone.
-/

namespace InstagramArchive

open Relational Relational.Tx

/-! ## Meters -/

/-- What is known of a program that calls the provider. -/
structure Meter where
  /-- The operation its calls are accounted under. -/
  operation : Option Uuid := none
  /-- The next ordinal of its budget. -/
  next : Nat := 1
  /-- The reservation of the call it makes. -/
  reservation : Option UsageReservation := none
  /-- The state of the authorization it consumed. -/
  presented : Option (List UInt8) := none
  /-- The code exchanges it may still ask for. -/
  exchanges : Nat := 0
  /-- The provider calls it may still make. -/
  left : Nat
  deriving DecidableEq, Repr

/-- What an event says about the accounting of its program. -/
inductive Notice where
  | operation (operationId : Uuid)
  | claimed (stateHash : List UInt8)
  deriving DecidableEq, Repr

def AccountEvent.notice : AccountEvent → Option Notice
  | .claimed stateHash => some (.claimed stateHash)
  | .accounted operationId => some (.operation operationId)
  | .read | .connected _ => none

def SyncEvent.notice : SyncEvent → Option Notice
  | .opened _ runId _ | .resumed runId => some (.operation runId)
  | _ => none

/-- Neither the usage ledger nor a pending authorization changes. -/
structure SameLedger (db db' : Db) : Prop where
  usage : db'.providerUsage = db.providerUsage
  flows : db'.oauthFlows = db.oauthFlows

instance : IsPreorder Db SameLedger where
  refl _ := ⟨rfl, rfl⟩
  trans _ _ _ h h' := ⟨h'.usage.trans h.usage, h'.flows.trans h.flows⟩

/-- What a transaction of a metered program can do. -/
inductive MeterStep (limit : Nat) (k : Meter) (db : Db) : Option Notice → Meter → Db → Prop
  | idle {db' : Db} (h : SameLedger db db') : MeterStep limit k db none k db'
  /-- A pending authorization is consumed. -/
  | claimed {userRef : Uuid} {stateHash redirectUriHash : List UInt8} {now : Instant}
      (hnone : k.presented = none)
      (hclaim : ∃ f ∈ db.oauthFlows, OauthFlow.claimable userRef stateHash redirectUriHash now f) :
      MeterStep limit k db (some (.claimed stateHash))
        { k with presented := some stateHash, exchanges := 1 }
        { db with
          oauthFlows := db.oauthFlows.update
            (OauthFlow.claimable userRef stateHash redirectUriHash now)
            fun f => { f with consumedAt := some now } }
  /-- A budget for a new operation, or one that is about to be resumed. -/
  | opened {operationId : Uuid} {db' : Db} (h : SameLedger db db') (hnone : k.operation = none) :
      MeterStep limit k db (some (.operation operationId))
        { k with operation := some operationId, next := 1 } db'
  | resumed {operationId : Uuid} (hop : k.operation = some operationId)
      (hfree : k.reservation = none) :
      MeterStep limit k db none { k with next := lastAttempt operationId db + 1 } db
  | reserved {row : ProviderUsage} {ledger : Table ProviderUsage ProviderUsage.usageId}
      (hop : k.operation = some row.operationId) (hfree : k.reservation = none)
      (hlimit : k.next ≤ limit) (hordinal : row.attemptOrdinal = k.next)
      (hstarted : row.outcome = none) (hguard : ProviderBudget.usageGuard row db = none)
      (hledger : db.providerUsage.insert? row = some ledger) :
      MeterStep limit k db none
        { k with
          next := k.next + 1
          reservation := some ⟨row.usageId, row.attemptOrdinal, row.requestClass⟩ }
        { db with providerUsage := ledger }
  | completed {budget : ProviderBudget} {reservation : UsageReservation} {outcome : UsageOutcome}
      {httpStatus : Option Nat} {now : Instant} (hres : k.reservation = some reservation) :
      MeterStep limit k db none { k with reservation := none }
        { db with
          providerUsage := budget.finished reservation outcome httpStatus now db.providerUsage }

/-- What a question costs: a provider call is made under a reservation of its class, a code
exchange under the authorization the program consumed. -/
inductive MeterAsks (k : Meter) : Option RequestClass → Meter → Prop
  | other : MeterAsks k none k
  | call {requestClass : RequestClass} {reservation : UsageReservation} {left exchanges : Nat}
      (hres : k.reservation = some reservation) (hclass : reservation.requestClass = requestClass)
      (hleft : k.left = left + 1)
      (hexchanges : k.exchanges = exchanges + if requestClass = .codeExchange then 1 else 0) :
      MeterAsks k (some requestClass) { k with left, exchanges }

/-- The metering of programs with these events and questions. -/
def metering {ν ρ : Type} (limit : Nat) (notice : ν → Option Notice)
    (requestClass : ρ → Option RequestClass) : Metering Db ρ ν Meter where
  Step k db event k' db' := MeterStep limit k db (event.bind notice) k' db'
  Asks k request k' := MeterAsks k (requestClass request) k'

abbrev accountMetering (limit : Nat) : Metering Db AccountRequest AccountEvent Meter :=
  metering limit AccountEvent.notice AccountRequest.requestClass

abbrev syncMetering (limit : Nat) : Metering Db OwnMediaRequest SyncEvent Meter :=
  metering limit SyncEvent.notice fun _ => some .ownMediaPage

/-- The program draws from the budget and can make `calls` more calls, or as many as the budget
has left, with these exchanges among them. -/
structure Meter.Affords (limit calls exchanges : Nat) (budget : ProviderBudget) (k : Meter) :
    Prop where
  operation : k.operation = some budget.operationId
  next : k.next = budget.nextOrdinal
  within : budget.limit = limit
  free : k.reservation = none
  exchanges : k.exchanges = exchanges
  left : min (limit + 1 - budget.nextOrdinal) calls ≤ k.left

theorem Meter.Affords.fewer {limit calls calls' exchanges : Nat} {budget : ProviderBudget}
    {k : Meter} (h : k.Affords limit calls exchanges budget) (hle : calls' ≤ calls) :
    k.Affords limit calls' exchanges budget := by
  have hleft := h.left
  exact ⟨h.operation, h.next, h.within, h.free, h.exchanges, by omega⟩

/-! ## Transactions that leave the ledger alone -/

section SameLedger

variable {ε : Type} [OfSql ε] {lib : Externals} {accountId userRef : Uuid} {now : Instant}

theorem insertApiResponse_ledger (tooLong : ε) (body : String) :
    (insertApiResponse lib tooLong body now).Respects SameLedger := by
  unfold insertApiResponse
  split
  · exact .throw
  · exact .bind .nowV7 fun _ => .bind (.insertInto fun _ _ => ⟨rfl, rfl⟩) fun _ => .pure _

theorem audit_ledger (changeKind : CredentialChange) (outcome : CredentialOutcome) :
    (audit accountId changeKind outcome now : ArchiveTx ε Unit).Respects SameLedger :=
  .bind .nowV7 fun _ => .insertInto fun _ _ => ⟨rfl, rfl⟩

theorem insertCapabilities_ledger (rows : List CapabilityRow) :
    (insertCapabilities rows : ArchiveTx ε Unit).Respects SameLedger := by
  induction rows with
  | nil => exact .pure _
  | cons row rest ih => exact .bind (.insertInto fun _ _ => ⟨rfl, rfl⟩) fun _ => ih

theorem insertPermissions_ledger {generationId : Uuid} {observation : AccountObservation}
    (names : List String) :
    (insertPermissions accountId generationId observation names : ArchiveTx ε Unit).Respects
      SameLedger := by
  induction names with
  | nil => exact .pure _
  | cons name rest ih =>
    exact .bind .nowV7 fun _ => .bind (.insertInto fun _ _ => ⟨rfl, rfl⟩) fun _ => ih

theorem reconcile_ledger (observation : AccountObservation) :
    (reconcileAccountCapabilitiesInTransaction accountId observation).Respects SameLedger := by
  refine .bind .nowV7 fun generationId => .bind (.execute fun _ => ⟨rfl, rfl⟩) fun _ => ?_
  refine .bind (.execute fun _ => ⟨rfl, rfl⟩) fun _ => .bind (insertPermissions_ledger _) fun _ => ?_
  refine .bind (insertCapabilities_ledger _) fun _ => .bind .now fun _ => ?_
  exact .bind (.execute fun _ => ⟨rfl, rfl⟩) fun _ => .pure _

theorem upsertAccount_ledger (row : Account) : (upsertAccount row).Respects SameLedger := by
  refine .bind (.query _) fun stored => ?_
  cases stored with
  | none => exact .bind (.insertInto fun _ _ => ⟨rfl, rfl⟩) fun _ => .pure _
  | some stored =>
    dsimp only
    split
    · exact .throw
    · exact .bind (.execute fun _ => ⟨rfl, rfl⟩) fun _ => .pure _

theorem connectOfficialAccount_ledger (keys : CredentialKeyring) (candidate : Uuid)
    (account : ProviderAccount) (permissions : PermissionStatuses) (token : ProviderToken) :
    (connectOfficialAccount lib keys userRef candidate account permissions token now).Respects
      SameLedger := by
  refine .bind (insertApiResponse_ledger _ _) fun _ => ?_
  refine .bind (insertApiResponse_ledger _ _) fun rawRecordId => ?_
  refine .bind (upsertAccount_ledger _) fun accountId => ?_
  split
  · exact .throw
  split
  · exact .throw
  refine .bind (.execute fun _ => ⟨rfl, rfl⟩) fun _ => .bind .nowV7 fun credentialId => ?_
  refine .bind (.insertInto fun _ _ => ⟨rfl, rfl⟩) fun _ => .bind (audit_ledger _ _) fun _ => ?_
  refine .bind (.mapError (reconcile_ledger _)) fun _ => ?_
  exact .bind (.query _) fun _ => .pure _

theorem refreshOfficialAccount_ledger (account : ProviderAccount) (permissions : PermissionStatuses)
    (envelope : List UInt8) (keyVersion : Nat) (expiresAt : Option Instant) :
    (refreshOfficialAccount lib accountId userRef account permissions envelope keyVersion expiresAt
      now).Respects SameLedger := by
  refine .bind (.query _) fun status => ?_
  split
  · exact .throw
  refine .bind (insertApiResponse_ledger _ _) fun rawRecordId => ?_
  refine .bind (.execute fun _ => ⟨rfl, rfl⟩) fun _ => .bind (.execute fun _ => ⟨rfl, rfl⟩) fun _ => ?_
  refine .bind (audit_ledger _ _) fun _ => .bind (.mapError (reconcile_ledger _)) fun _ => ?_
  exact .bind (.query _) fun _ => .pure _

theorem markReauthorizationRequired_ledger :
    (markReauthorizationRequired accountId userRef now).Respects SameLedger := by
  refine .bind (.execute fun _ => ⟨rfl, rfl⟩) fun _ => .bind (.execute fun _ => ⟨rfl, rfl⟩) fun _ => ?_
  refine .bind .nowV7 fun generationId => .bind (insertCapabilities_ledger _) fun _ => ?_
  refine .bind ?_ fun updated => ?_
  · intro env db updated db' h
    obtain ⟨-, rfl⟩ := closeAccount_yields h
    exact ⟨rfl, rfl⟩
  · split
    · exact .throw
    · exact .bind (audit_ledger _ _) fun _ => .query _

end SameLedger

/-! ## One accounted call -/

/-- The program has drawn a reservation for a call. -/
structure Meter.Reserved (limit calls exchanges spare : Nat) (reservation : UsageReservation)
    (budget : ProviderBudget) (k : Meter) : Prop where
  operation : k.operation = some budget.operationId
  next : k.next = budget.nextOrdinal
  within : budget.limit = limit
  drawn : k.reservation = some reservation
  exchanges : k.exchanges = exchanges
  left : min (limit + 1 - budget.nextOrdinal) calls + spare ≤ k.left

section Calls

variable {ε ρ ω ν : Type} {budgetError : BudgetError → ε} {limit calls exchanges : Nat}
  {notice : ν → Option Notice} {classOf : ρ → Option RequestClass} {budget : ProviderBudget}
  {reservation : UsageReservation} {requestClass : RequestClass} {now : Instant} {k : Meter}

theorem reserve_metered (h : k.Affords limit (calls + 1) exchanges budget) :
    (Script.tx (mapError budgetError (budget.reserve requestClass now)) :
      Script Db ε ρ ω ν _).Metered (metering limit notice classOf)
      (fun p k' => k'.Reserved limit calls exchanges 1 p.1 p.2 ∧ p.1.requestClass = requestClass)
      k := by
  refine .tx fun env db p db' hy => ?_
  obtain ⟨reservation, next⟩ := p
  obtain ⟨hlimit, rfl, row, ledger, hoperation, hordinal, hstarted, rfl, hclass, hguard, hledger,
    rfl⟩ := ProviderBudget.reserve_yields hy.mapError
  have hnext := h.next
  have hwithin := h.within
  have hleft := h.left
  have hstep : MeterStep limit k db none
      { k with
        next := k.next + 1
        reservation := some ⟨row.usageId, row.attemptOrdinal, row.requestClass⟩ }
      { db with providerUsage := ledger } :=
    .reserved (by rw [h.operation, hoperation]) h.free (by omega) (by omega) hstarted hguard hledger
  refine ⟨_, hstep, ⟨h.operation, by rw [hnext], h.within, rfl, h.exchanges, ?_⟩, hclass⟩
  dsimp only
  omega

theorem request_metered {request : ρ} (hrequest : classOf request = some requestClass)
    (h : k.Reserved limit calls (exchanges + if requestClass = .codeExchange then 1 else 0) 1
      reservation budget) (hclass : reservation.requestClass = requestClass) :
    (Script.request request : Script Db ε ρ ω ν ω).Metered (metering limit notice classOf)
      (fun _ k' => k'.Reserved limit calls exchanges 0 reservation budget) k := by
  have hleft := h.left
  have hasks : MeterAsks k (classOf request) { k with left := k.left - 1, exchanges } := by
    rw [hrequest]
    exact .call h.drawn hclass (by omega) h.exchanges
  refine .request hasks fun _ => ⟨h.operation, h.next, h.within, h.drawn, rfl, ?_⟩
  dsimp only
  omega

theorem complete_metered {outcome : UsageOutcome} {httpStatus : Option Nat}
    (h : k.Reserved limit calls exchanges 0 reservation budget) :
    (Script.tx (mapError budgetError (budget.complete reservation outcome httpStatus now)) :
      Script Db ε ρ ω ν Unit).Metered (metering limit notice classOf)
      (fun _ k' => k'.Affords limit calls exchanges budget) k := by
  refine .tx fun env db u db' hy => ?_
  obtain rfl := ProviderBudget.complete_yields hy.mapError
  exact ⟨_, .completed h.drawn, h.operation, h.next, h.within, rfl, h.exchanges, h.left⟩

/-- A transaction that leaves the ledger alone. -/
theorem idle_metered {α : Type} {x : Tx Db ε α} (hx : x.Respects SameLedger) :
    (Script.tx x : Script Db ε ρ ω ν α).Metered (metering limit notice classOf)
      (fun _ k' => k' = k) k :=
  .tx fun env db a db' hy => ⟨k, .idle (hx env db a db' hy), rfl⟩

theorem idle_emit_metered {α : Type} {x : Tx Db ε α} {event : α → Option ν}
    (hx : x.Respects SameLedger) (hevent : ∀ a, (event a).bind notice = none) :
    (Script.emit x event : Script Db ε ρ ω ν α).Metered (metering limit notice classOf)
      (fun _ k' => k' = k) k := by
  refine .emit fun env db a db' hy => ⟨k, ?_, rfl⟩
  change MeterStep limit k db ((event a).bind notice) k db'
  rw [hevent]
  exact .idle (hx env db a db' hy)

end Calls

/-! ## Account programs -/

namespace Lifecycle

section Programs

variable {ε α : Type} {budgetError : BudgetError → ε} {limit calls exchanges : Nat}
  {budget : ProviderBudget} {now : Instant} {k : Meter}

theorem attempt_metered {call : ProviderCall α}
    (h : k.Affords limit (calls + 1)
      (exchanges + if call.requestClass = .codeExchange then 1 else 0) budget) :
    (attempt budgetError call now budget).Metered (accountMetering limit)
      (fun p k' => k'.Affords limit calls exchanges p.2) k := by
  refine .bind (reserve_metered h) ?_
  rintro ⟨reservation, budget⟩ k' ⟨hreserved, hclass⟩
  refine .bind (request_metered call.accounted hreserved hclass) fun answer k' hreserved => ?_
  have hfinish : (Script.tx (finishAttempt budgetError budget reservation (call.answer answer)
      now) : AccountScript ε Unit).Metered (accountMetering limit)
      (fun _ k' => k'.Affords limit calls exchanges budget) k' := by
    unfold finishAttempt
    split
    · exact complete_metered hreserved
    · exact complete_metered hreserved
  exact .bind hfinish fun _ _ hleft => .pure hleft

theorem discover_metered {call : ProviderCall α} (hcall : call.requestClass ≠ .codeExchange)
    {retries : Nat} (h : k.Affords limit (retries + 1 + calls) exchanges budget) :
    (discover budgetError call now retries budget).Metered (accountMetering limit)
      (fun p k' => k'.Affords limit calls exchanges p.2) k := by
  have hexchanges : exchanges =
      exchanges + if call.requestClass = .codeExchange then 1 else 0 := by simp [hcall]
  induction retries generalizing budget k with
  | zero =>
    have hone : k.Affords limit (calls + 1)
        (exchanges + if call.requestClass = .codeExchange then 1 else 0) budget := by
      rw [← hexchanges]
      exact h.fewer (by omega)
    exact attempt_metered hone
  | succ retries ih =>
    have hfirst : k.Affords limit (retries + 1 + calls + 1)
        (exchanges + if call.requestClass = .codeExchange then 1 else 0) budget := by
      rw [← hexchanges]
      exact h.fewer (by omega)
    refine .bind (attempt_metered hfirst) ?_
    rintro ⟨result, budget⟩ k' hleft
    cases result with
    | ok value => exact .pure (hleft.fewer (by omega))
    | error error =>
      dsimp only
      split
      · exact ih hleft
      · exact .pure (hleft.fewer (by omega))

theorem renewAuthorization_metered (keys : CredentialKeyring) (accountId : Uuid)
    {discoveryRetries : Nat} (accessToken : String)
    (h : k.Affords limit (1 + 2 * (discoveryRetries + 1)) 0 budget) :
    (renewAuthorization keys accountId discoveryRetries now accessToken budget).Metered
      (accountMetering limit) (fun _ _ => True) k := by
  have hfailure : ∀ error k', (providerFailure error).Metered (accountMetering limit)
      (fun _ _ => True) k' := by
    intro error k'
    unfold providerFailure
    split
    · exact .pure trivial
    · exact .fail
  have hfirst : k.Affords limit (discoveryRetries + 1 + (discoveryRetries + 1) + 1)
      (0 + if (ProviderCall.refreshToken accessToken).requestClass = .codeExchange then 1 else 0)
      budget := h.fewer (by omega)
  refine .bind (attempt_metered hfirst) ?_
  rintro ⟨refreshed, budget⟩ k' hleft
  cases refreshed with
  | error error => exact hfailure error k'
  | ok token =>
    refine .bind (discover_metered (by simp [ProviderCall.discoverAccount]) hleft) ?_
    rintro ⟨discovered, budget⟩ k' hleft
    cases discovered with
    | error error => exact hfailure error k'
    | ok account =>
      have hlast : k'.Affords limit (discoveryRetries + 1 + 0) 0 budget := hleft
      refine .bind (discover_metered (by simp [ProviderCall.discoverPermissions]) hlast) ?_
      rintro ⟨permissions, budget⟩ k' hleft
      cases permissions with
      | error error => exact hfailure error k'
      | ok permissions =>
        refine .bind (idle_metered (.fetchOne _ _)) fun providerId _ _ => ?_
        split
        · exact .fail
        · split
          · exact .fail
          · split
            · exact .fail
            · exact .pure trivial

/-- A refresh reserves every call it makes, and makes at most one for the token and
`discoveryRetries + 1` for each discovery. -/
theorem refreshOfficialAccount_metered (lib : Externals) (keys : CredentialKeyring)
    (accountId userRef : Uuid) (callBudget discoveryRetries : Nat) (refreshSupported : Bool)
    (now : Instant) :
    (refreshOfficialAccount lib keys accountId userRef callBudget discoveryRetries refreshSupported
      now).Metered (accountMetering callBudget) (fun _ _ => True)
      { left := min callBudget (1 + 2 * (discoveryRetries + 1)) } := by
  refine .bind (?_ : Script.Metered _ (fun _ _ => True) _ _) fun outcome k' _ => ?_
  · unfold prepareRefresh
    split
    · exact .fail
    refine .bind (idle_emit_metered (.query _) fun _ => rfl) fun row k' hk => ?_
    subst hk
    rcases row with _ | ⟨owner, status, envelope⟩
    · exact .fail
    dsimp only
    split
    · exact .fail
    split
    · exact .fail
    refine .bind (?_ : Script.Metered _ (fun operationId k' => k'.Affords callBudget
      (1 + 2 * (discoveryRetries + 1)) 0
      (ProviderBudget.new operationId (some accountId) callBudget)) _ _) fun operationId k' hk =>
        renewAuthorization_metered keys accountId _ hk
    refine .emit fun env db operationId db' hy => ?_
    obtain rfl := hy.nowV7
    refine ⟨_, .opened ⟨rfl, rfl⟩ rfl, rfl, rfl, rfl, rfl, rfl, ?_⟩
    simp [ProviderBudget.new]
  · cases outcome with
    | rejected error =>
      exact .bind (idle_metered markReauthorizationRequired_ledger) fun _ _ _ => .fail
    | renewed account permissions envelope keyVersion expiresAt =>
      refine .bind (idle_metered (refreshOfficialAccount_ledger _ _ _ _ _)) fun _ _ _ => ?_
      exact (idle_metered (.mapError (.query _))).mono fun _ _ _ => trivial

theorem accepted_metered (result : Except ProviderError α) (k : Meter) :
    (accepted result).Metered (accountMetering limit) (fun _ k' => k' = k) k := by
  cases result with
  | ok value => exact .pure rfl
  | error error => exact .fail

theorem exchangeAndDiscover_metered {discoveryRetries : Nat} (code : String)
    (h : k.Affords limit (1 + 2 * (discoveryRetries + 1)) 1 budget) :
    (exchangeAndDiscover discoveryRetries now code budget).Metered (accountMetering limit)
      (fun _ _ => True) k := by
  have hfirst : k.Affords limit (discoveryRetries + 1 + (discoveryRetries + 1) + 1)
      (0 + if (ProviderCall.exchangeCode code).requestClass = .codeExchange then 1 else 0)
      budget := h.fewer (by omega)
  refine .bind (attempt_metered hfirst) ?_
  rintro ⟨exchanged, budget⟩ k' hleft
  refine .bind (accepted_metered exchanged k') fun token k' hk => ?_
  subst hk
  refine .bind (discover_metered (by simp [ProviderCall.discoverAccount]) hleft) ?_
  rintro ⟨discovered, budget⟩ k' hleft
  refine .bind (accepted_metered discovered k') fun account k' hk => ?_
  subst hk
  have hlast : k'.Affords limit (discoveryRetries + 1 + 0) 0 budget := hleft
  refine .bind (discover_metered (by simp [ProviderCall.discoverPermissions]) hlast) ?_
  rintro ⟨permissions, budget⟩ k' hleft
  exact .bind (accepted_metered permissions k') fun _ _ _ => .pure trivial

/-- A completion consumes an authorization before it exchanges the code, once, and reserves
every call it makes. -/
theorem completeOfficialOauth_metered (lib : Externals) (keys : CredentialKeyring) (userRef : Uuid)
    (relayId redirectUri : String) (callBudget discoveryRetries : Nat) (now : Instant) :
    (completeOfficialOauth lib keys userRef relayId redirectUri callBudget discoveryRetries
      now).Metered (accountMetering callBudget) (fun _ _ => True)
      { left := min callBudget (1 + 2 * (discoveryRetries + 1)) } := by
  have hrelay : (Script.request (.claim relayId) : OAuthScript AccountAnswer).Metered
      (accountMetering callBudget)
      (fun _ k' => k' = { left := min callBudget (1 + 2 * (discoveryRetries + 1)) })
      { left := min callBudget (1 + 2 * (discoveryRetries + 1)) } := .request .other fun _ => rfl
  refine .bind hrelay fun answer k' hk => ?_
  subst hk
  split
  · exact .fail
  split
  · exact .fail
  refine .bind (?_ : Script.Metered _ (fun _ k' => k'.operation = none ∧ k'.reservation = none ∧
    k'.exchanges = 1 ∧ k'.left = min callBudget (1 + 2 * (discoveryRetries + 1))) _ _)
    fun _ k' hk => ?_
  · refine .emit fun env db u db' hy => ?_
    obtain ⟨hclaim, rfl⟩ := claimOauthFlow_yields hy
    exact ⟨_, .claimed rfl hclaim, rfl, rfl, rfl, rfl⟩
  obtain ⟨hoperation, hfree, hexchanges, hleft⟩ := hk
  refine .bind (?_ : Script.Metered _ (fun operationId k' => k'.Affords callBudget
    (1 + 2 * (discoveryRetries + 1)) 1 (ProviderBudget.new operationId none callBudget)) _ _)
    fun operationId k' hk => ?_
  · refine .emit fun env db operationId db' hy => ?_
    obtain rfl := hy.nowV7
    refine ⟨_, .opened ⟨rfl, rfl⟩ hoperation, rfl, rfl, rfl, hfree, hexchanges, ?_⟩
    simp [ProviderBudget.new, hleft]
  refine .bind (exchangeAndDiscover_metered _ hk) ?_
  rintro ⟨exchanged, account, permissions⟩ k' -
  unfold connectAccount
  dsimp only
  split
  · exact .fail
  refine .bind (?_ : Script.Metered _ (fun _ _ => True) _ _) fun candidate k' _ => ?_
  · refine .bind (idle_metered (.query _)) fun stored k' _ => ?_
    cases stored with
    | none => exact (idle_metered .nowV7).mono fun _ _ _ => trivial
    | some stored =>
      dsimp only
      split
      · exact .pure trivial
      · exact .fail
  refine .bind (idle_emit_metered (connectOfficialAccount_ledger _ _ _ _ _) fun _ => rfl) fun _ _ _ => ?_
  exact .bind (idle_metered (.mapError (.query _))) fun _ _ _ => .pure trivial

end Programs

end Lifecycle

/-! ## Own-media passes -/

section Passes

variable {lib : Externals} {config : OwnMediaSyncConfig} {ctx : SyncContext} {token : String}
  {now : Instant} {limit pages : Nat} {budget : ProviderBudget} {k : Meter}

theorem finalizeRun_ledger (runId : Uuid) (candidate : Option String) :
    (finalizeRun lib config ctx runId candidate now).Respects SameLedger := by
  intro env db completed db' h
  rcases finalizeRun_yields h with ⟨-, -, rfl⟩ | ⟨-, -, applied, published, n, h1, h2, rfl⟩
  · exact ⟨rfl, rfl⟩
  · obtain ⟨media, revisions, rfl⟩ := applyStagedItems_onlyMedia _ _ _ _ _ _ _ h1
    obtain ⟨outbox, rfl⟩ := appendOwnMediaFacts_onlyOutbox _ _ _ _ _ _ _ _ h2
    exact ⟨rfl, rfl⟩

theorem persistPage_ledger (runId : Uuid) (providerAccountId : String)
    (page : ProviderOwnMediaPage) (candidate : Option String) :
    (persistPage lib runId providerAccountId page candidate now).Respects SameLedger := by
  intro env db u db' h
  obtain ⟨rawRecordId, raws, -, -, rfl⟩ := persistPage_yields h
  exact ⟨rfl, rfl⟩

theorem markProviderFailure_ledger (runId : Uuid) (error : ProviderError) :
    (execute (markProviderFailure runId error now) : SyncTx Unit).Respects SameLedger := by
  refine .execute fun db => ?_
  unfold markProviderFailure
  split
  · exact ⟨rfl, rfl⟩
  · exact ⟨rfl, rfl⟩

theorem stopRetryable_metered (walk : Walk) (reason : SyncRunReason) :
    (stopRetryable walk reason now).Metered (syncMetering limit) (fun _ _ => True) k := by
  have hstop : (execute (suspendRun walk.runId reason now) : SyncTx Unit).Respects SameLedger :=
    .execute fun _ => ⟨rfl, rfl⟩
  exact .bind (idle_emit_metered hstop fun _ => rfl) fun _ _ _ => .pure trivial

theorem complete_pass_metered (walk : Walk) :
    (complete lib config ctx walk now).Metered (syncMetering limit) (fun _ _ => True) k := by
  refine .bind (idle_emit_metered (finalizeRun_ledger _ _) ?_) fun committed _ _ => ?_
  · intro committed
    cases committed <;> rfl
  · split
    · exact .pure trivial
    · exact .fail

theorem refuse_metered (walk : Walk) (error : ProviderError) :
    (refuse walk error now).Metered (syncMetering limit) (fun _ _ => True) k := by
  refine .bind (idle_emit_metered (markProviderFailure_ledger _ _) ?_) fun _ _ _ => ?_
  · intro _
    split <;> rfl
  · split
    · exact .pure trivial
    · exact .fail

/-- The page loop reserves one call for each page. -/
theorem traverse_metered (walk : Walk) (h : k.Affords limit pages 0 budget) :
    (traverse lib config ctx token now pages budget walk).Metered (syncMetering limit)
      (fun _ _ => True) k := by
  induction pages generalizing budget walk k with
  | zero => exact stopRetryable_metered walk _
  | succ pages ih =>
    unfold traverse
    split
    · exact stopRetryable_metered walk _
    refine .bind (reserve_metered h) ?_
    rintro ⟨reservation, budget⟩ k' ⟨hreserved, hclass⟩
    have hpage : k'.Reserved limit pages
        (0 + if RequestClass.ownMediaPage = .codeExchange then 1 else 0) 1 reservation budget :=
      hreserved
    refine .bind (request_metered rfl hpage hclass) fun answer k' hreserved => ?_
    have hfinish : (Script.tx (finishAttempt budget reservation answer now) :
        SyncScript Unit).Metered (syncMetering limit)
        (fun _ k' => k'.Affords limit pages 0 budget) k' := by
      unfold finishAttempt
      split
      · exact complete_metered hreserved
      · exact complete_metered hreserved
    refine .bind hfinish fun _ k' hleft => ?_
    cases answer with
    | error error => exact refuse_metered walk error
    | ok page =>
      refine .bind (idle_emit_metered (persistPage_ledger _ _ _ _) fun _ => rfl) fun _ k' hk => ?_
      subst hk
      split
      · exact complete_pass_metered _
      · split
        · exact stopRetryable_metered _ _
        · exact ih _ hleft

/-- A pass reserves every call it makes, and makes at most one for each page of its
configuration. -/
theorem runAccountOnce_metered (lib : Externals) (keys : CredentialKeyring)
    (config : OwnMediaSyncConfig) (accountId : Uuid) (now : Instant) :
    (runAccountOnce lib keys config accountId now).Metered (syncMetering config.callBudget)
      (fun _ _ => True) { left := min config.callBudget config.pagesPerRun } := by
  refine .bind (idle_metered (.query _)) fun read k hk => ?_
  subst hk
  rcases read with _ | read
  · exact .fail
  dsimp only
  split
  · refine .bind (idle_metered (.query _)) fun credential k hk => ?_
    subst hk
    rcases credential with _ | ⟨providerAccountId, envelope⟩
    · exact .fail
    dsimp only
    split
    · exact .fail
    refine .bind (idle_metered (.query _)) fun run k hk => ?_
    subst hk
    cases run with
    | some run =>
      dsimp only
      unfold resumeActive
      split
      · exact .fail
      refine .bind (?_ : Script.Metered _ (fun _ k => k = { operation := some run.runId
                                                            left := min config.callBudget
                                                              config.pagesPerRun }) _ _)
        fun _ k hk => ?_
      · refine .emit fun env db u db' hy => ?_
        obtain rfl := hy.execute
        exact ⟨_, .opened ⟨rfl, rfl⟩ rfl, rfl⟩
      subst hk
      refine .bind (?_ : Script.Metered _ (fun budget k => k.Affords config.callBudget
        config.pagesPerRun 0 budget) _ _) fun budget k hk => traverse_metered _ hk
      refine .tx fun env db budget db' hy => ?_
      obtain ⟨rfl, rfl⟩ := ProviderBudget.resume_yields hy.mapError
      refine ⟨_, .resumed rfl rfl, rfl, rfl, rfl, rfl, rfl, ?_⟩
      dsimp only
      omega
    | none =>
      refine .bind (idle_metered (.query _)) fun watermark k hk => ?_
      subst hk
      refine .bind (?_ : Script.Metered _ (fun runId k => k.Affords config.callBudget
        config.pagesPerRun 0 (ProviderBudget.new runId (some accountId) config.callBudget)) _ _)
        fun runId k hk => traverse_metered _ hk
      refine .emit fun env db runId db' hy => ?_
      obtain ⟨runs, items, -, -, -, -, rfl⟩ := openRun_yields hy
      refine ⟨_, .opened ⟨rfl, rfl⟩ rfl, rfl, rfl, rfl, rfl, rfl, ?_⟩
      simp [ProviderBudget.new]
  · refine .bind (idle_emit_metered ?_ fun _ => rfl) fun _ _ _ => .pure trivial
    intro env db runId db' hy
    obtain ⟨row, due, t, -, -, -, -, -, rfl⟩ := recordNoop_yields hy
    exact ⟨rfl, rfl⟩

end Passes

end InstagramArchive

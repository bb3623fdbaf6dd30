import InstagramArchive.CallAccounting
import InstagramArchive.OwnMediaAuthority
import InstagramArchive.Reference
import InstagramArchive.Relational.Ownership
import Mathlib.Algebra.Order.BigOperators.Group.List

/-!
# Provider calls are accounted and bounded

Any number of completions, refreshes and own-media passes run at once, each advanced by one
transaction or one answer at a time, while authorizations are begun and the rest of the service
writes. Each program is metered on its own; what the system adds is that a reservation belongs
to one program, so that no other completes it, and that the ordinals of an operation stay dense
however many budgets draw on it.
-/

namespace InstagramArchive

open Relational Relational.Tx

/-! ## The system -/

/-- What the relay and the providers answer at one moment. -/
structure ProviderAnswers where
  account : AccountAnswer
  media : OwnMediaAnswer

/-- A program that calls the provider. -/
inductive Program where
  | completion (script : Lifecycle.OAuthScript Lifecycle.ConnectedOfficialAccount)
  | refresh (script : Lifecycle.RefreshScript (List CapabilityRow))
  | pass (script : SyncScript OwnMediaSyncOutcome)

/-- The class of the provider call the program is making. -/
def Program.asked : Program → Option RequestClass
  | .completion script => script.asked.bind AccountRequest.requestClass
  | .refresh script => script.asked.bind AccountRequest.requestClass
  | .pass script => script.asked.map fun _ => .ownMediaPage

def Program.advance (env : Env) (answers : ProviderAnswers) (db : Db) :
    Program → Program × Db × Option Notice
  | .completion script =>
    (.completion (script.advance env answers.account db).1,
      (script.advance env answers.account db).2.1,
      (script.advance env answers.account db).2.2.bind AccountEvent.notice)
  | .refresh script =>
    (.refresh (script.advance env answers.account db).1,
      (script.advance env answers.account db).2.1,
      (script.advance env answers.account db).2.2.bind AccountEvent.notice)
  | .pass script =>
    (.pass (script.advance env answers.media db).1,
      (script.advance env answers.media db).2.1,
      (script.advance env answers.media db).2.2.bind SyncEvent.notice)

/-- A program under way, or one that ended. -/
structure Caller where
  program : Program
  callBudget : Nat
  /-- The most calls its loops can make. -/
  maxCalls : Nat
  /-- The operation its calls are accounted under. -/
  operation : Option Uuid := none
  /-- The state of the authorization it consumed. -/
  presented : Option (List UInt8) := none
  /-- The provider calls it made. -/
  calls : List RequestClass := []

structure CallSystem where
  db : Db := {}
  callers : List Caller := []
  /-- The states of the authorizations begun. -/
  begun : List (List UInt8) := []

inductive CallAction where
  | beginOauth (env : Env) (userRef : Uuid) (stateHash redirectUriHash : List UInt8)
      (ttlSeconds : Nat) (now : Instant)
  | beginCompletion (keys : CredentialKeyring) (userRef : Uuid) (relayId redirectUri : String)
      (callBudget discoveryRetries : Nat) (now : Instant)
  | beginRefresh (keys : CredentialKeyring) (accountId userRef : Uuid)
      (callBudget discoveryRetries : Nat) (refreshSupported : Bool) (now : Instant)
  | beginPass (keys : CredentialKeyring) (config : OwnMediaSyncConfig) (accountId : Uuid)
      (now : Instant)
  /-- A program commits its next transaction or receives its next answer. -/
  | advance (index : Nat) (env : Env) (answers : ProviderAnswers)
  /-- The rest of the service writes: every table but the usage ledger and the pending
  authorizations, of which it can delete some. -/
  | others (tables : Db) (kept : OauthFlow → Bool)

def Caller.noticed (notice : Option Notice) (c : Caller) : Caller :=
  match notice with
  | some (.operation operationId) => { c with operation := some operationId }
  | some (.claimed stateHash) => { c with presented := some stateHash }
  | none => c

def Caller.advance (env : Env) (answers : ProviderAnswers) (db : Db) (c : Caller) : Caller × Db :=
  ({ c.noticed (c.program.advance env answers db).2.2 with
      program := (c.program.advance env answers db).1
      calls := c.calls ++ c.program.asked.toList },
    (c.program.advance env answers db).2.1)

def withLedger (tables : Db) (kept : OauthFlow → Bool) (db : Db) : Db :=
  { tables with
    providerUsage := db.providerUsage
    oauthFlows := db.oauthFlows.delete fun f => !kept f }

def callStep (lib : Externals) (s : CallSystem) : CallAction → CallSystem
  | .beginOauth env userRef stateHash redirectUriHash ttlSeconds now =>
    match (beginOfficialOauth userRef stateHash redirectUriHash ttlSeconds now).exec env s.db with
    | (.ok _, db) => { s with db, begun := stateHash :: s.begun }
    | (.error _, db) => { s with db }
  | .beginCompletion keys userRef relayId redirectUri callBudget discoveryRetries now =>
    { s with
      callers := s.callers ++
        [{ program := .completion (Lifecycle.completeOfficialOauth lib keys userRef relayId
             redirectUri callBudget discoveryRetries now)
           callBudget
           maxCalls := 1 + 2 * (discoveryRetries + 1) }] }
  | .beginRefresh keys accountId userRef callBudget discoveryRetries refreshSupported now =>
    { s with
      callers := s.callers ++
        [{ program := .refresh (Lifecycle.refreshOfficialAccount lib keys accountId userRef
             callBudget discoveryRetries refreshSupported now)
           callBudget
           maxCalls := 1 + 2 * (discoveryRetries + 1) }] }
  | .beginPass keys config accountId now =>
    { s with
      callers := s.callers ++
        [{ program := .pass (runAccountOnce lib keys config accountId now)
           callBudget := config.callBudget
           maxCalls := config.pagesPerRun }] }
  | .advance index env answers =>
    match s.callers[index]? with
    | none => s
    | some c =>
      { s with
        db := (c.advance env answers s.db).2
        callers := s.callers.set index (c.advance env answers s.db).1 }
  | .others tables kept => { s with db := withLedger tables kept s.db }

/-- The code exchanges asked for under an authorization with this state. -/
def CallSystem.exchanges (stateHash : List UInt8) (s : CallSystem) : Nat :=
  ((s.callers.filter fun c => c.presented = some stateHash).map fun c =>
    c.calls.count .codeExchange).sum

/-- What holds of the usage ledger and the calls. -/
structure CallsAccounted (s : CallSystem) : Prop where
  /-- A call that is being made has its row in the ledger, started. -/
  reserved : ∀ c ∈ s.callers, ∀ requestClass, c.program.asked = some requestClass →
    ∃ u ∈ s.db.providerUsage, c.operation = some u.operationId ∧ u.requestClass = requestClass ∧
      u.outcome = none
  ordinals : ∀ operationId, attempts operationId s.db =
    List.range' 1 (attempts operationId s.db).length
  within : ∀ u ∈ s.db.providerUsage, ∃ c ∈ s.callers, c.operation = some u.operationId ∧
    u.attemptOrdinal ≤ c.callBudget
  bounded : ∀ c ∈ s.callers, c.calls.length ≤ min c.callBudget c.maxCalls
  /-- Code exchanges are asked for under an authorization, once for each that was begun. -/
  authorized : ∀ c ∈ s.callers, .codeExchange ∈ c.calls → c.presented.isSome
  exchanges : ∀ stateHash, s.exchanges stateHash ≤ s.begun.count stateHash

/-! ## What a step does to the ledger -/

/-- The authorizations with this state that nothing has consumed. -/
def unconsumed (stateHash : List UInt8) (db : Db) : Nat :=
  db.oauthFlows.rows.countP fun f => f.stateHash = stateHash && f.consumedAt.isNone

/-- The ordinals of every operation are the numbers from 1 on, in order. -/
def Dense (db : Db) : Prop :=
  ∀ operationId, attempts operationId db = List.range' 1 (attempts operationId db).length

/-- What a meter says about the ledger. -/
structure Meter.Grounded (db : Db) (k : Meter) : Prop where
  positive : 1 ≤ k.next
  next : ∀ operationId, k.operation = some operationId → k.next ≤ lastAttempt operationId db + 1
  reserved : ∀ reservation, k.reservation = some reservation → ∃ u ∈ db.providerUsage,
    u.usageId = reservation.usageId ∧ k.operation = some u.operationId ∧
      u.requestClass = reservation.requestClass ∧ u.outcome = none

section Ledger

variable {limit : Nat} {k k' : Meter} {db db' : Db} {notice : Option Notice}

theorem SameLedger.attempts_eq (h : SameLedger db db') (operationId : Uuid) :
    attempts operationId db' = attempts operationId db := by
  unfold attempts
  rw [h.usage]

theorem Dense.last_eq (h : Dense db) (operationId : Uuid) :
    lastAttempt operationId db = (attempts operationId db).length := by
  rw [lastAttempt_eq, h operationId, foldr_max_range']
  simp

/-- The attempt a dense ledger takes next is the first one after the last. -/
theorem Dense.append (h : Dense db) {row : ProviderUsage}
    {ledger : Table ProviderUsage ProviderUsage.usageId}
    (hrows : ledger.rows = db.providerUsage.rows ++ [row]) (hpositive : 1 ≤ row.attemptOrdinal)
    (hnext : row.attemptOrdinal ≤ lastAttempt row.operationId db + 1)
    (hguard : ProviderBudget.usageGuard row db = none) :
    Dense { db with providerUsage := ledger } ∧
      row.attemptOrdinal = lastAttempt row.operationId db + 1 := by
  have hfresh : row.attemptOrdinal ∉ attempts row.operationId db := by
    intro hmem
    obtain ⟨u, hu, hordinal⟩ := List.mem_map.mp hmem
    obtain ⟨hu, hoperation⟩ := List.mem_filter.mp hu
    have hany : (db.providerUsage.rows.any fun u =>
        u.operationId = row.operationId && u.attemptOrdinal = row.attemptOrdinal) = true :=
      List.any_eq_true.mpr ⟨u, hu, by simp [of_decide_eq_true hoperation, hordinal]⟩
    unfold ProviderBudget.usageGuard at hguard
    rw [if_pos hany] at hguard
    cases hguard
  have hordinal : row.attemptOrdinal = lastAttempt row.operationId db + 1 := by
    rw [h row.operationId, List.mem_range'_1] at hfresh
    rw [h.last_eq] at hnext ⊢
    omega
  refine ⟨fun operationId => ?_, hordinal⟩
  rw [attempts_append hrows]
  by_cases hrow : row.operationId = operationId
  · subst hrow
    rw [if_pos rfl, List.length_append, List.length_singleton, List.range'_1_concat, ← h, hordinal,
      h.last_eq, Nat.add_comm]
  · rw [if_neg hrow, List.append_nil]
    exact h operationId

theorem MeterStep.dense (hstep : MeterStep limit k db notice k' db') (hk : k.Grounded db)
    (h : Dense db) : Dense db' := by
  cases hstep with
  | idle hsame =>
    intro operationId
    rw [hsame.attempts_eq]
    exact h operationId
  | claimed hnone hclaim => exact h
  | opened hsame hnone =>
    intro operationId
    rw [hsame.attempts_eq]
    exact h operationId
  | resumed hop hfree => exact h
  | reserved hop hfree hlimit hordinal hstarted hguard hledger =>
    have hpositive := hk.positive
    have hnext := hk.next _ hop
    exact (h.append (Table.insert?_eq_some hledger).1 (by omega) (by omega) hguard).1
  | completed hres =>
    intro operationId
    rw [attempts_finished]
    exact h operationId

/-- Attempts are never forgotten. -/
theorem MeterStep.lastAttempt_le (hstep : MeterStep limit k db notice k' db') (operationId : Uuid) :
    lastAttempt operationId db ≤ lastAttempt operationId db' := by
  rw [lastAttempt_eq, lastAttempt_eq]
  cases hstep with
  | idle hsame => rw [hsame.attempts_eq]
  | claimed hnone hclaim => exact Nat.le_refl _
  | opened hsame hnone => rw [hsame.attempts_eq]
  | resumed hop hfree => exact Nat.le_refl _
  | reserved hop hfree hlimit hordinal hstarted hguard hledger =>
    rw [attempts_append (Table.insert?_eq_some hledger).1]
    split
    · rw [foldr_max_append]
      omega
    · rw [List.append_nil]
  | completed hres =>
    rw [attempts_finished]

/-- A step keeps every row but the one its program reserved. -/
theorem MeterStep.keeps (hstep : MeterStep limit k db notice k' db') {u : ProviderUsage}
    (hu : u ∈ db.providerUsage)
    (hother : ∀ reservation, k.reservation = some reservation → u.usageId ≠ reservation.usageId) :
    u ∈ db'.providerUsage := by
  cases hstep with
  | idle hsame => exact hsame.usage ▸ hu
  | claimed hnone hclaim => exact hu
  | opened hsame hnone => exact hsame.usage ▸ hu
  | resumed hop hfree => exact hu
  | reserved hop hfree hlimit hordinal hstarted hguard hledger =>
    exact (Table.mem_of_insert? hledger u).mpr (.inl hu)
  | completed hres =>
    exact mem_finished_of_ne hu (hother _ hres)

/-- A step draws a reservation of its own. -/
theorem MeterStep.fresh (hstep : MeterStep limit k db notice k' db') {reservation : UsageReservation}
    (hres : k'.reservation = some reservation) :
    k.reservation = some reservation ∨
      ∀ u ∈ db.providerUsage, u.usageId ≠ reservation.usageId := by
  cases hstep with
  | idle _ | claimed _ _ | opened _ _ | resumed _ _ => exact .inl hres
  | completed _ => cases hres
  | reserved hop hfree hlimit hordinal hstarted hguard hledger =>
    cases hres
    refine .inr fun u hu hid => ?_
    exact (Table.insert?_eq_some hledger).2 u hu hid

/-- Each row is under the operation of its program and within its budget, or was there. -/
theorem MeterStep.rows (hstep : MeterStep limit k db notice k' db') {u : ProviderUsage}
    (hu : u ∈ db'.providerUsage) :
    (∃ x ∈ db.providerUsage, u.operationId = x.operationId ∧ u.attemptOrdinal = x.attemptOrdinal) ∨
      k'.operation = some u.operationId ∧ u.attemptOrdinal ≤ limit := by
  cases hstep with
  | idle hsame => exact .inl ⟨u, hsame.usage ▸ hu, rfl, rfl⟩
  | claimed hnone hclaim => exact .inl ⟨u, hu, rfl, rfl⟩
  | opened hsame hnone => exact .inl ⟨u, hsame.usage ▸ hu, rfl, rfl⟩
  | resumed hop hfree => exact .inl ⟨u, hu, rfl, rfl⟩
  | reserved hop hfree hlimit hordinal hstarted hguard hledger =>
    rcases (Table.mem_of_insert? hledger u).mp hu with hu | rfl
    · exact .inl ⟨u, hu, rfl, rfl⟩
    · exact .inr ⟨hop, by omega⟩
  | completed hres =>
    exact .inl (exists_of_mem_finished hu)

/-- After its own step the meter is grounded again. -/
theorem MeterStep.grounded (hstep : MeterStep limit k db notice k' db') (hk : k.Grounded db)
    (h : Dense db) : k'.Grounded db' := by
  have hlast := hstep.lastAttempt_le
  have hkept : k.reservation = k'.reservation → k.operation = k'.operation →
      db'.providerUsage = db.providerUsage → ∀ reservation, k'.reservation = some reservation →
      ∃ u ∈ db'.providerUsage, u.usageId = reservation.usageId ∧
        k'.operation = some u.operationId ∧ u.requestClass = reservation.requestClass ∧
        u.outcome = none := by
    intro hres hop husage
    rw [← hres, ← hop, husage]
    exact hk.reserved
  cases hstep with
  | idle hsame =>
    refine ⟨hk.positive, fun operationId hop => ?_, hkept rfl rfl hsame.usage⟩
    exact Nat.le_trans (hk.next operationId hop) (Nat.add_le_add_right (hlast operationId) 1)
  | claimed hnone hclaim =>
    refine ⟨hk.positive, fun operationId hop => ?_, hkept rfl rfl rfl⟩
    exact Nat.le_trans (hk.next operationId hop) (Nat.add_le_add_right (hlast operationId) 1)
  | opened hsame hnone =>
    refine ⟨Nat.le_refl 1, fun operationId _ => by dsimp only; omega, fun reservation hres => ?_⟩
    obtain ⟨u, -, -, hop, -⟩ := hk.reserved reservation hres
    rw [hnone] at hop
    cases hop
  | resumed hop hfree =>
    refine ⟨Nat.succ_pos _, fun operationId hid => ?_, hkept rfl rfl rfl⟩
    rw [hop] at hid
    cases hid
    exact Nat.le_refl _
  | @reserved row ledger hop hfree hlimit hordinal hstarted hguard hledger =>
    have hpositive := hk.positive
    have hnext := hk.next _ hop
    have hrows := (Table.insert?_eq_some hledger).1
    have hone := (h.append hrows (by omega) (by omega) hguard).2
    refine ⟨Nat.succ_pos _, fun operationId hid => ?_, fun reservation hres => ?_⟩
    · have hid : row.operationId = operationId := Option.some.inj (hop.symm.trans hid)
      subst hid
      rw [lastAttempt_eq, attempts_append hrows, if_pos rfl, foldr_max_append]
      dsimp only
      omega
    · cases hres
      exact ⟨row, (Table.mem_of_insert? hledger row).mpr (.inr rfl), rfl, hop, rfl, hstarted⟩
  | completed hres =>
    refine ⟨hk.positive, fun operationId hop => ?_, fun _ hres => by cases hres⟩
    exact Nat.le_trans (hk.next operationId hop) (Nat.add_le_add_right (hlast operationId) 1)

/-- Consuming an authorization leaves one fewer with its state. -/
theorem unconsumed_claimed {userRef : Uuid} {presented redirectUriHash : List UInt8} {now : Instant}
    (hclaim : ∃ f ∈ db.oauthFlows, OauthFlow.claimable userRef presented redirectUriHash now f)
    (stateHash : List UInt8) :
    unconsumed stateHash { db with
        oauthFlows := db.oauthFlows.update
          (OauthFlow.claimable userRef presented redirectUriHash now)
          (fun f => { f with consumedAt := some now }) fun _ => rfl } +
        (if presented = stateHash then 1 else 0) ≤ unconsumed stateHash db := by
  unfold unconsumed
  rw [Table.rows_update, List.countP_map]
  generalize hclaims : OauthFlow.claimable userRef presented redirectUriHash now = claims at hclaim
  have hsplit := List.countP_eq_countP_filter_add db.oauthFlows.rows
    (fun f => decide (f.stateHash = stateHash) && f.consumedAt.isNone) claims
  have hkept : (db.oauthFlows.rows.countP ((fun f => decide (f.stateHash = stateHash) &&
      f.consumedAt.isNone) ∘ fun f => if claims f then { f with consumedAt := some now } else f)) =
      (db.oauthFlows.rows.filter fun f => !claims f).countP fun f =>
        decide (f.stateHash = stateHash) && f.consumedAt.isNone := by
    rw [List.countP_filter]
    apply List.countP_congr
    intro f _
    by_cases hf : claims f = true <;> simp [hf]
  rw [hkept]
  split
  · next hpresented =>
    obtain ⟨f, hf, hclaimable⟩ := hclaim
    have hone : 0 < (db.oauthFlows.rows.filter claims).countP fun f =>
        decide (f.stateHash = stateHash) && f.consumedAt.isNone := by
      refine List.countP_pos_iff.mpr ⟨f, List.mem_filter.mpr ⟨hf, hclaimable⟩, ?_⟩
      rw [← hclaims] at hclaimable
      simp only [OauthFlow.claimable, Bool.and_eq_true, decide_eq_true_eq] at hclaimable
      simp [hclaimable.1.1.1.2, hpresented, hclaimable.1.2]
    omega
  · omega

theorem MeterStep.unconsumed (hstep : MeterStep limit k db notice k' db')
    (stateHash : List UInt8) :
    InstagramArchive.unconsumed stateHash db' +
        (if notice = some (.claimed stateHash) then 1 else 0) ≤
      InstagramArchive.unconsumed stateHash db := by
  have hsame : ∀ m : Db, m.oauthFlows = db.oauthFlows →
      InstagramArchive.unconsumed stateHash m = InstagramArchive.unconsumed stateHash db := by
    intro m hm
    unfold InstagramArchive.unconsumed
    rw [hm]
  cases hstep with
  | idle h => simp [hsame _ h.flows]
  | opened h hnone => simp [hsame _ h.flows]
  | resumed hop hfree => simp
  | reserved hop hfree hlimit hordinal hstarted hguard hledger => simp [hsame]
  | completed hres => simp [hsame]
  | claimed hnone hclaim =>
    have hle := unconsumed_claimed hclaim stateHash
    simpa using hle

/-- What a turn of one program, with this meter before and that one after, does for the others. -/
structure Turn (limit : Nat) (k : Meter) (db : Db) (notice : Option Notice) (k' : Meter)
    (db' : Db) : Prop where
  lastAttempt : ∀ operationId, lastAttempt operationId db ≤ lastAttempt operationId db'
  keeps : ∀ u ∈ db.providerUsage,
    (∀ reservation, k.reservation = some reservation → u.usageId ≠ reservation.usageId) →
      u ∈ db'.providerUsage
  fresh : ∀ reservation, k'.reservation = some reservation →
    k.reservation = some reservation ∨ ∀ u ∈ db.providerUsage, u.usageId ≠ reservation.usageId
  rows : ∀ u ∈ db'.providerUsage, (∃ x ∈ db.providerUsage,
      u.operationId = x.operationId ∧ u.attemptOrdinal = x.attemptOrdinal) ∨
    k'.operation = some u.operationId ∧ u.attemptOrdinal ≤ limit
  dense : Dense db'
  unconsumed : ∀ stateHash, unconsumed stateHash db' +
    (if notice = some (.claimed stateHash) then 1 else 0) ≤ unconsumed stateHash db

theorem MeterStep.turn (hstep : MeterStep limit k db notice k' db') (hk : k.Grounded db)
    (h : Dense db) : Turn limit k db notice k' db' where
  lastAttempt := hstep.lastAttempt_le
  keeps _ := hstep.keeps
  fresh _ := hstep.fresh
  rows _ := hstep.rows
  dense := hstep.dense hk h
  unconsumed := hstep.unconsumed

/-- A turn that writes nothing. -/
theorem Turn.of_same (hres : k'.reservation = k.reservation) (h : Dense db) :
    Turn limit k db none k' db where
  lastAttempt _ := Nat.le_refl _
  keeps _ hu _ := hu
  fresh _ hr := .inl (hres ▸ hr)
  rows u hu := .inl ⟨u, hu, rfl, rfl⟩
  dense := h
  unconsumed _ := by simp

end Ledger

/-! ## What a turn does to its own program -/

/-- The program is metered from `k`. -/
def Program.Metered (limit : Nat) (k : Meter) : Program → Prop
  | .completion script => script.Metered (accountMetering limit) (fun _ _ => True) k
  | .refresh script => script.Metered (accountMetering limit) (fun _ _ => True) k
  | .pass script => script.Metered (syncMetering limit) (fun _ _ => True) k

/-- A turn of a metered program answers its question, or is a step of its meter. -/
theorem Program.Metered.advance {limit : Nat} {k : Meter} {p : Program} (h : p.Metered limit k)
    (env : Env) (answers : ProviderAnswers) (db : Db) :
    (∃ k', (p.advance env answers db).2 = (db, none) ∧ MeterAsks k p.asked k' ∧
        (p.advance env answers db).1.Metered limit k') ∨
      (p.asked = none ∧ ∃ k', MeterStep limit k db (p.advance env answers db).2.2 k'
        (p.advance env answers db).2.1 ∧ (p.advance env answers db).1.Metered limit k') := by
  cases p with
  | completion script =>
    rcases Script.Metered.advance h env answers.account db with
      ⟨request, k', hasked, hsame, hasks, hnext⟩ | ⟨hasked, hsame, hnext⟩ |
        ⟨hasked, k', hstep, hnext⟩
    · refine .inl ⟨k', by simp [Program.advance, hsame], ?_, hnext⟩
      rw [Program.asked, hasked]
      exact hasks
    · refine .inl ⟨k, by simp [Program.advance, hsame], ?_, hnext⟩
      rw [Program.asked, hasked]
      exact .other
    · exact .inr ⟨by simp [Program.asked, hasked], k', hstep, hnext⟩
  | refresh script =>
    rcases Script.Metered.advance h env answers.account db with
      ⟨request, k', hasked, hsame, hasks, hnext⟩ | ⟨hasked, hsame, hnext⟩ |
        ⟨hasked, k', hstep, hnext⟩
    · refine .inl ⟨k', by simp [Program.advance, hsame], ?_, hnext⟩
      rw [Program.asked, hasked]
      exact hasks
    · refine .inl ⟨k, by simp [Program.advance, hsame], ?_, hnext⟩
      rw [Program.asked, hasked]
      exact .other
    · exact .inr ⟨by simp [Program.asked, hasked], k', hstep, hnext⟩
  | pass script =>
    rcases Script.Metered.advance h env answers.media db with
      ⟨request, k', hasked, hsame, hasks, hnext⟩ | ⟨hasked, hsame, hnext⟩ |
        ⟨hasked, k', hstep, hnext⟩
    · refine .inl ⟨k', by simp [Program.advance, hsame], ?_, hnext⟩
      rw [Program.asked, hasked]
      exact hasks
    · refine .inl ⟨k, by simp [Program.advance, hsame], ?_, hnext⟩
      rw [Program.asked, hasked]
      exact .other
    · exact .inr ⟨by simp [Program.asked, hasked], k', hstep, hnext⟩

/-- The meter of a caller. -/
structure Caller.Follows (k : Meter) (db : Db) (c : Caller) : Prop where
  program : c.program.Metered c.callBudget k
  grounded : k.Grounded db
  operation : k.operation = c.operation
  presented : k.presented = c.presented
  left : c.calls.length + k.left ≤ min c.callBudget c.maxCalls
  exchanges : c.calls.count .codeExchange + k.exchanges ≤ c.presented.toList.length

section Callers

variable {k : Meter} {db db' : Db} {c : Caller}

/-- Other programs leave a caller's meter alone. -/
theorem Caller.Follows.frame (h : c.Follows k db)
    (hlast : ∀ operationId, lastAttempt operationId db ≤ lastAttempt operationId db')
    (hkeeps : ∀ reservation, k.reservation = some reservation → ∀ u ∈ db.providerUsage,
      u.usageId = reservation.usageId → u ∈ db'.providerUsage) : c.Follows k db' := by
  refine ⟨h.program, ⟨h.grounded.positive, fun operationId hop => ?_, fun reservation hres => ?_⟩,
    h.operation, h.presented, h.left, h.exchanges⟩
  · exact Nat.le_trans (h.grounded.next operationId hop) (Nat.add_le_add_right (hlast operationId) 1)
  · obtain ⟨u, hu, hid, hrest⟩ := h.grounded.reserved reservation hres
    exact ⟨u, hkeeps reservation hres u hu hid, hid, hrest⟩

/-- **Step lemma.** A turn of a caller. -/
theorem Caller.Follows.advance (h : c.Follows k db) (hdense : Dense db) (env : Env)
    (answers : ProviderAnswers) :
    ∃ notice k', (c.advance env answers db).1.Follows k' (c.advance env answers db).2 ∧
      Turn c.callBudget k db notice k' (c.advance env answers db).2 ∧
      (c.advance env answers db).1.callBudget = c.callBudget ∧
      (c.operation = none ∨ (c.advance env answers db).1.operation = c.operation) ∧
      ((notice = none ∨ ∃ operationId, notice = some (.operation operationId)) ∧
          (c.advance env answers db).1.presented = c.presented ∨
        ∃ stateHash, notice = some (.claimed stateHash) ∧ c.presented = none ∧
          (c.advance env answers db).1.presented = some stateHash) := by
  have hleft := h.left
  have hexchanges := h.exchanges
  rcases h.program.advance env answers db with ⟨k', hsame, hasks, hnext⟩ | ⟨hasked, k', hstep, hnext⟩
  · refine ⟨none, k', ?_, ?_, ?_⟩
    · unfold Caller.advance
      rw [hsame]
      generalize hclass : c.program.asked = asked at hasks
      cases hasks with
      | other =>
        refine ⟨hnext, h.grounded, h.operation, h.presented, ?_, ?_⟩
        · simpa [Caller.noticed] using hleft
        · simpa [Caller.noticed] using hexchanges
      | @call requestClass reservation left exchanges hres hcl hl he =>
        refine ⟨hnext, ⟨h.grounded.positive, h.grounded.next, h.grounded.reserved⟩, h.operation,
          h.presented, ?_, ?_⟩
        · simp only [Caller.noticed, Option.toList_some, List.length_append, List.length_singleton]
          omega
        · simp only [Caller.noticed, Option.toList_some, List.count_append, List.count_singleton]
          by_cases hcode : requestClass = .codeExchange
          · simp only [hcode, if_true, beq_self_eq_true] at he ⊢
            omega
          · simp only [hcode, if_false, beq_iff_eq] at he ⊢
            omega
    · unfold Caller.advance
      rw [hsame]
      refine .of_same ?_ hdense
      generalize c.program.asked = asked at hasks
      cases hasks <;> rfl
    · unfold Caller.advance
      rw [hsame]
      exact ⟨rfl, .inr rfl, .inl ⟨.inl rfl, rfl⟩⟩
  · have hgrounded := hstep.grounded h.grounded hdense
    have hturn := hstep.turn h.grounded hdense
    have hcalls : c.calls ++ c.program.asked.toList = c.calls := by simp [hasked]
    unfold Caller.advance
    rw [hcalls]
    refine ⟨_, k', ?_, hturn, ?_⟩
    · generalize hm : c.program.advance env answers db = moved at *
      obtain ⟨program, mid, notice⟩ := moved
      have hoperation := h.operation
      have hpresented := h.presented
      cases hstep with
      | idle hsame => exact ⟨hnext, hgrounded, hoperation, hpresented, hleft, hexchanges⟩
      | resumed hop hfree => exact ⟨hnext, hgrounded, hoperation, hpresented, hleft, hexchanges⟩
      | reserved hop hfree hlimit hordinal hstarted hguard hledger =>
        exact ⟨hnext, hgrounded, hoperation, hpresented, hleft, hexchanges⟩
      | completed hres => exact ⟨hnext, hgrounded, hoperation, hpresented, hleft, hexchanges⟩
      | opened hsame hnone => exact ⟨hnext, hgrounded, rfl, hpresented, hleft, hexchanges⟩
      | claimed hnone hclaim =>
        refine ⟨hnext, hgrounded, hoperation, rfl, hleft, ?_⟩
        rw [← hpresented, hnone] at hexchanges
        simp only [Caller.noticed, Option.toList_some, List.length_singleton]
        simp only [Option.toList_none, List.length_nil] at hexchanges
        omega
    · generalize hm : c.program.advance env answers db = moved at *
      obtain ⟨program, mid, notice⟩ := moved
      have hoperation := h.operation
      have hpresented := h.presented
      cases hstep with
      | idle hsame => exact ⟨rfl, .inr rfl, .inl ⟨.inl rfl, rfl⟩⟩
      | resumed hop hfree => exact ⟨rfl, .inr rfl, .inl ⟨.inl rfl, rfl⟩⟩
      | reserved hop hfree hlimit hordinal hstarted hguard hledger =>
        exact ⟨rfl, .inr rfl, .inl ⟨.inl rfl, rfl⟩⟩
      | completed hres => exact ⟨rfl, .inr rfl, .inl ⟨.inl rfl, rfl⟩⟩
      | opened hsame hnone =>
        exact ⟨rfl, .inl (hoperation ▸ hnone), .inl ⟨.inr ⟨_, rfl⟩, rfl⟩⟩
      | claimed hnone hclaim => exact ⟨rfl, .inr rfl, .inr ⟨_, rfl, hpresented ▸ hnone, rfl⟩⟩

end Callers

/-! ## The system keeps its accounts -/

/-- Every caller has a meter of its own, and the meters agree with the ledger. -/
structure CallSystem.Accounted (meters : Nat → Meter) (s : CallSystem) : Prop where
  callers : ∀ (i : Nat) (c : Caller), s.callers[i]? = some c → c.Follows (meters i) s.db
  /-- No two callers hold one reservation. -/
  apart : ∀ (i j : Nat) c c' r r', s.callers[i]? = some c → s.callers[j]? = some c' → i ≠ j →
    (meters i).reservation = some r → (meters j).reservation = some r' → r.usageId ≠ r'.usageId
  dense : Dense s.db
  within : ∀ u ∈ s.db.providerUsage, ∃ c ∈ s.callers, c.operation = some u.operationId ∧
    u.attemptOrdinal ≤ c.callBudget
  /-- An authorization is begun before it is consumed, and consumed once. -/
  claims : ∀ stateHash, (s.callers.countP fun c => c.presented = some stateHash) +
    unconsumed stateHash s.db ≤ s.begun.count stateHash

section System

variable {lib : Externals} {s : CallSystem} {meters : Nat → Meter}

/-- A new caller holds nothing. -/
theorem CallSystem.Accounted.begin (h : s.Accounted meters) {c : Caller} {k : Meter}
    (hc : c.Follows k s.db) (hfree : k.reservation = none) (hpresented : c.presented = none) :
    CallSystem.Accounted (Function.update meters s.callers.length k)
      { s with callers := s.callers ++ [c] } := by
  have hold : ∀ i c', s.callers[i]? = some c' → i ≠ s.callers.length := by
    intro i c' hi
    have := (List.getElem?_eq_some_iff.mp hi).1
    omega
  refine ⟨fun i c' hi => ?_, fun i j c' c'' r r' hi hj hne hr hr' => ?_, h.dense, fun u hu => ?_,
    fun stateHash => ?_⟩
  · rcases getElem?_concat_cases hi with hi | ⟨rfl, rfl⟩
    · rw [Function.update_of_ne (hold i c' hi)]
      exact h.callers i c' hi
    · rw [Function.update_self]
      exact hc
  · rcases getElem?_concat_cases hi with hi | ⟨rfl, rfl⟩
    · rcases getElem?_concat_cases hj with hj | ⟨rfl, rfl⟩
      · rw [Function.update_of_ne (hold i c' hi)] at hr
        rw [Function.update_of_ne (hold j c'' hj)] at hr'
        exact h.apart i j c' c'' r r' hi hj hne hr hr'
      · rw [Function.update_self, hfree] at hr'
        cases hr'
    · rw [Function.update_self, hfree] at hr
      cases hr
  · obtain ⟨c', hc', hrest⟩ := h.within u hu
    exact ⟨c', List.mem_append_left _ hc', hrest⟩
  · have hclaims := h.claims stateHash
    simp only [List.countP_append, List.countP_singleton, hpresented]
    simpa using hclaims

/-- **Step lemma** of a caller in the system. -/
theorem CallSystem.Accounted.advance (h : s.Accounted meters) (index : Nat) (env : Env)
    (answers : ProviderAnswers) :
    ∃ meters', (callStep lib s (.advance index env answers)).Accounted meters' := by
  cases hc : s.callers[index]? with
  | none =>
    have hstep : callStep lib s (.advance index env answers) = s := by
      simp only [callStep, hc]
    exact ⟨meters, hstep.symm ▸ h⟩
  | some c =>
    obtain ⟨notice, k', hfollows, hturn, hbudget, hoperation, hpresented⟩ :=
      (h.callers index c hc).advance h.dense env answers
    have hstep : callStep lib s (.advance index env answers) =
        { s with db := (c.advance env answers s.db).2
                 callers := s.callers.set index (c.advance env answers s.db).1 } := by
      simp only [callStep, hc]
    rw [hstep]
    obtain ⟨hindex, hget⟩ := List.getElem?_eq_some_iff.mp hc
    generalize c.advance env answers s.db = moved at *
    obtain ⟨c', db'⟩ := moved
    dsimp only at *
    -- a reservation of another caller has its row, so a new one differs from it
    have hother : ∀ j x r, s.callers[j]? = some x → j ≠ index → (meters j).reservation = some r →
        ∀ r', k'.reservation = some r' → r'.usageId ≠ r.usageId := by
      intro j x r hj hne hr r' hr'
      rcases hturn.fresh r' hr' with hown | hfresh
      · exact h.apart index j c x r' r hc hj (Ne.symm hne) hown hr
      · obtain ⟨u, hu, hid, -⟩ := (h.callers j x hj).grounded.reserved r hr
        exact fun heq => hfresh u hu (hid.trans heq.symm)
    refine ⟨Function.update meters index k', ?_, ?_, hturn.dense, fun u hu => ?_, fun stateHash => ?_⟩
    · intro i x hi
      rcases getElem?_set_cases hi with ⟨rfl, rfl⟩ | ⟨hne, hi⟩
      · rw [Function.update_self]
        exact hfollows
      · rw [Function.update_of_ne hne]
        refine (h.callers i x hi).frame hturn.lastAttempt fun r hr u hu hid => ?_
        refine hturn.keeps u hu fun own hown => ?_
        rw [hid]
        exact h.apart i index x c r own hi hc hne hr hown
    · intro i j x y r r' hi hj hne hr hr'
      rcases getElem?_set_cases hi with ⟨rfl, rfl⟩ | ⟨hine, hix⟩
      · rcases getElem?_set_cases hj with ⟨rfl, rfl⟩ | ⟨hjne, hjy⟩
        · exact (hne rfl).elim
        · rw [Function.update_self] at hr
          rw [Function.update_of_ne hjne] at hr'
          exact hother j y r' hjy hjne hr' r hr
      · rw [Function.update_of_ne hine] at hr
        rcases getElem?_set_cases hj with ⟨rfl, rfl⟩ | ⟨hjne, hjy⟩
        · rw [Function.update_self] at hr'
          exact (hother i x r hix hine hr r' hr').symm
        · rw [Function.update_of_ne hjne] at hr'
          exact h.apart i j x y r r' hix hjy hne hr hr'
    · rcases hturn.rows u hu with ⟨x, hx, hop, hordinal⟩ | ⟨hop, hordinal⟩
      · obtain ⟨y, hy, hyop, hyle⟩ := h.within x hx
        obtain ⟨i, hi⟩ := List.mem_iff_getElem?.mp hy
        by_cases hne : i = index
        · subst hne
          obtain rfl : c = y := Option.some.inj (hc.symm.trans hi)
          refine ⟨c', List.mem_set hindex c', ?_, by rw [hordinal, hbudget]; exact hyle⟩
          rcases hoperation with hnone | hsame
          · rw [hnone] at hyop
            cases hyop
          · rw [hsame, hop, hyop]
        · have hmem : y ∈ s.callers.set index c' := by
            refine List.mem_iff_getElem?.mpr ⟨i, ?_⟩
            rw [List.getElem?_set_ne (Ne.symm hne), hi]
          exact ⟨y, hmem, by rw [hop, hyop], by rw [hordinal]; exact hyle⟩
      · exact ⟨c', List.mem_set hindex c', hfollows.operation ▸ hop, hbudget ▸ hordinal⟩
    · have hclaims := h.claims stateHash
      have hfewer := hturn.unconsumed stateHash
      dsimp only at hpresented ⊢
      rw [List.countP_set hindex, hget]
      rcases hpresented with ⟨hquiet, hsame⟩ | ⟨claimed, rfl, hnone, hsome⟩
      · have hnotice : notice ≠ some (.claimed stateHash) := by
          rcases hquiet with rfl | ⟨operationId, rfl⟩ <;> simp
        rw [hsame]
        rw [if_neg hnotice] at hfewer
        by_cases hp : c.presented = some stateHash
        · have hpos : 0 < s.callers.countP fun c => c.presented = some stateHash :=
            List.countP_pos_iff.mpr ⟨c, List.mem_of_getElem? hc, by simp [hp]⟩
          simp only [hp, decide_true, if_true]
          omega
        · simp only [hp, decide_false, Bool.false_eq_true, if_false]
          omega
      · rw [hnone, hsome]
        by_cases hp : claimed = stateHash
        · subst hp
          simp only [reduceCtorEq, decide_false, Bool.false_eq_true, decide_true, if_false, if_true]
            at hfewer ⊢
          omega
        · simp only [reduceCtorEq, decide_false, Bool.false_eq_true, Option.some.injEq, hp,
            Notice.claimed.injEq, if_false] at hfewer ⊢
          omega

/-- What beginning an authorization does. -/
theorem beginOfficialOauth_yields {env : Env} {db db' : Db} {userRef flowId : Uuid}
    {stateHash redirectUriHash : List UInt8} {ttlSeconds : Nat} {now : Instant}
    (h : (beginOfficialOauth userRef stateHash redirectUriHash ttlSeconds now).Yields env db flowId
      db') :
    ∃ (row : OauthFlow) (flows : Table OauthFlow OauthFlow.flowId),
      flows.rows = db.oauthFlows.rows ++ [row] ∧ row.stateHash = stateHash ∧
        db' = { db with oauthFlows := flows } := by
  unfold beginOfficialOauth at h
  split at h
  · exact h.throw.elim
  · obtain ⟨id, _, h1, h⟩ := h.bind
    obtain rfl := h1.nowV7
    obtain ⟨_, _, h1, h⟩ := h.bind
    obtain ⟨-, flows, hflows, rfl⟩ := h1.insertInto
    obtain ⟨rfl, rfl⟩ := yields_pure.mp h
    exact ⟨_, flows, (Table.insert?_eq_some hflows).1, rfl, rfl⟩

/-- A write that keeps the usage ledger. -/
theorem CallSystem.Accounted.frame (h : s.Accounted meters) {db' : Db} {begun : List (List UInt8)}
    (husage : db'.providerUsage = s.db.providerUsage)
    (hclaims : ∀ stateHash, unconsumed stateHash db' + s.begun.count stateHash ≤
      unconsumed stateHash s.db + begun.count stateHash) :
    CallSystem.Accounted meters { s with db := db', begun } := by
  have hattempts : ∀ operationId, attempts operationId db' = attempts operationId s.db := by
    intro operationId
    unfold attempts
    rw [husage]
  refine ⟨fun i c hi => (h.callers i c hi).frame (fun operationId => ?_) fun _ _ u hu _ => ?_,
    h.apart, fun operationId => ?_, fun u hu => h.within u (husage ▸ hu), fun stateHash => ?_⟩
  · rw [lastAttempt_eq, lastAttempt_eq, hattempts]
  · exact husage ▸ hu
  · dsimp only
    rw [hattempts]
    exact h.dense operationId
  · have := h.claims stateHash
    have := hclaims stateHash
    dsimp only
    omega

/-- **Step lemma.** -/
theorem callStep_accounted (lib : Externals) (s : CallSystem) (a : CallAction)
    (h : ∃ meters, s.Accounted meters) : ∃ meters, (callStep lib s a).Accounted meters := by
  obtain ⟨meters, h⟩ := h
  have hidle : ∀ left, Meter.Grounded s.db { left } := fun left =>
    ⟨Nat.le_refl 1, nofun, nofun⟩
  cases a with
  | advance index env answers => exact h.advance index env answers
  | beginCompletion keys userRef relayId redirectUri callBudget discoveryRetries now =>
    refine ⟨_, h.begin ⟨Lifecycle.completeOfficialOauth_metered lib keys userRef relayId redirectUri
      callBudget discoveryRetries now, hidle _, rfl, rfl, ?_, Nat.le_refl 0⟩ rfl rfl⟩
    simp
  | beginRefresh keys accountId userRef callBudget discoveryRetries refreshSupported now =>
    refine ⟨_, h.begin ⟨Lifecycle.refreshOfficialAccount_metered lib keys accountId userRef
      callBudget discoveryRetries refreshSupported now, hidle _, rfl, rfl, ?_, Nat.le_refl 0⟩ rfl
      rfl⟩
    simp
  | beginPass keys config accountId now =>
    refine ⟨_, h.begin ⟨runAccountOnce_metered lib keys config accountId now, hidle _, rfl, rfl, ?_,
      Nat.le_refl 0⟩ rfl rfl⟩
    simp
  | others tables kept =>
    refine ⟨meters, h.frame rfl fun stateHash => Nat.add_le_add_right ?_ _⟩
    exact (List.filter_sublist).countP_le
  | beginOauth env userRef stateHash redirectUriHash ttlSeconds now =>
    rcases Tx.exec_cases (beginOfficialOauth userRef stateHash redirectUriHash ttlSeconds now) env
      s.db with ⟨flowId, db', he, hy⟩ | ⟨e, he⟩
    · have hstep : callStep lib s (.beginOauth env userRef stateHash redirectUriHash ttlSeconds
          now) = { s with db := db', begun := stateHash :: s.begun } := by
        simp only [callStep, he]
      obtain ⟨row, flows, hrows, hrow, rfl⟩ := beginOfficialOauth_yields hy
      rw [hstep]
      refine ⟨meters, h.frame rfl fun hash => ?_⟩
      unfold unconsumed
      rw [hrows, List.countP_append, List.countP_singleton, List.count_cons, hrow]
      by_cases hsame : stateHash = hash
      · simp only [hsame, decide_true, Bool.true_and, beq_self_eq_true, if_true]
        split <;> omega
      · simp only [hsame, decide_false, Bool.false_and, Bool.false_eq_true, if_false, beq_iff_eq]
        omega
    · have hstep : callStep lib s (.beginOauth env userRef stateHash redirectUriHash ttlSeconds
          now) = s := by
        simp only [callStep, he]
      exact ⟨meters, hstep.symm ▸ h⟩

/-- A caller with a meter accounts for its calls. -/
theorem CallSystem.Accounted.callsAccounted (h : s.Accounted meters) : CallsAccounted s where
  reserved c hc requestClass hasked := by
    obtain ⟨i, hi⟩ := List.mem_iff_getElem?.mp hc
    have hfollows := h.callers i c hi
    obtain ⟨k', hasks⟩ : ∃ k', MeterAsks (meters i) c.program.asked k' := by
      rcases hfollows.program.advance ⟨0, fun _ => 0, fun _ => 0, fun _ => false⟩
        ⟨⟨.error .unavailable, .error ⟨.server, none⟩, .error ⟨.server, none⟩,
          .error ⟨.server, none⟩⟩, .error ⟨.server, none⟩⟩ s.db with
        ⟨k', -, hasks, -⟩ | ⟨hnone, -⟩
      · exact ⟨k', hasks⟩
      · rw [hasked] at hnone
        cases hnone
    rw [hasked] at hasks
    cases hasks with
    | call hres hclass hleft hexchanges =>
      obtain ⟨u, hu, -, hop, hrow, hstarted⟩ := hfollows.grounded.reserved _ hres
      exact ⟨u, hu, hfollows.operation ▸ hop, hrow.trans hclass, hstarted⟩
  ordinals := h.dense
  within := h.within
  bounded c hc := by
    obtain ⟨i, hi⟩ := List.mem_iff_getElem?.mp hc
    have := (h.callers i c hi).left
    omega
  authorized c hc hcalled := by
    obtain ⟨i, hi⟩ := List.mem_iff_getElem?.mp hc
    have hexchanges := (h.callers i c hi).exchanges
    have hpos := List.count_pos_iff.mpr hcalled
    cases hp : c.presented with
    | some stateHash => rfl
    | none =>
      rw [hp, Option.toList_none, List.length_nil] at hexchanges
      omega
  exchanges stateHash := by
    have hclaims := h.claims stateHash
    have hsum : s.exchanges stateHash ≤
        (s.callers.filter fun c => c.presented = some stateHash).length := by
      unfold CallSystem.exchanges
      have hone : ∀ n ∈ (s.callers.filter fun c => c.presented = some stateHash).map fun c =>
          c.calls.count .codeExchange, n ≤ 1 := by
        intro n hn
        obtain ⟨c, hc, rfl⟩ := List.mem_map.mp hn
        obtain ⟨hc, hp⟩ := List.mem_filter.mp hc
        obtain ⟨i, hi⟩ := List.mem_iff_getElem?.mp hc
        have hexchanges := (h.callers i c hi).exchanges
        rw [of_decide_eq_true hp, Option.toList_some, List.length_singleton] at hexchanges
        omega
      have := List.sum_le_card_nsmul _ 1 hone
      simpa using this
    rw [List.countP_eq_length_filter] at hclaims
    omega

/-- **Provider calls are accounted and bounded.** In every state any interleaving of completions,
refreshes and own-media passes reaches, whatever the providers answer: a call that is being made
has a started row of its operation and class, ordinals count up from 1 within the budget of the
operation, completions and refreshes make no more calls than budget and retries allow, and an
authorization leads to one code exchange. Both programs end. A reservation is its checks and one
insert: refused by the limit, by the ordinal's range, by the connection or by a constraint it adds
no row, and otherwise its one started row. -/
theorem provider_calls_accounted (lib : Externals) :
    (∀ actions, CallsAccounted (run (callStep lib) {} actions)) ∧
      (∀ keys userRef relayId redirectUri callBudget discoveryRetries now turns, ∃ n result,
        (Lifecycle.completeOfficialOauth lib keys userRef relayId redirectUri callBudget
          discoveryRetries now).after turns n = .finish result) ∧
      (∀ keys accountId userRef callBudget discoveryRetries refreshSupported now turns, ∃ n result,
        (Lifecycle.refreshOfficialAccount lib keys accountId userRef callBudget discoveryRetries
          refreshSupported now).after turns n = .finish result) ∧
      ∀ (budget : ProviderBudget) requestClass startedAt env db,
        ReserveEffect budget requestClass startedAt db
          ((budget.reserve requestClass startedAt).exec env db).1
          ((budget.reserve requestClass startedAt).exec env db).2 := by
  refine ⟨fun actions => ?_, fun _ _ _ _ _ _ _ _ => Script.ends _ _,
    fun _ _ _ _ _ _ _ _ => Script.ends _ _, ProviderBudget.reserve_effect⟩
  have hstart : ∃ meters, CallSystem.Accounted meters {} :=
    ⟨fun _ => { left := 0 }, fun i c hi => by simp at hi,
      fun i j c c' r r' hi => by simp at hi, fun _ => rfl,
      fun u hu => (Table.not_mem_empty u hu).elim, fun _ => Nat.le_refl 0⟩
  obtain ⟨meters, h⟩ := run_invariant (callStep lib) (fun _ _ => True)
    (fun s => ∃ meters, s.Accounted meters) (fun s a _ h => callStep_accounted lib s a h)
    (guarded_of_all (callStep lib) (fun _ _ => trivial) {} actions) hstart
  exact h.callsAccounted

end System

end InstagramArchive

import InstagramArchive.Relational.Integrity
import InstagramArchive.Schema

/-!
# Durable provider-call budgets

An attempt is reserved in the usage ledger before the provider is called and completed
afterwards. A budget counts the attempts of one operation by their ordinals; resuming an
operation continues after the last ordinal the ledger holds for it.
-/

namespace InstagramArchive

open Relational Relational.Tx

/-- Durable provider-budget failure. -/
inductive BudgetError where
  | exhausted
  | invalidMetadata
  | database (error : SqlError)
  deriving DecidableEq, Repr

instance : OfSql BudgetError := ⟨.database⟩

/-- One committed attempt reservation. -/
structure UsageReservation where
  usageId : Uuid
  attemptOrdinal : Nat
  requestClass : RequestClass
  deriving DecidableEq, Repr

/-- Finite budget for one top-level operation. -/
structure ProviderBudget where
  operationId : Uuid
  accountId : Option Uuid
  limit : Nat
  nextOrdinal : Nat
  deriving DecidableEq, Repr

/-- The greatest `i32` and `u32`. -/
def i32Max : Nat := 2 ^ 31 - 1
def u32Max : Nat := 2 ^ 32 - 1

/-- `select max(attempt_ordinal)` of an operation, 0 when it has no attempt. -/
def lastAttempt (operationId : Uuid) (db : Db) : Nat :=
  ((db.providerUsage.rows.filter fun u => u.operationId = operationId).map
    ProviderUsage.attemptOrdinal).foldr max 0

namespace ProviderBudget

/-- An in-process budget whose reservations are still durable. -/
def new (operationId : Uuid) (accountId : Option Uuid) (limit : Nat) : ProviderBudget :=
  { operationId, accountId, limit, nextOrdinal := 1 }

/-- Restores the next durable attempt ordinal for a resumable operation. -/
def resume (operationId : Uuid) (accountId : Option Uuid) (limit : Nat) :
    ArchiveTx BudgetError ProviderBudget := do
  let previous ← query (lastAttempt operationId)
  if previous + 1 ≤ u32Max then
    return { operationId, accountId, limit, nextOrdinal := previous + 1 }
  else Tx.throw .invalidMetadata

/-- Whether no unit remains. -/
def exhausted (budget : ProviderBudget) : Bool := budget.limit < budget.nextOrdinal

def usageGuard (row : ProviderUsage) (db : Db) : Option SqlError :=
  if db.providerUsage.rows.any fun u =>
      u.operationId = row.operationId && u.attemptOrdinal = row.attemptOrdinal then
    some (.uniqueViolation "provider_api_usage_operation_ordinal_key")
  else if row.accountId.any fun id => (db.accounts.lookup id).isNone then
    some (.foreignKeyViolation "provider_api_usage_account_id_fkey")
  else none

/-- Commits an attempt reservation before the caller invokes transport. -/
def reserve (budget : ProviderBudget) (requestClass : RequestClass) (startedAt : Instant) :
    ArchiveTx BudgetError (UsageReservation × ProviderBudget) := do
  if budget.exhausted then Tx.throw .exhausted
  else if i32Max < budget.nextOrdinal then Tx.throw .invalidMetadata
  else
    let usageId ← nowV7
    let row : ProviderUsage :=
      { usageId
        operationId := budget.operationId
        accountId := budget.accountId
        requestClass
        attemptOrdinal := budget.nextOrdinal
        startedAt }
    insertInto "provider_api_usage_pkey" Db.providerUsage
      (fun db t => { db with providerUsage := t }) (usageGuard row) row
    return (⟨usageId, budget.nextOrdinal, requestClass⟩,
      { budget with nextOrdinal := budget.nextOrdinal + 1 })

/-- The rows a completion rewrites: the reservation while it is `started`. -/
def completes (budget : ProviderBudget) (reservation : UsageReservation) (u : ProviderUsage) :
    Bool :=
  u.usageId = reservation.usageId && u.operationId = budget.operationId && u.outcome.isNone

/-- Marks a reservation terminal. The usage percentages of the source are always absent. -/
def complete (budget : ProviderBudget) (reservation : UsageReservation) (outcome : UsageOutcome)
    (httpStatus : Option Nat) (finishedAt : Instant) : ArchiveTx BudgetError Unit := do
  if httpStatus.any fun status => status < 100 || 599 < status then
    Tx.throw .invalidMetadata
  else
    let affected ← statement fun db => .ok
      ((db.providerUsage.rows.filter (budget.completes reservation)).length,
        { db with
          providerUsage := db.providerUsage.update (budget.completes reservation) fun u =>
            { u with outcome := some outcome, httpStatus, finishedAt := some finishedAt } })
    if affected ≠ 1 then Tx.throw .invalidMetadata
    else return ()

end ProviderBudget

/-! ## What the budget writes -/

section Writes

variable {env : Env} {db db' : Db}

/-- The ordinals of an operation, in the order of their reservations. -/
def attempts (operationId : Uuid) (db : Db) : List Nat :=
  (db.providerUsage.rows.filter fun u => u.operationId = operationId).map
    ProviderUsage.attemptOrdinal

theorem lastAttempt_eq (operationId : Uuid) (db : Db) :
    lastAttempt operationId db = (attempts operationId db).foldr max 0 := rfl

theorem attempts_append {t : Table ProviderUsage ProviderUsage.usageId} {row : ProviderUsage}
    (h : t.rows = db.providerUsage.rows ++ [row]) (operationId : Uuid) :
    attempts operationId { db with providerUsage := t } = attempts operationId db ++
      if row.operationId = operationId then [row.attemptOrdinal] else [] := by
  unfold attempts
  rw [h, List.filter_append, List.map_append]
  by_cases hrow : row.operationId = operationId <;> simp [hrow]

/-- The ordinals are read from operations and ordinals only. -/
theorem attempts_update (db : Db) (operationId : Uuid) (p : ProviderUsage → Bool)
    (f : ProviderUsage → ProviderUsage) (hf : ∀ u, (f u).usageId = u.usageId)
    (hoperation : ∀ u, (f u).operationId = u.operationId)
    (hordinal : ∀ u, (f u).attemptOrdinal = u.attemptOrdinal) :
    attempts operationId { db with providerUsage := db.providerUsage.update p f hf } =
      attempts operationId db := by
  unfold attempts
  simp only [Table.rows_update]
  induction db.providerUsage.rows with
  | nil => rfl
  | cons u rest ih =>
    have hu : (if p u = true then f u else u).operationId = u.operationId := by
      split <;> simp [hoperation]
    have hn : (if p u = true then f u else u).attemptOrdinal = u.attemptOrdinal := by
      split <;> simp [hordinal]
    by_cases hid : u.operationId = operationId
    · simp [hu, hid, hn, ih]
    · simp [hu, hid, ih]

theorem foldr_max_append (l : List Nat) (n : Nat) :
    (l ++ [n]).foldr max 0 = max (l.foldr max 0) n := by
  induction l with
  | nil => simp
  | cons m rest ih =>
    simp only [List.cons_append, List.foldr_cons, ih]
    omega

theorem foldr_max_range' (n : Nat) : (List.range' 1 n).foldr max 0 = n := by
  induction n with
  | zero => rfl
  | succ n ih =>
    rw [List.range'_1_concat, foldr_max_append, ih]
    omega

theorem le_foldr_max {l : List Nat} {n : Nat} (h : n ∈ l) : n ≤ l.foldr max 0 := by
  induction l with
  | nil => simp at h
  | cons m rest ih =>
    simp only [List.foldr_cons]
    rcases List.mem_cons.mp h with rfl | h
    · omega
    · have := ih h
      omega

theorem attemptOrdinal_le_lastAttempt {u : ProviderUsage} (h : u ∈ db.providerUsage) :
    u.attemptOrdinal ≤ lastAttempt u.operationId db :=
  le_foldr_max (List.mem_map_of_mem (List.mem_filter.mpr ⟨h, by simp⟩))

/-- The budget touches the usage ledger only. -/
def OnlyUsage (db db' : Db) : Prop := ∃ t, db' = { db with providerUsage := t }

instance : IsPreorder Db OnlyUsage where
  refl db := ⟨db.providerUsage, rfl⟩
  trans := by
    rintro a _ _ ⟨t, rfl⟩ ⟨u, rfl⟩
    exact ⟨u, rfl⟩

theorem ProviderBudget.resume_yields {operationId : Uuid} {accountId : Option Uuid} {limit : Nat}
    {budget : ProviderBudget}
    (h : (ProviderBudget.resume operationId accountId limit).Yields env db budget db') :
    budget = ⟨operationId, accountId, limit, lastAttempt operationId db + 1⟩ ∧ db = db' := by
  obtain ⟨previous, _, h1, h⟩ := h.bind
  obtain ⟨rfl, rfl⟩ := h1.query
  split at h
  · obtain ⟨rfl, rfl⟩ := yields_pure.mp h
    exact ⟨rfl, rfl⟩
  · exact h.throw.elim

/-- **What a reservation does.** A row of the operation is started under the next ordinal,
within the limit; a row with that ordinal, or for an absent account, is refused. -/
theorem ProviderBudget.reserve_yields {budget next : ProviderBudget} {requestClass : RequestClass}
    {startedAt : Instant} {reservation : UsageReservation}
    (h : (budget.reserve requestClass startedAt).Yields env db (reservation, next) db') :
    budget.nextOrdinal ≤ budget.limit ∧ next = { budget with nextOrdinal := budget.nextOrdinal + 1 } ∧
      ∃ (row : ProviderUsage) (ledger : Table ProviderUsage ProviderUsage.usageId),
        row.operationId = budget.operationId ∧ row.attemptOrdinal = budget.nextOrdinal ∧
        row.outcome = none ∧
        reservation = ⟨row.usageId, row.attemptOrdinal, row.requestClass⟩ ∧
        row.requestClass = requestClass ∧ usageGuard row db = none ∧
        db.providerUsage.insert? row = some ledger ∧ db' = { db with providerUsage := ledger } := by
  unfold ProviderBudget.reserve at h
  split at h
  · exact h.throw.elim
  · next hexhausted =>
    split at h
    · exact h.throw.elim
    · obtain ⟨usageId, _, h1, h⟩ := h.bind
      obtain rfl := h1.nowV7
      obtain ⟨_, _, h1, h⟩ := h.bind
      obtain ⟨hguard, ledger, hledger, rfl⟩ := h1.insertInto
      obtain ⟨hresult, rfl⟩ := yields_pure.mp h
      simp only [Prod.mk.injEq] at hresult
      simp only [ProviderBudget.exhausted, decide_eq_true_eq, Nat.not_lt] at hexhausted
      exact ⟨hexhausted, hresult.2, _, ledger, rfl, rfl, rfl, hresult.1, rfl, hguard, hledger, rfl⟩

/-- The row a reservation starts. -/
def ProviderBudget.startedRow (budget : ProviderBudget) (requestClass : RequestClass)
    (startedAt : Instant) (usageId : Uuid) : ProviderUsage :=
  { usageId
    operationId := budget.operationId
    accountId := budget.accountId
    requestClass
    attemptOrdinal := budget.nextOrdinal
    startedAt }

/-- What a reservation answers and the ledger it leaves, one case for each of its exits. The
insert is its only statement, so a refusal is one of the checks before it, the connection, or a
constraint the row breaks. -/
inductive ReserveEffect (budget : ProviderBudget) (requestClass : RequestClass)
    (startedAt : Instant) (db : Db) :
    Except BudgetError (UsageReservation × ProviderBudget) → Db → Prop
  | exhausted (spent : budget.limit < budget.nextOrdinal) :
    ReserveEffect budget requestClass startedAt db (.error .exhausted) db
  | unstorable (left : budget.nextOrdinal ≤ budget.limit) (large : i32Max < budget.nextOrdinal) :
    ReserveEffect budget requestClass startedAt db (.error .invalidMetadata) db
  | refused (usageId : Uuid) (violation : SqlError) (left : budget.nextOrdinal ≤ budget.limit)
    (cause : violation = .connection ∨
      ProviderBudget.usageGuard (budget.startedRow requestClass startedAt usageId) db =
        some violation ∨
      (db.providerUsage.lookup usageId).isSome ∧
        violation = .uniqueViolation "provider_api_usage_pkey") :
    ReserveEffect budget requestClass startedAt db (.error (.database violation)) db
  | started (usageId : Uuid) (ledger : Table ProviderUsage ProviderUsage.usageId)
    (left : budget.nextOrdinal ≤ budget.limit) (storable : budget.nextOrdinal ≤ i32Max)
    (appended : ledger.rows =
      db.providerUsage.rows ++ [budget.startedRow requestClass startedAt usageId]) :
    ReserveEffect budget requestClass startedAt db
      (.ok (⟨usageId, budget.nextOrdinal, requestClass⟩,
        { budget with nextOrdinal := budget.nextOrdinal + 1 }))
      { db with providerUsage := ledger }

/-- **Every exit of a reservation.** -/
theorem ProviderBudget.reserve_effect (budget : ProviderBudget) (requestClass : RequestClass)
    (startedAt : Instant) (env : Env) (db : Db) :
    ReserveEffect budget requestClass startedAt db
      ((budget.reserve requestClass startedAt).exec env db).1
      ((budget.reserve requestClass startedAt).exec env db).2 := by
  rcases Nat.lt_or_ge budget.limit budget.nextOrdinal with hspent | hleft
  · have hthrow : budget.reserve requestClass startedAt = Tx.throw .exhausted := by
      simp only [ProviderBudget.reserve, ProviderBudget.exhausted, hspent, decide_true, if_true]
    rw [hthrow]
    exact .exhausted hspent
  · have hexhausted : ¬ budget.exhausted = true := by
      simp [ProviderBudget.exhausted, hleft]
    rcases Nat.lt_or_ge i32Max budget.nextOrdinal with hlarge | hstorable
    · have hthrow : budget.reserve requestClass startedAt = Tx.throw .invalidMetadata := by
        simp only [ProviderBudget.reserve, if_neg hexhausted, if_pos hlarge]
      rw [hthrow]
      exact .unstorable hleft hlarge
    · have hinsert : budget.reserve requestClass startedAt = (do
          let usageId ← nowV7
          insertInto "provider_api_usage_pkey" Db.providerUsage
            (fun db t => { db with providerUsage := t })
            (usageGuard (budget.startedRow requestClass startedAt usageId))
            (budget.startedRow requestClass startedAt usageId)
          return (⟨usageId, budget.nextOrdinal, requestClass⟩,
            { budget with nextOrdinal := budget.nextOrdinal + 1 })) := by
        simp only [ProviderBudget.reserve, if_neg hexhausted, if_neg (Nat.not_lt.mpr hstorable)]
        rfl
      rcases Tx.exec_cases (budget.reserve requestClass startedAt) env db with
        ⟨answer, db', he, hy⟩ | ⟨e, he⟩
      · rw [he]
        rw [hinsert] at hy
        obtain ⟨usageId, _, h1, h⟩ := hy.bind
        obtain rfl := h1.nowV7
        obtain ⟨_, _, h1, h⟩ := h.bind
        obtain ⟨-, ledger, hledger, rfl⟩ := h1.insertInto
        obtain ⟨rfl, rfl⟩ := yields_pure.mp h
        exact .started usageId ledger hleft hstorable (Table.insert?_eq_some hledger).1
      · have hfails := Tx.exec_fails (congrArg Prod.fst he)
        rw [he]
        rw [hinsert] at hfails
        rcases hfails.bind with h | ⟨usageId, _, h1, h⟩
        · exact h.nowV7.elim
        obtain rfl := h1.nowV7
        rcases h.bind with h | ⟨_, _, -, h⟩
        · rcases h.insertInto with rfl | ⟨htaken, rfl⟩ | ⟨violation, hguard, rfl⟩
          · exact .refused 0 _ hleft (Or.inl rfl)
          · exact .refused usageId _ hleft (Or.inr (Or.inr ⟨htaken, rfl⟩))
          · exact .refused usageId _ hleft (Or.inr (Or.inl hguard))
        · exact h.pure.elim

/-- The ledger with the reservation's row completed. -/
def ProviderBudget.finished (budget : ProviderBudget) (reservation : UsageReservation)
    (outcome : UsageOutcome) (httpStatus : Option Nat) (finishedAt : Instant)
    (ledger : Table ProviderUsage ProviderUsage.usageId) :
    Table ProviderUsage ProviderUsage.usageId :=
  ledger.update (budget.completes reservation) fun u =>
    { u with outcome := some outcome, httpStatus, finishedAt := some finishedAt }

section Finished

variable {budget : ProviderBudget} {reservation : UsageReservation} {outcome : UsageOutcome}
  {httpStatus : Option Nat} {finishedAt : Instant} {u : ProviderUsage}

theorem attempts_finished (db : Db) (operationId : Uuid) :
    attempts operationId { db with
        providerUsage :=
          budget.finished reservation outcome httpStatus finishedAt db.providerUsage } =
      attempts operationId db :=
  attempts_update db operationId (budget.completes reservation)
    (fun u => { u with outcome := some outcome, httpStatus, finishedAt := some finishedAt })
    (fun _ => rfl) (fun _ => rfl) fun _ => rfl

/-- Other rows stay as they are. -/
theorem mem_finished_of_ne {ledger : Table ProviderUsage ProviderUsage.usageId} (hu : u ∈ ledger)
    (hne : u.usageId ≠ reservation.usageId) :
    u ∈ budget.finished reservation outcome httpStatus finishedAt ledger := by
  refine (Table.mem_update ..).mpr ⟨u, hu, ?_⟩
  rw [if_neg]
  simp [ProviderBudget.completes, hne]

/-- A row keeps its operation and its ordinal. -/
theorem exists_of_mem_finished {ledger : Table ProviderUsage ProviderUsage.usageId}
    (hu : u ∈ budget.finished reservation outcome httpStatus finishedAt ledger) :
    ∃ x ∈ ledger, u.operationId = x.operationId ∧ u.attemptOrdinal = x.attemptOrdinal := by
  obtain ⟨x, hx, hux⟩ := (Table.mem_update ..).mp hu
  refine ⟨x, hx, ?_, ?_⟩ <;> rw [hux] <;> split <;> rfl

end Finished

/-- **What a completion does.** -/
theorem ProviderBudget.complete_yields {budget : ProviderBudget} {reservation : UsageReservation}
    {outcome : UsageOutcome} {httpStatus : Option Nat} {finishedAt : Instant} {u : Unit}
    (h : (budget.complete reservation outcome httpStatus finishedAt).Yields env db u db') :
    db' = { db with
      providerUsage :=
        budget.finished reservation outcome httpStatus finishedAt db.providerUsage } := by
  unfold ProviderBudget.complete at h
  split at h
  · exact h.throw.elim
  · obtain ⟨affected, m, h1, h⟩ := h.bind
    have hupdated := h1.statement
    simp only [Except.ok.injEq, Prod.mk.injEq] at hupdated
    split at h
    · exact h.throw.elim
    · obtain ⟨-, rfl⟩ := yields_pure.mp h
      exact hupdated.2.symm

theorem ProviderBudget.reserve_onlyUsage (budget : ProviderBudget) (requestClass : RequestClass)
    (startedAt : Instant) : (budget.reserve requestClass startedAt).Respects OnlyUsage := by
  unfold ProviderBudget.reserve
  split
  · exact .throw
  · split
    · exact .throw
    · refine .bind .nowV7 fun usageId => ?_
      exact .bind (.insertInto fun db t => ⟨t, rfl⟩) fun _ => .pure _

theorem ProviderBudget.complete_onlyUsage (budget : ProviderBudget) (reservation : UsageReservation)
    (outcome : UsageOutcome) (httpStatus : Option Nat) (finishedAt : Instant) :
    (budget.complete reservation outcome httpStatus finishedAt).Respects OnlyUsage := by
  unfold ProviderBudget.complete
  split
  · exact .throw
  · refine .bind ?_ fun affected => ?_
    · intro env s n s' h
      have h := Yields.statement h
      simp only [Except.ok.injEq, Prod.mk.injEq] at h
      exact ⟨_, h.2.symm⟩
    · split
      · exact .throw
      · exact .pure ()

end Writes

end InstagramArchive

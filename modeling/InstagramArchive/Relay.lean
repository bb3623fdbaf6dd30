import InstagramArchive.Publishing
import InstagramArchive.Relational.Integrity
import Mathlib.Data.List.Sort

/-!
# The outbox relay

One relay pass selects publishable rows, delivers them one by one outside any
transaction and books each answer with a statement of its own; when nothing failed it
publishes due, unacknowledged removals again. A pass is a value that is advanced one
delivery or one statement at a time, so a booking acts on whatever the table holds by
then and a crash is a pass that is never advanced again.
-/

namespace InstagramArchive

open Relational Relational.Tx

inductive UndeliverableClass where
  | payloadTooLarge
  deriving DecidableEq, Repr

/-- The closed token stored in `last_error`. -/
def UndeliverableClass.asStr : UndeliverableClass → String
  | .payloadTooLarge => "payload_too_large"

/-- Why a delivery attempt could not complete. -/
inductive TransportError where
  | transient (message : String)
  | undeliverable (reason : UndeliverableClass)
  deriving DecidableEq, Repr

def TransportError.render : TransportError → String
  | .transient message => "event delivery failed: " ++ message
  | .undeliverable reason => "event is undeliverable: " ++ reason.asStr

/-- What the transport answered one delivery. -/
abbrev TransportAnswer := Except TransportError Unit

/-- The delay before the first republish of a removal and the longest delay between
two; both in microseconds, which the floats of the source carry exactly. -/
structure ResendPolicy where
  after : Int
  cap : Int
  deriving DecidableEq, Repr

/-- The documented defaults. -/
def ResendPolicy.default : ResendPolicy := ⟨seconds 600, seconds 21600⟩

def lastErrorChars : Nat := 200

/-- The back-off of a failed delivery. -/
def failureBackoff : Int := seconds 60

/-! ## Statements -/

/-- `update outbox_events set .. where ..`; the event id is out of reach. -/
def updateOutbox (p : OutboxEvent → Bool) (f : OutboxEvent → OutboxEvent)
    (hf : ∀ e, (f e).eventId = e.eventId := by intro; rfl) (db : Db) : Db :=
  { db with outboxEvents := db.outboxEvents.update p f hf }

/-- A first publication; only a removal gets a resend schedule. -/
def OutboxEvent.published (now : Instant) (policy : ResendPolicy) (e : OutboxEvent) : OutboxEvent :=
  { e with
    publishedAt := some now
    nextResendAt := if e.eventType = .sourceRemoved then some (now + policy.after) else none }

def markPublished (eventId : Uuid) (policy : ResendPolicy) : ArchiveTx SqlError Unit := do
  let now ← Tx.now
  execute (updateOutbox (fun e => e.eventId = eventId && e.publishedAt.isNone)
    (OutboxEvent.published now policy))

def OutboxEvent.undeliverable (now : Instant) (reason : UndeliverableClass) (e : OutboxEvent) :
    OutboxEvent :=
  { e with
    attemptCount := e.attemptCount + 1
    undeliverableAt := some now
    lastError := some reason.asStr }

def markUndeliverable (eventId : Uuid) (reason : UndeliverableClass) : ArchiveTx SqlError Unit := do
  let now ← Tx.now
  execute (updateOutbox (fun e => e.eventId = eventId) (OutboxEvent.undeliverable now reason))

def OutboxEvent.backedOff (now : Instant) (error : TransportError) (e : OutboxEvent) : OutboxEvent :=
  { e with
    attemptCount := e.attemptCount + 1
    nextAttemptAt := some (now + failureBackoff)
    lastError := some (String.ofList (error.render.toList.take lastErrorChars)) }

def recordTransientFailure (eventId : Uuid) (error : TransportError) : ArchiveTx SqlError Unit := do
  let now ← Tx.now
  execute (updateOutbox (fun e => e.eventId = eventId) (OutboxEvent.backedOff now error))

/-- The wait before the copy after the next: doubled at each resend up to the cap. -/
def resendWait (policy : ResendPolicy) (resendCount : Nat) : Int :=
  min (policy.after * 2 ^ min resendCount 30) policy.cap

def OutboxEvent.resent (now : Instant) (policy : ResendPolicy) (e : OutboxEvent) : OutboxEvent :=
  { e with
    resendCount := e.resendCount + 1
    attemptCount := 0
    lastError := none
    nextResendAt := some (now + resendWait policy e.resendCount) }

/-- A published removal that is not acknowledged yet. -/
def OutboxEvent.awaitsAck (e : OutboxEvent) : Bool :=
  e.eventType = .sourceRemoved && e.publishedAt.isSome && e.acknowledgedAt.isNone

/-- `resend_count` is an `integer`, whose largest value has no successor. -/
def resendOverflow (eventId : Uuid) (db : Db) : Option SqlError :=
  if db.outboxEvents.rows.any fun e =>
      e.eventId = eventId && e.awaitsAck && decide (2 ^ 31 - 1 ≤ e.resendCount) then
    some .numericValueOutOfRange
  else none

def recordResend (eventId : Uuid) (policy : ResendPolicy) : ArchiveTx SqlError Unit := do
  let now ← Tx.now
  executeChecked (resendOverflow eventId)
    (updateOutbox (fun e => e.eventId = eventId && e.awaitsAck) (OutboxEvent.resent now policy))

def OutboxEvent.acknowledged (now : Instant) (outcome : AckOutcome) (e : OutboxEvent) :
    OutboxEvent :=
  { e with acknowledgedAt := some now, ackOutcome := some outcome }

/-- What an acknowledgement names: a removal of that tenant without an answer yet. -/
def OutboxEvent.acknowledges (eventId : Uuid) (tenant : String) (e : OutboxEvent) : Bool :=
  e.eventId = eventId && e.eventType = .sourceRemoved && e.payload.tenantId = tenant &&
    e.acknowledgedAt.isNone

/-- Records the answer to a removal and says whether a row changed. -/
def acknowledge (eventId : Uuid) (tenant : String) (outcome : AckOutcome) :
    ArchiveTx SqlError Bool := do
  let now ← Tx.now
  statement fun db => .ok
    (db.outboxEvents.rows.any (OutboxEvent.acknowledges eventId tenant),
      updateOutbox (OutboxEvent.acknowledges eventId tenant)
        (OutboxEvent.acknowledged now outcome) (by intro; rfl) db)

/-! ## Selections -/

/-- A row as a pass holds it. -/
structure Selected where
  eventId : Uuid
  payload : Envelope
  deriving DecidableEq, Repr

def OutboxEvent.selected (e : OutboxEvent) : Selected := ⟨e.eventId, e.payload⟩

def OutboxEvent.publishable (now : Instant) (e : OutboxEvent) : Bool :=
  e.publishedAt.isNone && e.undeliverableAt.isNone && e.nextAttemptAt.all fun due => due ≤ now

/-- `order by occurred_at, event_id`. -/
def publishBefore (a b : OutboxEvent) : Bool :=
  a.occurredAt < b.occurredAt || (a.occurredAt = b.occurredAt && a.eventId ≤ b.eventId)

/-- `i32::try_from(batch).unwrap_or(i32::MAX)`. -/
def batchLimit (batch : Nat) : Nat := min batch (2 ^ 31 - 1)

def selectPublishable (now : Instant) (batch : Nat) (db : Db) : List OutboxEvent :=
  ((db.outboxEvents.rows.filter (OutboxEvent.publishable now)).insertionSort
    fun a b => publishBefore a b).take (batchLimit batch)

def OutboxEvent.resendable (now : Instant) (e : OutboxEvent) : Bool :=
  e.awaitsAck && (e.nextResendAt.any fun due => due ≤ now) &&
    e.nextAttemptAt.all fun due => due ≤ now

/-- `order by next_resend_at, event_id`; selected rows have a due time. -/
def resendBefore (a b : OutboxEvent) : Bool :=
  a.nextResendAt.getD 0 < b.nextResendAt.getD 0 ||
    (a.nextResendAt.getD 0 = b.nextResendAt.getD 0 && a.eventId ≤ b.eventId)

def selectResendable (now : Instant) (batch : Nat) (db : Db) : List OutboxEvent :=
  ((db.outboxEvents.rows.filter (OutboxEvent.resendable now)).insertionSort
    fun a b => resendBefore a b).take (batchLimit batch)

/-! ## Passes -/

/-- Where a pass stands between two of its deliveries and statements. -/
inductive RelayPhase where
  /-- Fresh rows to deliver, and how many deliveries failed so far. -/
  | publishing (rest : List Selected) (failed : Nat)
  /-- A fresh row was answered and is not booked yet. -/
  | booking (row : Selected) (answer : TransportAnswer) (rest : List Selected) (failed : Nat)
  /-- Removals to publish again. -/
  | resending (rest : List Selected)
  /-- A republished removal was answered and is not booked yet. -/
  | rebooking (row : Selected) (answer : TransportAnswer) (rest : List Selected)

structure RelayPass where
  batch : Nat
  resend : ResendPolicy
  phase : RelayPhase

/-- The selection that opens `run_once`. -/
def beginPass (batch : Nat) (resend : ResendPolicy) : ArchiveTx SqlError RelayPass := do
  let now ← Tx.now
  let rows ← query (selectPublishable now batch)
  return ⟨batch, resend, .publishing (rows.map OutboxEvent.selected) 0⟩

/-- The row a pass delivers next and where it stands once the transport answered. -/
def RelayPass.deliver (pass : RelayPass) (answer : TransportAnswer) :
    Option (Selected × RelayPass) :=
  match pass.phase with
  | .publishing (row :: rest) failed =>
    some (row, { pass with phase := .booking row answer rest failed })
  | .resending (row :: rest) => some (row, { pass with phase := .rebooking row answer rest })
  | _ => none

/-- The statement that books an answer. A refused republish ends the resends. -/
def RelayPass.book (pass : RelayPass) : ArchiveTx SqlError RelayPass :=
  match pass.phase with
  | .booking row (.ok ()) rest failed => do
    markPublished row.eventId pass.resend
    return { pass with phase := .publishing rest failed }
  | .booking row (.error (.undeliverable reason)) rest failed => do
    markUndeliverable row.eventId reason
    return { pass with phase := .publishing rest failed }
  | .booking row (.error (.transient message)) rest failed => do
    recordTransientFailure row.eventId (.transient message)
    return { pass with phase := .publishing rest (failed + 1) }
  | .rebooking row (.ok ()) rest => do
    recordResend row.eventId pass.resend
    return { pass with phase := .resending rest }
  | .rebooking row (.error error) _ => do
    recordTransientFailure row.eventId error
    return { pass with phase := .resending [] }
  | _ => return pass

/-- The selection that opens `resend_due`, once every fresh row is booked and none
failed. -/
def RelayPass.resendDue (pass : RelayPass) : ArchiveTx SqlError RelayPass :=
  match pass.phase with
  | .publishing [] 0 => do
    let now ← Tx.now
    let rows ← query (selectResendable now pass.batch)
    return { pass with phase := .resending (rows.map OutboxEvent.selected) }
  | _ => return pass

/-! ## What a statement of a pass leaves in the database -/

/-- The writes that book an answer for the row `eventId`, with the condition each of them is
guarded by. -/
inductive Booking (now : Instant) (resend : ResendPolicy) (eventId : Uuid) :
    (OutboxEvent → Bool) → (OutboxEvent → OutboxEvent) → Prop
  | published :
      Booking now resend eventId (fun e => e.eventId = eventId && e.publishedAt.isNone)
        (OutboxEvent.published now resend)
  | undeliverable (reason : UndeliverableClass) :
      Booking now resend eventId (fun e => e.eventId = eventId)
        (OutboxEvent.undeliverable now reason)
  | backedOff (error : TransportError) :
      Booking now resend eventId (fun e => e.eventId = eventId) (OutboxEvent.backedOff now error)
  | resent :
      Booking now resend eventId (fun e => e.eventId = eventId && e.awaitsAck)
        (OutboxEvent.resent now resend)

/-- No answer was booked for the row yet. -/
def OutboxEvent.untried (e : OutboxEvent) : Bool :=
  e.publishedAt.isNone && e.undeliverableAt.isNone && e.nextAttemptAt.isNone

/-- How a pass goes on once its answer is booked: a first delivery leaves its row tried, a
republish leaves its row published. -/
inductive Books (now : Instant) (pass : RelayPass) :
    RelayPass → (OutboxEvent → Bool) → (OutboxEvent → OutboxEvent) → Prop
  | fresh {row : Selected} {answer : TransportAnswer} {rest : List Selected} {failed failed' : Nat}
      {p : OutboxEvent → Bool} {f : OutboxEvent → OutboxEvent}
      (hphase : pass.phase = .booking row answer rest failed)
      (h : Booking now pass.resend row.eventId p f)
      (htried : ∀ e, e.eventId = row.eventId → e.untried = true → p e = true ∧ (f e).untried = false) :
      Books now pass { pass with phase := .publishing rest failed' } p f
  | again {row : Selected} {answer : TransportAnswer} {rest rest' : List Selected}
      {p : OutboxEvent → Bool} {f : OutboxEvent → OutboxEvent}
      (hphase : pass.phase = .rebooking row answer rest) (hrest : rest' ⊆ rest)
      (h : Booking now pass.resend row.eventId p f)
      (hkept : ∀ e, (f e).publishedAt = e.publishedAt ∧ (f e).undeliverableAt = e.undeliverableAt) :
      Books now pass { pass with phase := .resending rest' } p f

theorem Books.booking {now : Instant} {pass pass' : RelayPass} {p : OutboxEvent → Bool}
    {f : OutboxEvent → OutboxEvent} (h : Books now pass pass' p f) :
    ∃ eventId, Booking now pass.resend eventId p f := by
  cases h with
  | fresh _ h _ => exact ⟨_, h⟩
  | again _ _ h _ => exact ⟨_, h⟩

variable {env : Env} {db db' : Db}

/-- **What a booking does.** -/
theorem RelayPass.book_yields {pass pass' : RelayPass}
    (h : pass.book.Yields env db pass' db') :
    (pass' = pass ∧ db' = db) ∨
      ∃ p f hf, Books env.now pass pass' p f ∧ db' = updateOutbox p f hf db := by
  unfold RelayPass.book at h
  split at h
  all_goals try
    rename_i hphase
    obtain ⟨_, m, h1, h⟩ := h.bind
    obtain ⟨rfl, rfl⟩ := yields_pure.mp h
    obtain ⟨now, _, h2, h1⟩ := h1.bind
    obtain ⟨rfl, rfl⟩ := h2.now
    right
  · refine ⟨_, _, _, .fresh hphase .published ?_, h1.execute⟩
    intro e he hu
    simp_all [OutboxEvent.untried, OutboxEvent.published]
  · refine ⟨_, _, _, .fresh hphase (.undeliverable _) ?_, h1.execute⟩
    intro e he hu
    simp [he, OutboxEvent.untried, OutboxEvent.undeliverable]
  · refine ⟨_, _, _, .fresh hphase (.backedOff _) ?_, h1.execute⟩
    intro e he hu
    simp [he, OutboxEvent.untried, OutboxEvent.backedOff]
  · exact ⟨_, _, _, .again hphase (List.Subset.refl _) .resent fun _ => ⟨rfl, rfl⟩,
      h1.executeChecked.2⟩
  · exact ⟨_, _, _, .again hphase (List.nil_subset _) (.backedOff _) fun _ => ⟨rfl, rfl⟩,
      h1.execute⟩
  · obtain ⟨rfl, rfl⟩ := yields_pure.mp h
    exact Or.inl ⟨rfl, rfl⟩

theorem acknowledge_yields {eventId : Uuid} {tenant : String} {outcome : AckOutcome} {b : Bool}
    (h : (acknowledge eventId tenant outcome).Yields env db b db') :
    db' = updateOutbox (OutboxEvent.acknowledges eventId tenant)
      (OutboxEvent.acknowledged env.now outcome) (by intro; rfl) db := by
  obtain ⟨now, _, h1, h⟩ := h.bind
  obtain ⟨rfl, rfl⟩ := h1.now
  have h := h.statement
  simp only [Except.ok.injEq, Prod.mk.injEq] at h
  exact h.2.symm

end InstagramArchive

import InstagramArchive.Capture

/-!
# Browser capture commands

One Platform command is validated, claimed in the inbox and turned into a capture
and an operation row inside one transaction. A command whose permalink cannot be
mapped is answered with a terminal report instead.
-/

namespace InstagramArchive

open Relational Relational.Tx Permalink

/-! ## The command envelope -/

inductive SocialCaptureProvider where
  | instagram
  | other
  deriving DecidableEq, Repr

/-- The typed payload of a capture command. `capturedAt` is `none` when the wire
form is no RFC 3339 instant. -/
structure SocialCaptureRequested where
  provider : SocialCaptureProvider
  acquisition : AcquisitionMethod
  savedAuthority : SavedAuthority
  operationId : Uuid
  originalPermalink : String
  capturedAt : Option Instant
  idempotencyKey : ContentDigest
  deriving DecidableEq, Repr

/-- A command envelope; `payload` is `none` when it does not hold a capture request. -/
structure CommandEnvelope where
  commandId : Uuid
  tenantId : Option Uuid
  payload : Option SocialCaptureRequested
  deriving DecidableEq, Repr

/-- One broker delivery; `envelope` is `none` when the bytes are no envelope. -/
structure CommandDelivery where
  subject : String
  envelope : Option CommandEnvelope
  deriving DecidableEq, Repr

/-- A validated browser capture. -/
structure BrowserCaptureCommand where
  commandId : Uuid
  userRef : Uuid
  operationId : Uuid
  originalPermalink : String
  capturedAt : Instant
  idempotencyKey : ContentDigest
  clientSource : ClientSource
  deriving DecidableEq, Repr

inductive CommandCaptureError where
  | wrongSubject
  | invalidEnvelope
  | missingOwner
  | wrongProvider
  | wrongAcquisition
  | wrongSavedAuthority
  | invalidCapturedAt
  | capture (error : CaptureError)
  | persistence (error : SqlError)
  | report (error : PublishError)
  deriving DecidableEq, Repr

instance : OfSql CommandCaptureError := ⟨.persistence⟩

/-- `From<PublishError>`. -/
def CommandCaptureError.ofPublish : PublishError → CommandCaptureError
  | .persistence error => .persistence error
  | other => .report other

/-- The durable result of accepting one command delivery. -/
inductive BrowserCaptureIngested where
  | preserved (submission : CaptureSubmission)
  | duplicate
  | rejected
  deriving DecidableEq, Repr

def captureSubject : String := "cmd.instagram.capture.requested.v1"

/-- Validates one Platform command delivered to the Instagram subject. -/
def decodeBrowserCaptureCommand (delivery : CommandDelivery) :
    Except CommandCaptureError BrowserCaptureCommand :=
  if delivery.subject ≠ captureSubject then .error .wrongSubject
  else match delivery.envelope with
  | none => .error .invalidEnvelope
  | some envelope => match envelope.payload with
    | none => .error .invalidEnvelope
    | some payload =>
      if payload.provider ≠ .instagram then .error .wrongProvider
      else if payload.acquisition ≠ .browserExtension then .error .wrongAcquisition
      else if payload.savedAuthority ≠ .explicitUserCapture then .error .wrongSavedAuthority
      else match envelope.tenantId, payload.capturedAt with
      | none, _ => .error .missingOwner
      | some _, none => .error .invalidCapturedAt
      | some owner, some capturedAt => .ok
          { commandId := envelope.commandId
            userRef := owner
            operationId := payload.operationId
            originalPermalink := payload.originalPermalink
            capturedAt
            idempotencyKey := payload.idempotencyKey
            clientSource := .browserExtension }

/-! ## Ingestion -/

/-- The inbox claim, `on conflict do nothing returning 1`. -/
def claimInbox {ε : Type} [OfSql ε] (consumer : Consumer) (eventId : Uuid) : ArchiveTx ε Bool := do
  let consumedAt ← now
  insertUnless "inbox_events_pkey" Db.inboxEvents (fun db t => { db with inboxEvents := t })
    (fun _ => none) (fun db => (db.inboxEvents.lookup (consumer, eventId)).isSome)
    { consumerName := consumer, eventId, consumedAt, handlerOutcome := .processed }

def setInboxOutcome (consumer : Consumer) (eventId : Uuid) (outcome : InboxOutcome) (db : Db) : Db :=
  { db with
    inboxEvents := db.inboxEvents.update
      (fun r => r.consumerName = consumer && r.eventId = eventId)
      fun r => { r with handlerOutcome := outcome } }

def markInboxOutcome {ε : Type} [OfSql ε] (consumer : Consumer) (eventId : Uuid)
    (outcome : InboxOutcome) : ArchiveTx ε Unit :=
  execute (setInboxOutcome consumer eventId outcome)

/-- Whether `capture_operations` already holds the operation or the command. -/
def operationKnown (operationId commandId : Uuid) (db : Db) : Bool :=
  db.captureOperations.rows.any fun o => o.operationId = operationId || o.commandId = commandId

def operationGuard (captureId : Uuid) (db : Db) : Option SqlError :=
  if (db.captures.lookup captureId).isNone then
    some (.foreignKeyViolation "capture_operations_capture_id_fkey")
  else none

def insertOperation {ε : Type} [OfSql ε] (row : CaptureOperation) : ArchiveTx ε Bool :=
  insertUnless "capture_operations_pkey" Db.captureOperations
    (fun db t => { db with captureOperations := t }) (operationGuard row.captureId)
    (operationKnown row.operationId row.commandId) row

/-- How a new command moves its capture: an unavailable one is reopened, an accepted
one keeps its schedule unless it has none. -/
def reopened (now : Instant) (c : Capture) : Capture :=
  { c with
    status := .accepted
    resolutionAttempts := if c.status = .unavailable then 0 else c.resolutionAttempts
    nextResolutionAt :=
      if c.status = .unavailable then some now else some (c.nextResolutionAt.getD now) }

def CaptureStatus.open : CaptureStatus → Bool
  | .accepted | .unavailable => true
  | _ => false

def reopenCapture (captureId : Uuid) (now : Instant) (db : Db) : Db :=
  { db with
    captures := db.captures.update (fun c => c.captureId = captureId && c.status.open)
      (reopened now) }

/-- The row of the operation a command carries. -/
def operationRow (command : BrowserCaptureCommand) (captureId : Uuid) (createdAt : Instant) :
    CaptureOperation :=
  { operationId := command.operationId
    commandId := command.commandId
    captureId
    userRef := command.userRef
    createdAt }

/-- Stores the operation a command carries, makes its capture due and queues the
report of a new operation. -/
def recordOperation (lib : Externals) (command : BrowserCaptureCommand) (captureId : Uuid) :
    ArchiveTx CommandCaptureError Unit := do
  let createdAt ← now
  let inserted ← insertOperation (operationRow command captureId createdAt)
  execute (reopenCapture captureId createdAt)
  if inserted then
    let report ← ofExcept ((buildReport lib command.operationId command.operationId
      .queued).mapError .report)
    let _ ← mapError .ofPublish
      (appendOperationReport (some captureId) command.userRef command.commandId report)

/-- The capture request a command stands for. -/
def BrowserCaptureCommand.request (command : BrowserCaptureCommand) : CaptureRequest :=
  { userRef := command.userRef
    url := command.originalPermalink
    capturedAt := command.capturedAt
    clientSource := command.clientSource
    note := none
    clientIdempotencyKey := some command.idempotencyKey.hex }

/-- The terminal answer to a command whose permalink cannot be mapped. -/
def rejectCommand (lib : Externals) (command : BrowserCaptureCommand) :
    ArchiveTx CommandCaptureError BrowserCaptureIngested := do
  let report ← ofExcept ((buildReport lib command.operationId command.operationId
    (.unavailable .inaccessible)).mapError .report)
  let _ ← mapError .ofPublish
    (appendOperationReport none command.userRef command.commandId report)
  markInboxOutcome .browserCapture command.commandId .rejected
  commit
  return .rejected

/-- The handling of a delivery this consumer claimed for the first time. -/
def handleCommand (lib : Externals) (command : BrowserCaptureCommand) :
    ArchiveTx CommandCaptureError BrowserCaptureIngested := do
  match ← attempt (submitCaptureInTransaction command.request) with
  | .ok submission =>
    recordOperation lib command submission.record.captureId
    markInboxOutcome .browserCapture command.commandId .processed
    commit
    return .preserved submission
  | .error (.invalidUrl _) => rejectCommand lib command
  | .error e => Tx.throw (.capture e)

/-- Persists one validated browser-capture command exactly once. -/
def ingestBrowserCaptureCommand (lib : Externals) (delivery : CommandDelivery) :
    ArchiveTx CommandCaptureError BrowserCaptureIngested := do
  let command ← ofExcept (decodeBrowserCaptureCommand delivery)
  let claimed ← claimInbox .browserCapture command.commandId
  if claimed then handleCommand lib command
  else
    commit
    return .duplicate

/-! ## What a delivery leaves in the database -/

variable {lib : Externals} {env : Env} {db db' : Db}

/-- The queued report of a command's operation. -/
def queuedRow (command : BrowserCaptureCommand) (captureId eventId : Uuid) (occurredAt : Instant) :
    OutboxEvent :=
  reportRow (some captureId) command.userRef command.commandId
    { operationId := command.operationId, body := .queued } eventId occurredAt

/-- The terminal report of a command whose permalink cannot be mapped. -/
def rejectedRow (command : BrowserCaptureCommand) (eventId : Uuid) (occurredAt : Instant) :
    OutboxEvent :=
  reportRow none command.userRef command.commandId
    { operationId := command.operationId, body := .unavailable .inaccessible } eventId occurredAt

theorem claimInbox_yields {ε : Type} [OfSql ε] {consumer : Consumer} {eventId : Uuid} {b : Bool}
    (h : (claimInbox consumer eventId : ArchiveTx ε Bool).Yields env db b db') :
    ((db.inboxEvents.lookup (consumer, eventId)).isSome = true ∧ b = false ∧ db = db') ∨
      ((db.inboxEvents.lookup (consumer, eventId)).isSome = false ∧ b = true ∧
        ∃ t, db.inboxEvents.insert? ⟨consumer, eventId, env.now, .processed⟩ = some t ∧
          db' = { db with inboxEvents := t }) := by
  obtain ⟨consumedAt, _, h1, h⟩ := h.bind
  obtain ⟨rfl, rfl⟩ := h1.now
  rcases h.insertUnless with ⟨hknown, hb, hdb⟩ | ⟨hfresh, hb, -, ht⟩
  · exact Or.inl ⟨hknown, hb, hdb⟩
  · exact Or.inr ⟨hfresh, hb, ht⟩

/-- **What recording an operation does.** The capture is reopened either way; a new
operation also gets its row and its queued report. -/
theorem recordOperation_yields {command : BrowserCaptureCommand} {captureId : Uuid} {u : Unit}
    (h : (recordOperation lib command captureId).Yields env db u db') :
    (operationKnown command.operationId command.commandId db = true ∧
        db' = reopenCapture captureId env.now db) ∨
      (operationKnown command.operationId command.commandId db = false ∧
        ∃ t eventId occurredAt,
          db.captureOperations.insert? (operationRow command captureId env.now) = some t ∧
          Appends (reopenCapture captureId env.now { db with captureOperations := t })
            (queuedRow command captureId eventId occurredAt) db') := by
  obtain ⟨createdAt, _, h1, h⟩ := h.bind
  obtain ⟨rfl, rfl⟩ := h1.now
  obtain ⟨inserted, m, h2, h⟩ := h.bind
  obtain ⟨_, _, h3, h⟩ := h.bind
  obtain rfl := h3.execute
  rcases h2.insertUnless with ⟨hknown, rfl, rfl⟩ | ⟨hfresh, rfl, -, t, ht, rfl⟩
  · exact Or.inl ⟨hknown, (yields_pure.mp h).2.symm⟩
  · obtain ⟨report, _, h4, h⟩ := h.bind
    obtain ⟨hreport, rfl⟩ := h4.ofExcept
    obtain rfl := buildReport_ok (mapError_ok hreport)
    obtain ⟨eventId, _, h5, h⟩ := h.bind
    obtain ⟨-, rfl⟩ := yields_pure.mp h
    obtain ⟨occurredAt, happ⟩ := appendOperationReport_yields h5.mapError
    exact Or.inr ⟨hfresh, t, eventId, occurredAt, ht, happ⟩

/-- **What a rejection does.** One terminal report and the inbox outcome. -/
theorem rejectCommand_yields {command : BrowserCaptureCommand} {out : BrowserCaptureIngested}
    (h : (rejectCommand lib command).Yields env db out db') :
    out = .rejected ∧ ∃ eventId occurredAt m, Appends db (rejectedRow command eventId occurredAt) m ∧
      db' = setInboxOutcome .browserCapture command.commandId .rejected m := by
  obtain ⟨report, _, h1, h⟩ := h.bind
  obtain ⟨hreport, rfl⟩ := h1.ofExcept
  obtain rfl := buildReport_ok (mapError_ok hreport)
  obtain ⟨eventId, m, h2, h⟩ := h.bind
  obtain ⟨occurredAt, happ⟩ := appendOperationReport_yields h2.mapError
  obtain ⟨_, _, h3, h⟩ := h.bind
  obtain rfl := h3.execute
  obtain ⟨_, _, h4, h⟩ := h.bind
  obtain rfl := h4.commit
  obtain ⟨rfl, rfl⟩ := yields_pure.mp h
  exact ⟨rfl, eventId, occurredAt, m, happ, rfl⟩

theorem handleCommand_yields {command : BrowserCaptureCommand} {out : BrowserCaptureIngested}
    (h : (handleCommand lib command).Yields env db out db') :
    (∃ e, canonicalize command.originalPermalink = .error e ∧
        (rejectCommand lib command).Yields env db out db') ∨
      (∃ submission m m', out = .preserved submission ∧
        (submitCaptureInTransaction command.request).Yields env db submission m ∧
        (recordOperation lib command submission.record.captureId).Yields env m () m' ∧
        db' = setInboxOutcome .browserCapture command.commandId .processed m') := by
  obtain ⟨r, m, h1, h⟩ := h.bind
  rcases h1.attempt with ⟨submission, rfl, hs⟩ | ⟨e, rfl, rfl, hf⟩
  · obtain ⟨_, m', h2, h⟩ := h.bind
    obtain ⟨_, _, h3, h⟩ := h.bind
    obtain rfl := h3.execute
    obtain ⟨_, _, h4, h⟩ := h.bind
    obtain rfl := h4.commit
    obtain ⟨rfl, rfl⟩ := yields_pure.mp h
    exact Or.inr ⟨submission, m, m', rfl, hs, h2, rfl⟩
  · cases e with
    | invalidUrl e =>
      have he : canonicalize command.request.url = .error e :=
        submitCaptureInTransaction_invalidUrl hf
      exact Or.inl ⟨e, he, h⟩
    | unsupportedClientSource => exact h.throw.elim
    | unknownCapture => exact h.throw.elim
    | persistence e => exact h.throw.elim

/-- **What a delivery does.** A claimed command is handled; a known one changes
nothing. -/
theorem ingestBrowserCaptureCommand_yields {delivery : CommandDelivery}
    {out : BrowserCaptureIngested}
    (h : (ingestBrowserCaptureCommand lib delivery).Yields env db out db') :
    ∃ command, decodeBrowserCaptureCommand delivery = .ok command ∧
      ((out = .duplicate ∧ db' = db ∧
          (db.inboxEvents.lookup (.browserCapture, command.commandId)).isSome = true) ∨
        ((db.inboxEvents.lookup (.browserCapture, command.commandId)).isSome = false ∧
          ∃ t, db.inboxEvents.insert? ⟨.browserCapture, command.commandId, env.now, .processed⟩ =
              some t ∧
            (handleCommand lib command).Yields env { db with inboxEvents := t } out db')) := by
  obtain ⟨command, _, h1, h⟩ := h.bind
  obtain ⟨hcommand, rfl⟩ := h1.ofExcept
  refine ⟨command, hcommand, ?_⟩
  obtain ⟨claimed, m, h2, h⟩ := h.bind
  rcases claimInbox_yields h2 with ⟨hknown, rfl, rfl⟩ | ⟨hfresh, rfl, t, ht, rfl⟩
  · obtain ⟨_, _, h3, h⟩ := h.bind
    obtain rfl := h3.commit
    obtain ⟨rfl, rfl⟩ := yields_pure.mp h
    exact Or.inl ⟨rfl, rfl, hknown⟩
  · exact Or.inr ⟨hfresh, t, ht, h⟩

end InstagramArchive

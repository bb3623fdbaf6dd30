import InstagramArchive.Erasure
import InstagramArchive.Facts
import InstagramArchive.Relational.Broker

/-!
# The command consumer

`consume_one` hands a delivery to the archive and settles it by the answer: a durable outcome
is acknowledged, a failure of the store is redelivered, an invalid command is terminated. The
broker delivers at least once; between two deliveries every other step of the archive runs,
privacy deletions included.
-/

namespace InstagramArchive

open Relational Relational.Tx Permalink

/-! ## Settlement -/

/-- How `consume_one` settles a delivery. -/
def verdictOf : Except CommandCaptureError BrowserCaptureIngested → Verdict
  | .ok _ => .ack
  | .error (.capture _) | .error (.persistence _) | .error (.report _) => .nak
  | .error _ => .term

/-- What a message's payload holds, if it is an envelope at all. -/
abbrev CommandMessage := Option CommandEnvelope

/-- The consumer names the subject itself: its durable is filtered to that one. -/
def commandDelivery (message : CommandMessage) : CommandDelivery := ⟨captureSubject, message⟩

/-- One delivery, handled in one transaction. -/
def consumeOne (lib : Externals) (env : Env) (s : System) (message : CommandMessage) :
    Verdict × System :=
  (verdictOf ((ingestBrowserCaptureCommand lib (commandDelivery message)).exec env s.db).1,
    step lib s (.command env (commandDelivery message)))

abbrev CommandBroker := Broker System CommandMessage

abbrev CommandAction := BrokerAction Action CommandMessage

/-- One step of the broker, of the consumer, or of the archive. -/
abbrev commandStep (lib : Externals) : CommandBroker → CommandAction → CommandBroker :=
  Broker.step (consumeOne lib) (step lib)

/-- The command a step hands to the archive: a delivery, or one that came without a broker. -/
def CommandAction.ingestion (b : CommandBroker) : CommandAction → Option (Env × CommandDelivery)
  | .deliver env i => (b.openMessage i).map fun message => (env, commandDelivery message)
  | .other (.command env delivery) => some (env, delivery)
  | _ => none

/-- The step of the archive that a step makes, if it makes one. -/
def CommandAction.archive (b : CommandBroker) : CommandAction → Option Action
  | .deliver env i => (b.openMessage i).map fun message => .command env (commandDelivery message)
  | .other a => some a
  | _ => none

/-- The step ingests `command`: its transaction commits and claims the inbox row. -/
def Ingests (lib : Externals) (b : CommandBroker) (a : CommandAction)
    (command : BrowserCaptureCommand) : Prop :=
  ∃ env delivery out, a.ingestion b = some (env, delivery) ∧
    decodeBrowserCaptureCommand delivery = .ok command ∧
    ((ingestBrowserCaptureCommand lib delivery).exec env b.store.db).1 = .ok out ∧
    out ≠ .duplicate

/-- A step of the run ingested `command`. -/
def Ingested (lib : Externals) (actions : List CommandAction) (command : BrowserCaptureCommand) :
    Prop :=
  ∃ before a after, actions = before ++ a :: after ∧
    Ingests lib (run (commandStep lib) { store := {} } before) a command

/-! ## Answers -/

/-- A terminal report in the outbox: its operation, and the aggregate of its row. -/
structure AnswerRow where
  operationId : Uuid
  aggregateType : AggregateType
  aggregateId : Uuid
  deriving DecidableEq

def OutboxEvent.answer? (e : OutboxEvent) : Option AnswerRow :=
  e.report?.bind fun r =>
    if r.body.isTerminal then some ⟨r.operationId, e.aggregateType, e.aggregateId⟩ else none

/-- The terminal reports of the outbox, in append order. -/
def answers (db : Db) : List AnswerRow := db.outboxEvents.rows.filterMap OutboxEvent.answer?

/-- The operation is still to be reported, or its terminal report is in the outbox. -/
def Owed (operationId : Uuid) (db : Db) : Prop :=
  (∃ o ∈ db.captureOperations, o.operationId = operationId ∧ o.reportedAt = none) ∨
    ∃ a ∈ answers db, a.operationId = operationId

/-- The operation waits at the capture: its open row names the capture, or its terminal report
is an outbox row of the capture. -/
def OwedAt (captureId operationId : Uuid) (db : Db) : Prop :=
  (∃ o ∈ db.captureOperations, o.operationId = operationId ∧ o.reportedAt = none ∧
      o.captureId = captureId) ∨
    ⟨operationId, .capture, captureId⟩ ∈ answers db

/-- The transport accepted a terminal report of the operation. -/
def Told (operationId : Uuid) (s : System) : Prop :=
  ∃ row ∈ s.delivered, ∃ r, row.payload.payload = .reported r ∧ r.operationId = operationId ∧
    r.body.isTerminal = true

/-- The deletion commits and takes the capture that the operation waits at, and with it all that
was owed to the operation. -/
structure ErasesOwed (lib : Externals) (env : Env) (request : DeletionRequest) (operationId : Uuid)
    (db : Db) : Prop where
  committed : ∃ result, ((applyDeletion lib request).exec env db).1 = .ok result
  waited : ∃ captureId, request.target = .capture captureId ∧ OwedAt captureId operationId db
  erased : ¬ Owed operationId ((applyDeletion lib request).exec env db).2

/-- Before the operation was told its answer, a deletion erased the capture it waited at. -/
def ErasedUntold (lib : Externals) (actions : List CommandAction) (operationId : Uuid) : Prop :=
  ∃ before env request after,
    actions = before ++ .other (.delete env request) :: after ∧
    ErasesOwed lib env request operationId
      (run (commandStep lib) { store := {} } before).store.db ∧
    ¬ Told operationId (run (commandStep lib) { store := {} } before).store

/-! ## What a deletion does to the answers -/

/-- The deletion ends this aggregate: its own capture, or a media row. -/
def DeletionRequest.Ends (request : DeletionRequest) (aggregateType : AggregateType)
    (aggregateId : Uuid) : Prop :=
  aggregateType = .media ∨ aggregateType = .capture ∧ request.target = .capture aggregateId

section Outbox

variable {lib : Externals} {request : DeletionRequest} {R : Db → Db → Prop} [IsPreorder Db R]
  (hsame : ∀ a b : Db, b.outboxEvents = a.outboxEvents → R a b)
include hsame

theorem scheduleBlobTask_outbox (operationId : Uuid) (blob : StoredBlob) (mediaClass : MediaClass) :
    (scheduleBlobTask operationId blob mediaClass).Respects R :=
  .bind .nowV7 fun _ => .bind (.insertUnless fun _ _ => hsame _ _ rfl) fun _ => .pure _

theorem eraseRaw_outbox (operationId : Uuid) (raws : List RawRecord) :
    (eraseRaw operationId raws).Respects R := by
  induction raws with
  | nil => exact .pure 0
  | cons raw rest ih =>
    refine .bind (.query _) fun retained => ?_
    cases retained with
    | true => exact ih
    | false =>
      refine .bind (.deleteFrom fun _ _ => hsame _ _ rfl) fun _ => ?_
      exact .bind (scheduleBlobTask_outbox hsame _ _ _) fun _ => .bind ih fun _ => .pure _

theorem eraseMedia_outbox (operationId mediaId : Uuid) {clear : Db → Db}
    (hclear : ∀ db, (clear db).outboxEvents = db.outboxEvents) :
    (eraseMedia operationId mediaId clear).Respects R := by
  refine .bind (.query _) fun blob => .bind (.query _) fun raws => ?_
  refine .bind (.execute fun _ => hsame _ _ (hclear _)) fun _ => ?_
  have hrows : (eraseMediaRows mediaId).Respects R := by
    refine .bind (.execute fun _ => hsame _ _ rfl) fun _ => ?_
    exact .bind (.deleteFrom fun _ _ => hsame _ _ rfl) fun _ =>
      .deleteFrom fun _ _ => hsame _ _ rfl
  refine .bind hrows fun _ => ?_
  cases blob with
  | none => exact eraseRaw_outbox hsame _ _
  | some blob =>
    refine .bind (scheduleBlobTask_outbox hsame _ _ _) fun _ => ?_
    exact .bind (eraseRaw_outbox hsame _ _) fun _ => .pure _

theorem insertLocalRemoval_outbox (row : LocalSourceRemoval) :
    (insertLocalRemoval row).Respects R :=
  .bind (.insertUnless fun _ _ => hsame _ _ rfl) fun _ => .pure _

theorem eraseConnectionRaws_outbox (operationId : Uuid) (rawIds : List Uuid) :
    (eraseConnectionRaws operationId rawIds).Respects R := by
  induction rawIds with
  | nil => exact .pure 0
  | cons rawId rest ih =>
    refine .bind (.query _) fun found => ?_
    cases found with
    | none => exact ih
    | some raw =>
      refine .bind (.deleteFrom fun _ _ => hsame _ _ rfl) fun _ => ?_
      exact .bind (scheduleBlobTask_outbox hsame _ _ _) fun _ => .bind ih fun _ => .pure _

theorem eraseSyncRows_outbox (accountId : Uuid) : (eraseSyncRows accountId).Respects R := by
  refine .bind (.execute fun _ => hsame _ _ rfl) fun _ => ?_
  exact .bind (.execute fun _ => hsame _ _ rfl) fun _ => .deleteFrom fun _ _ => hsame _ _ rfl

variable (hremoval : ∀ (a b : Db) aggregateType aggregateId removal eventId,
    Appends a (removalRow aggregateType aggregateId removal eventId) b → R a b)
  (hdrop : ∀ db aggregateType aggregateId, request.Ends aggregateType aggregateId →
    R db (dropAggregateEvents aggregateType aggregateId db))
include hremoval hdrop

theorem endCaptureSource_outbox (capture : Capture)
    (htarget : request.target = .capture capture.captureId) :
    (endCaptureSource lib request capture).Respects R := by
  refine .bind .nowUtc fun removedAt => .bind (.mapError ?_) fun _ => ?_
  · intro env db eventId db' h
    obtain ⟨_, _, -, -, happ⟩ := appendRemovalFact_yields h
    exact hremoval _ _ _ _ _ _ happ
  refine .bind (.execute fun _ => hdrop _ _ _ (Or.inr ⟨rfl, htarget⟩)) fun _ => ?_
  exact insertLocalRemoval_outbox hsame _

theorem applyCaptureRows_outbox {captureId : Uuid} (htarget : request.target = .capture captureId) :
    (applyCaptureRows lib request captureId).Respects R := by
  intro env db n db' h
  obtain ⟨capture, _, h1, h⟩ := h.bind
  obtain ⟨hcapture, rfl⟩ := h1.fetchOne
  obtain rfl := (Table.lookup_eq_some.mp hcapture).2
  refine Tx.Respects.bind (.query _) (fun held => ?_) env _ n db' h
  have herase : (eraseCaptureRows capture.captureId).Respects R :=
    .bind (.execute fun _ => hsame _ _ rfl) fun _ => .deleteFrom fun _ _ => hsame _ _ rfl
  have hmedia : (eraseUnheldMedia request.operationId capture.mediaId).Respects R := by
    cases capture.mediaId with
    | none => exact .pure 0
    | some mediaId =>
      refine .bind (.query _) fun independent => ?_
      cases independent with
      | true => exact .pure 0
      | false => exact eraseMedia_outbox hsame _ _ fun _ => rfl
  cases held with
  | true => exact .bind herase fun _ => hmedia
  | false =>
    exact .bind (endCaptureSource_outbox hsame hremoval hdrop capture htarget) fun _ =>
      .bind herase fun _ => hmedia

theorem endConnectionSource_outbox (m : Media) :
    (endConnectionSource lib request m).Respects R := by
  refine .bind .nowUtc fun removedAt => .bind (.mapError ?_) fun _ => ?_
  · intro env db eventId db' h
    exact hremoval _ _ _ _ _ _ (appendSourceRemovalFact_yields h)
  refine .bind (.execute fun _ => hdrop _ _ _ (Or.inl rfl)) fun _ => ?_
  refine .bind (insertLocalRemoval_outbox hsame _) fun _ => ?_
  exact eraseMedia_outbox hsame _ _ fun _ => rfl

theorem eraseConnectionMedia_outbox (rows : List Media) :
    (eraseConnectionMedia lib request rows).Respects R := by
  induction rows with
  | nil => exact .pure 0
  | cons m rest ih =>
    refine .bind (.query _) fun held => ?_
    cases held with
    | true => exact .bind .now fun _ => .bind (.execute fun _ => hsame _ _ rfl) fun _ => ih
    | false =>
      refine .bind (endConnectionSource_outbox hsame hremoval hdrop m) fun _ => ?_
      exact .bind ih fun _ => .pure _

theorem applyConnectionRows_outbox (accountId : Uuid) :
    (applyConnectionRows lib request accountId).Respects R := by
  refine .bind (.query _) fun rawIds => .bind (.query _) fun rows => ?_
  refine .bind (eraseConnectionMedia_outbox hsame hremoval hdrop rows) fun _ => ?_
  refine .bind (eraseSyncRows_outbox hsame accountId) fun _ => ?_
  refine .bind (.execute fun _ => hsame _ _ rfl) fun _ => ?_
  refine .bind (eraseConnectionRaws_outbox hsame _ rawIds) fun _ => ?_
  exact .bind (.deleteFrom fun _ _ => hsame _ _ rfl) fun _ => .pure _

/-- **Outbox rule of deletions.** What other statements, appended removals and the end of an
aggregate of the target keep, the deletion keeps. -/
theorem applyTargetRows_outbox : (applyTargetRows lib request).Respects R := by
  unfold applyTargetRows
  split
  · rename_i captureId htarget
    exact applyCaptureRows_outbox hsame hremoval hdrop htarget
  · exact applyConnectionRows_outbox hsame hremoval hdrop _

end Outbox

end InstagramArchive

import InstagramArchive.Reference

/-!
# Operation reports

Every operation a command records gets one queued report, and one terminal report when
its capture is concluded. The invariants are about two columns: the reports in the
outbox and the rows of `capture_operations`.
-/

namespace InstagramArchive

open Relational Relational.Tx Permalink

/-! ## The reports of the outbox -/

/-- The report an outbox row carries. -/
def OutboxEvent.report? (e : OutboxEvent) : Option OperationReported :=
  match e.payload.payload with
  | .reported report => some report
  | _ => none

/-- The reports in append order. -/
def reports (db : Db) : List OperationReported := db.outboxEvents.rows.filterMap OutboxEvent.report?

def ReportBody.isTerminal : ReportBody → Bool
  | .queued => false
  | .preserved _ | .unavailable _ => true

/-- The operations with a queued report, in append order. -/
def queuedOperations (db : Db) : List Uuid :=
  ((reports db).filter fun r => !r.body.isTerminal).map OperationReported.operationId

/-- The operations with a terminal report, in append order. -/
def terminalOperations (db : Db) : List Uuid :=
  ((reports db).filter fun r => r.body.isTerminal).map OperationReported.operationId

theorem Conclusion.isTerminal_body (conclusion : Conclusion) :
    conclusion.body.isTerminal = true := by
  cases conclusion <;> rfl

section Reports

variable {lib : Externals} {env : Env} {db db' : Db}

theorem Appends.reports {row : OutboxEvent} (h : Appends db row db') :
    reports db' = reports db ++ row.report?.toList := by
  unfold InstagramArchive.reports
  rw [h.rows, List.filterMap_append]
  cases hr : row.report? with
  | none => simp [hr]
  | some r => simp [hr]

theorem factRow_report? (kind : FactKind) (captureId eventId : Uuid)
    (snapshot : SocialSourceSnapshot) (occurredAt : Instant) :
    (factRow kind captureId snapshot eventId occurredAt).report? = none := by
  cases kind <;> rfl

theorem mediaFactRow_report? (fact : MediaFact) (eventId : Uuid) :
    (mediaFactRow fact eventId).report? = none :=
  factRow_report? fact.kind fact.mediaId eventId fact.snapshot fact.occurredAt

/-- The reports a capture's pending operations get. -/
def conclusionReports (conclusion : Conclusion) (operations : List CaptureOperation) :
    List OperationReported :=
  operations.map fun o => { operationId := o.operationId, body := conclusion.body }

theorem Reports.reports {captureId userRef : Uuid} {conclusion : Conclusion}
    {operations : List CaptureOperation}
    (h : Reports captureId userRef conclusion operations db db') :
    InstagramArchive.reports db' =
      InstagramArchive.reports db ++ conclusionReports conclusion operations := by
  obtain ⟨-, new, hnew, hall⟩ := h
  unfold InstagramArchive.reports
  rw [hnew, List.filterMap_append]
  congr 1
  clear hnew
  induction hall with
  | nil => rfl
  | cons ho _ ih =>
    obtain ⟨eventId, occurredAt, rfl⟩ := ho
    simp only [List.filterMap_cons, ih]
    rfl

/-! ## Calls that report nothing -/

/-- Neither the operations nor the reports change. -/
structure SameReports (db db' : Db) : Prop where
  operations : db'.captureOperations = db.captureOperations
  reports : reports db' = reports db

theorem SameReports.refl (db : Db) : SameReports db db := ⟨rfl, rfl⟩

theorem SameReports.trans {a b c : Db} (h : SameReports a b) (h' : SameReports b c) :
    SameReports a c :=
  ⟨h'.operations.trans h.operations, h'.reports.trans h.reports⟩

theorem Appends.sameReports {row : OutboxEvent} (h : Appends db row db')
    (hrow : row.report? = none) : SameReports db db' := by
  refine ⟨?_, ?_⟩
  · rw [h.eq]
  · rw [h.reports, hrow]
    simp

theorem Publishes.sameReports {kind : FactKind} {captureId : Uuid}
    (h : Publishes lib kind captureId db db') : SameReports db db' := by
  obtain ⟨snapshot, eventId, occurredAt, -, happ⟩ := h
  exact happ.sameReports (factRow_report? ..)

theorem submitCaptureInTransaction_sameReports {request : CaptureRequest}
    {submission : CaptureSubmission}
    (h : (submitCaptureInTransaction request).Yields env db submission db') :
    SameReports db db' := by
  obtain ⟨_, _, -, -, ⟨_, t, -, -, rfl, -⟩ | ⟨_, -, rfl, -⟩⟩ := submitCaptureInTransaction_yields h
  · exact ⟨rfl, rfl⟩
  · exact .refl _

theorem ingestAnalysisCompleted_sameReports {delivery : AnalysisDelivery}
    {out : AnalysisCompletionOutcome}
    (h : (ingestAnalysisCompleted lib delivery).Yields env db out db') : SameReports db db' := by
  obtain ⟨completion, -, ⟨-, rfl, -⟩ | ⟨-, t, -, hh⟩⟩ := ingestAnalysisCompleted_yields h
  · exact .refl _
  · obtain ⟨-, outcome, links, rfl⟩ := handleCompletion_yields hh
    exact ⟨rfl, rfl⟩

theorem storeResolution_sameReports {captureId : Uuid} {permalink : CanonicalPermalink}
    {normalized : NormalizedMedia} {body : String} {resolvedAt : Instant} {stored : StoredResolution}
    (h : (storeResolution lib captureId permalink normalized body resolvedAt).Yields env db
      stored db') : SameReports db db' := by
  obtain ⟨mid, hstores, hfact⟩ := storeResolution_yields h
  have hmid : SameReports db mid := by
    rw [hstores.frame]
    exact ⟨rfl, rfl⟩
  split at hfact
  · exact hmid.trans hfact.sameReports
  · rw [hfact]
    exact hmid

theorem recordFailedResolution_sameReports {captureId : Uuid}
    {observed : AvailabilityObservationKind} {resolvedAt : Instant} {out : ResolutionOutcome}
    (h : (recordFailedResolution lib captureId observed resolvedAt).Yields env db out db') :
    SameReports db db' := by
  obtain ⟨observations, mid, rfl, ⟨mediaId, -, -, hfact⟩ | ⟨-, rfl⟩⟩ :=
    recordFailedResolution_yields h
  · have hq := hfact.sameReports
    exact ⟨hq.operations, hq.reports⟩
  · exact ⟨rfl, rfl⟩

theorem writeUnavailable_sameReports {captureId : Uuid} {observed : AvailabilityObservationKind}
    {observedAt : Instant} {currentStatus status : CaptureStatus}
    (h : (writeUnavailable captureId observed observedAt currentStatus).Yields env db status db') :
    SameReports db db' := by
  obtain ⟨m, t, rfl, rfl⟩ := writeUnavailable_yields h
  split
  · exact ⟨rfl, rfl⟩
  · exact ⟨rfl, rfl⟩

theorem tombstoneCapture_sameReports {captureId : Uuid} {reason : RemovalReason}
    {removedAt : Instant} {out : TombstoneOutcome}
    (h : (tombstoneCapture lib captureId reason removedAt).Yields env db out db') :
    SameReports db db' := by
  obtain ⟨capture, -, ⟨-, rfl, -⟩ | ⟨-, permalink, eventId, deletions, removals, m, -, -, happ, rfl⟩⟩ :=
    tombstoneCapture_yields h
  · exact .refl _
  · have hm := happ.sameReports rfl
    exact ⟨hm.operations, hm.reports⟩

/-- A rewrite of the outbox that keeps the payloads keeps the reports. -/
theorem updateOutbox_sameReports {p : OutboxEvent → Bool} {f : OutboxEvent → OutboxEvent}
    {hf : ∀ e, (f e).eventId = e.eventId} (h : ∀ e, (f e).payload = e.payload) :
    SameReports db (updateOutbox p f hf db) := by
  refine ⟨rfl, ?_⟩
  unfold InstagramArchive.reports updateOutbox
  rw [Table.rows_update, List.filterMap_map]
  congr 1
  funext e
  by_cases hp : p e
  · simp [hp, OutboxEvent.report?, h]
  · simp [hp]

theorem Booking.payload {now : Instant} {resend : ResendPolicy} {eventId : Uuid}
    {p : OutboxEvent → Bool} {f : OutboxEvent → OutboxEvent}
    (h : Booking now resend eventId p f) (e : OutboxEvent) :
    (f e).payload = e.payload := by
  cases h <;> rfl

/-- The calls that write operations or reports. -/
def Call.Reporting : Call → Prop
  | .command _ | .claim .. | .report .. | .delete _ => True
  | _ => False

theorem Effect.sameReports {call : Call} (h : Effect lib env db call db') (hc : ¬ call.Reporting) :
    SameReports db db' := by
  cases h with
  | idle => exact .refl _
  | submit h => exact submitCaptureInTransaction_sameReports h
  | command h => exact (hc trivial).elim
  | analysis h => exact ingestAnalysisCompleted_sameReports h
  | claim h => exact (hc trivial).elim
  | reschedule => exact ⟨rfl, rfl⟩
  | store hcall hn h => exact storeResolution_sameReports h
  | fail hcall ho h => exact recordFailedResolution_sameReports h
  | unmapped h => exact recordFailedResolution_sameReports h
  | report h => exact (hc trivial).elim
  | unavailable h => exact writeUnavailable_sameReports h
  | tombstone h => exact tombstoneCapture_sameReports h
  | mediaFact h => exact h.sameReports (mediaFactRow_report? _ _)
  | book h => exact updateOutbox_sameReports h.payload
  | acknowledge => exact updateOutbox_sameReports fun _ => rfl
  | delete h => exact (hc trivial).elim

/-! ## Calls that report -/

/-- What a delivery does to the operations and the reports. -/
inductive CommandReports (command : BrowserCaptureCommand) (db db' : Db) : Prop
  | same (h : SameReports db db')
  | rejected (e : PermalinkError) (he : canonicalize command.originalPermalink = .error e)
      (hfresh : (db.inboxEvents.lookup (.browserCapture, command.commandId)).isSome = false)
      (hops : db'.captureOperations = db.captureOperations)
      (hreports : reports db' =
        reports db ++ [⟨command.operationId, .unavailable .inaccessible⟩])
  | queued (captureId : Uuid) (createdAt : Instant) (permalink : CanonicalPermalink)
      (hp : canonicalize command.originalPermalink = .ok permalink)
      (hfresh : (db.inboxEvents.lookup (.browserCapture, command.commandId)).isSome = false)
      (hnew : operationKnown command.operationId command.commandId db = false)
      (hops : db'.captureOperations.rows =
        db.captureOperations.rows ++ [operationRow command captureId createdAt])
      (hreports : reports db' = reports db ++ [⟨command.operationId, .queued⟩])

theorem ingestBrowserCaptureCommand_reports {delivery : CommandDelivery}
    {out : BrowserCaptureIngested}
    (h : (ingestBrowserCaptureCommand lib delivery).Yields env db out db') :
    ∃ command, decodeBrowserCaptureCommand delivery = .ok command ∧
      CommandReports command db db' := by
  obtain ⟨command, hcommand, ⟨-, rfl, -⟩ | ⟨hfresh, t, -, hh⟩⟩ :=
    ingestBrowserCaptureCommand_yields h
  · exact ⟨command, hcommand, .same (.refl _)⟩
  refine ⟨command, hcommand, ?_⟩
  rcases handleCommand_yields hh with ⟨e, he, hr⟩ | ⟨submission, m, m', -, hs, hrec, rfl⟩
  · obtain ⟨-, eventId, occurredAt, m, happ, rfl⟩ := rejectCommand_yields hr
    refine .rejected e he hfresh ?_ happ.reports
    change m.captureOperations = _
    rw [happ.eq]
  · obtain ⟨permalink, -, hp, -⟩ := submitCaptureInTransaction_yields hs
    have hsame := submitCaptureInTransaction_sameReports hs
    have hops : m.captureOperations = db.captureOperations := hsame.operations
    have hreports : reports m = reports db := hsame.reports
    rcases recordOperation_yields hrec with ⟨-, rfl⟩ | ⟨hnew, ops, eventId, occurredAt, ht, happ⟩
    · exact .same ⟨hops, hreports⟩
    · have hnew : operationKnown command.operationId command.commandId db = false := by
        rw [← hnew]
        unfold operationKnown
        rw [hops]
      refine .queued submission.record.captureId env.now permalink hp hfresh hnew ?_ ?_
      · change m'.captureOperations.rows = _
        rw [happ.eq, ← hops]
        exact (Table.insert?_eq_some ht).1
      · have hm' := happ.reports
        rw [← hreports]
        exact hm'

/-- What reporting a capture does to the operations and the reports. -/
inductive PendingReports (lib : Externals) (captureId : Uuid) (now : Instant) (db db' : Db) : Prop
  | accepted (h : db' = db)
  | concluded (c : Capture) (conclusion : Conclusion) (hc : c ∈ db.captures)
      (hid : c.captureId = captureId) (hconclusion : conclusionOf lib c db = some conclusion)
      (hframe : db' = { markReported captureId now db with outboxEvents := db'.outboxEvents })
      (hreports : reports db' =
        reports db ++ conclusionReports conclusion (pendingOperations captureId db))

theorem reportPending_reports {captureId : Uuid} {now : Instant} {n : Nat}
    (h : (reportPending lib captureId now).Yields env db n db') :
    PendingReports lib captureId now db db' := by
  obtain ⟨c, hc, ⟨-, rfl⟩ | ⟨conclusion, hconclusion, hr⟩⟩ := reportPending_yields h
  · exact .accepted rfl
  · obtain ⟨hmem, hid⟩ := Table.lookup_eq_some.mp hc
    exact .concluded c conclusion hmem hid hconclusion hr.1 hr.reports

theorem leaseCapture_sameReports (captureId : Uuid) (deadline : Instant) (db : Db) :
    SameReports db (leaseCapture captureId deadline db) := ⟨rfl, rfl⟩

/-- **Report rule.** What unchanged reports, a report of pending operations and this
call's command keep, the call keeps. -/
theorem Effect.reportRule {call : Call} (he : Effect lib env db call db') (P : Db → Prop)
    (hsame : ∀ m m', SameReports m m' → P m → P m')
    (hpending : ∀ m m' captureId now, PendingReports lib captureId now m m' → P m → P m')
    (hcommand : ∀ delivery command, call = .command delivery →
      decodeBrowserCaptureCommand delivery = .ok command → CommandReports command db db' → P db')
    (hdelete : ∀ request, call ≠ .delete request) (h : P db) : P db' := by
  by_cases hr : call.Reporting
  · cases he with
    | idle => exact h
    | command hc =>
      obtain ⟨command, hdecoded, hr⟩ := ingestBrowserCaptureCommand_reports hc
      exact hcommand _ command rfl hdecoded hr
    | claim hc =>
      exact claimEach_invariant P (fun _ _ _ h => hsame _ _ (leaseCapture_sameReports ..) h)
        (fun _ _ _ _ hr h => hpending _ _ _ _ (reportPending_reports hr) h) hc h
    | report hr => exact hpending _ _ _ _ (reportPending_reports hr) h
    | delete hd => exact (hdelete _ rfl).elim
    | store hcall | fail hcall =>
      cases call <;> first | exact hr.elim | exact hcall.elim
    | _ => exact hr.elim
  · exact hsame _ _ (he.sameReports hr) h

/-! ## Counting reports -/

theorem queuedOperations_append {new : List OperationReported}
    (h : reports db' = reports db ++ new) :
    queuedOperations db' = queuedOperations db ++
      (new.filter fun r => !r.body.isTerminal).map OperationReported.operationId := by
  unfold queuedOperations
  rw [h, List.filter_append, List.map_append]

theorem terminalOperations_append {new : List OperationReported}
    (h : reports db' = reports db ++ new) :
    terminalOperations db' = terminalOperations db ++
      (new.filter fun r => r.body.isTerminal).map OperationReported.operationId := by
  unfold terminalOperations
  rw [h, List.filter_append, List.map_append]

theorem SameReports.queuedOperations (h : SameReports db db') :
    queuedOperations db' = queuedOperations db := by
  unfold InstagramArchive.queuedOperations
  rw [h.reports]

theorem SameReports.terminalOperations (h : SameReports db db') :
    terminalOperations db' = terminalOperations db := by
  unfold InstagramArchive.terminalOperations
  rw [h.reports]

theorem conclusionReports_terminal (conclusion : Conclusion) (operations : List CaptureOperation) :
    ((conclusionReports conclusion operations).filter fun r => r.body.isTerminal).map
      OperationReported.operationId = operations.map CaptureOperation.operationId := by
  induction operations with
  | nil => rfl
  | cons o rest ih =>
    simpa [conclusionReports, conclusion.isTerminal_body] using ih

theorem conclusionReports_queued (conclusion : Conclusion) (operations : List CaptureOperation) :
    (conclusionReports conclusion operations).filter (fun r => !r.body.isTerminal) = [] := by
  simp [conclusionReports, conclusion.isTerminal_body]

/-- The rows with a terminal report are the reported ones. -/
def reportedOperations (db : Db) : List CaptureOperation :=
  db.captureOperations.rows.filter fun o => o.reportedAt.isSome

theorem markReported_operationIds (captureId : Uuid) (now : Instant) (db : Db) :
    (markReported captureId now db).captureOperations.rows.map CaptureOperation.operationId =
      db.captureOperations.rows.map CaptureOperation.operationId :=
  Table.map_update _ _ _ _ fun _ _ => rfl

theorem reportedOperations_markReported (captureId : Uuid) (now : Instant) (db : Db) :
    ((reportedOperations (markReported captureId now db)).map CaptureOperation.operationId).Perm
      ((reportedOperations db).map CaptureOperation.operationId ++
        (pendingOperations captureId db).map CaptureOperation.operationId) := by
  have h := Table.filter_update_perm db.captureOperations.rows
    (fun o => o.captureId = captureId && o.reportedAt.isNone) (fun o => o.reportedAt.isSome)
    (fun o => { o with reportedAt := some now }) (by simp) (by simp)
  have hmap := h.map CaptureOperation.operationId
  rw [List.map_append, List.map_map] at hmap
  exact hmap

/-! ## Every report is accounted for -/

/-- Queued reports are the operations, terminal reports the reported ones. -/
structure Accounted (db : Db) : Prop where
  queued : queuedOperations db = db.captureOperations.rows.map CaptureOperation.operationId
  terminal : (terminalOperations db).Perm
    ((reportedOperations db).map CaptureOperation.operationId)

theorem Accounted.same (h : Accounted db) (hs : SameReports db db') : Accounted db' := by
  refine ⟨?_, ?_⟩
  · rw [hs.queuedOperations, hs.operations, h.queued]
  · rw [hs.terminalOperations]
    unfold reportedOperations
    rw [hs.operations]
    exact h.terminal

theorem Accounted.command {command : BrowserCaptureCommand} (h : Accounted db)
    (hc : CommandReports command db db')
    (hmap : ∃ permalink, canonicalize command.originalPermalink = .ok permalink) :
    Accounted db' := by
  cases hc with
  | same hs => exact h.same hs
  | rejected e he hfresh hops hreports =>
    obtain ⟨permalink, hp⟩ := hmap
    rw [hp] at he
    cases he
  | queued captureId createdAt permalink hp hfresh hnew hops hreports =>
    refine ⟨?_, ?_⟩
    · rw [queuedOperations_append hreports, hops, List.map_append, h.queued]
      rfl
    · rw [terminalOperations_append hreports]
      have ht := h.terminal
      unfold reportedOperations at ht ⊢
      rw [hops, List.filter_append]
      simpa [operationRow, ReportBody.isTerminal] using ht

theorem Accounted.pending {captureId : Uuid} {now : Instant} (h : Accounted db)
    (hp : PendingReports lib captureId now db db') : Accounted db' := by
  cases hp with
  | accepted he => exact he ▸ h
  | concluded c conclusion hc hid hconclusion hframe hreports =>
    have hops : db'.captureOperations = (markReported captureId now db).captureOperations := by
      rw [hframe]
    refine ⟨?_, ?_⟩
    · rw [queuedOperations_append hreports, conclusionReports_queued, hops,
        markReported_operationIds, h.queued]
      simp
    · rw [terminalOperations_append hreports, conclusionReports_terminal]
      have hr : reportedOperations db' = reportedOperations (markReported captureId now db) := by
        unfold reportedOperations
        rw [hops]
      rw [hr]
      exact (h.terminal.append_right _).trans (reportedOperations_markReported ..).symm

/-- A command that names a permalink this service can map, if it decodes at all. -/
def CommandDelivery.Mappable (delivery : CommandDelivery) : Prop :=
  ∀ command, decodeBrowserCaptureCommand delivery = .ok command →
    ∃ permalink, canonicalize command.originalPermalink = .ok permalink

/-- The calls whose reports are accounted for. -/
def Call.Mappable : Call → Prop
  | .command delivery => delivery.Mappable
  | .delete _ => False
  | _ => True

theorem Accounted.effect {call : Call} (h : Accounted db) (he : Effect lib env db call db')
    (hcall : call.Mappable) : Accounted db' := by
  refine he.reportRule Accounted (fun _ _ hs h => h.same hs) (fun _ _ _ _ hp h => h.pending hp)
    ?_ ?_ h
  · rintro delivery command rfl hdecoded hr
    exact h.command hr (hcall command hdecoded)
  · rintro request rfl
    exact hcall

/-! ## Where a terminal report comes from -/

/-- The database concludes `r`: its operation is unreported and belongs to a capture whose
stored state gives this report. -/
def Concludes (lib : Externals) (db : Db) (r : OperationReported) : Prop :=
  ∃ o ∈ db.captureOperations, ∃ c ∈ db.captures, o.operationId = r.operationId ∧
    o.captureId = c.captureId ∧ o.reportedAt = none ∧
    (conclusionOf lib c db).map Conclusion.body = some r.body

/-- Every terminal report of `db'` is one of `db` or one that `db` concludes. -/
def ReportsFrom (lib : Externals) (db db' : Db) : Prop :=
  ∀ r ∈ reports db', r.body.isTerminal = true → r ∈ reports db ∨ Concludes lib db r

theorem SameReports.reportsFrom (h : SameReports db db') : ReportsFrom lib db db' := by
  intro r hr _
  rw [h.reports] at hr
  exact Or.inl hr

theorem CommandReports.reportsFrom {command : BrowserCaptureCommand}
    (hc : CommandReports command db db')
    (hmap : ∃ permalink, canonicalize command.originalPermalink = .ok permalink) :
    ReportsFrom lib db db' := by
  cases hc with
  | same hs => exact hs.reportsFrom
  | rejected e he hfresh hops hreports =>
    obtain ⟨permalink, hp⟩ := hmap
    rw [hp] at he
    cases he
  | queued captureId createdAt permalink hp hfresh hnew hops hreports =>
    intro r hr ht
    rw [hreports] at hr
    rcases List.mem_append.mp hr with hr | hr
    · exact Or.inl hr
    · rw [List.mem_singleton.mp hr] at ht
      cases ht

/-- Two rows that conclude alike. -/
structure Capture.ConcludesLike (c₀ c : Capture) : Prop where
  captureId : c₀.captureId = c.captureId
  userRef : c₀.userRef = c.userRef
  canonicalUrl : c₀.canonicalUrl = c.canonicalUrl
  status : c₀.status = c.status

theorem conclusionOf_congr {c₀ c : Capture} {m : Db} (h : c₀.ConcludesLike c)
    (ho : m.availabilityObservations = db.availabilityObservations) :
    conclusionOf lib c m = conclusionOf lib c₀ db := by
  unfold conclusionOf latestUnavailability
  rw [h.captureId, h.userRef, h.canonicalUrl, h.status, ho]

/-- What a claim has changed since it began. -/
structure Claimed (lib : Externals) (db m : Db) : Prop where
  observations : m.availabilityObservations = db.availabilityObservations
  unreported : ∀ o ∈ m.captureOperations, o.reportedAt = none → o ∈ db.captureOperations
  captures : ∀ c ∈ m.captures, ∃ c₀ ∈ db.captures, c₀.ConcludesLike c
  reports : ReportsFrom lib db m

theorem Claimed.refl (lib : Externals) (db : Db) : Claimed lib db db :=
  ⟨rfl, fun _ ho _ => ho, fun c hc => ⟨c, hc, rfl, rfl, rfl, rfl⟩, fun _ hr _ => Or.inl hr⟩

theorem Claimed.lease {m : Db} (h : Claimed lib db m) (captureId : Uuid) (deadline : Instant) :
    Claimed lib db (leaseCapture captureId deadline m) := by
  refine ⟨h.observations, h.unreported, ?_, h.reports⟩
  intro c hc
  obtain ⟨c', hc', rfl⟩ := Table.exists_of_mem_update hc
  obtain ⟨c₀, hc₀, hlike⟩ := h.captures c' hc'
  refine ⟨c₀, hc₀, ?_⟩
  split
  · exact ⟨hlike.captureId, hlike.userRef, hlike.canonicalUrl, hlike.status⟩
  · exact hlike

theorem Claimed.pending {m m' : Db} {captureId : Uuid} {now : Instant} (h : Claimed lib db m)
    (hp : PendingReports lib captureId now m m') : Claimed lib db m' := by
  cases hp with
  | accepted he => exact he ▸ h
  | concluded c conclusion hc hid hconclusion hframe hreports =>
    rw [hframe]
    refine ⟨h.observations, ?_, h.captures, ?_⟩
    · intro o ho hnone
      obtain ⟨o', ho', rfl⟩ := Table.exists_of_mem_update ho
      split at hnone
      · cases hnone
      · rename_i hp
        rw [if_neg hp]
        exact h.unreported o' ho' hnone
    · intro r hr ht
      rw [← hframe, hreports] at hr
      rcases List.mem_append.mp hr with hr | hr
      · exact h.reports r hr ht
      · right
        obtain ⟨o, ho, rfl⟩ := List.mem_map.mp hr
        simp only [pendingOperations, List.mem_filter, Bool.and_eq_true, decide_eq_true_eq,
          Option.isNone_iff_eq_none] at ho
        obtain ⟨c₀, hc₀, hlike⟩ := h.captures c hc
        refine ⟨o, h.unreported o ho.1 ho.2.2, c₀, hc₀, rfl, ?_, ho.2.2, ?_⟩
        · rw [ho.2.1, hlike.captureId, hid]
        · rw [← conclusionOf_congr hlike h.observations, hconclusion]
          rfl

theorem Effect.reportsFrom {call : Call} (he : Effect lib env db call db')
    (hcall : call.Mappable) : ReportsFrom lib db db' := by
  by_cases hr : call.Reporting
  · cases he with
    | idle => exact (SameReports.refl _).reportsFrom
    | command hc =>
      obtain ⟨command, hcommand, hr⟩ := ingestBrowserCaptureCommand_reports hc
      exact hr.reportsFrom (hcall command hcommand)
    | claim hc =>
      exact (claimEach_invariant (Claimed lib db) (fun _ _ _ h => h.lease _ _)
        (fun _ _ _ _ hr h => h.pending (reportPending_reports hr)) hc (.refl lib db)).reports
    | report hr => exact ((Claimed.refl lib db).pending (reportPending_reports hr)).reports
    | delete hd => exact hcall.elim
    | store hcall' | fail hcall' =>
      cases call <;> first | exact hr.elim | exact hcall'.elim
    | _ => exact hr.elim
  · exact (he.sameReports hr).reportsFrom

end Reports

/-! ## Whole runs -/

section Runs

variable {lib : Externals} {s : System} {a : Action}

/-- Commands name mappable permalinks and nothing is deleted. -/
def Action.Mappable : Action → Prop
  | .command _ delivery => delivery.Mappable
  | .delete .. => False
  | _ => True

theorem System.call_mappable {env : Env} {call : Call} (h : s.call a = some (env, call))
    (ha : a.Mappable) : call.Mappable := by
  cases a with
  | command env delivery => cases h; exact ha
  | delete => exact ha.elim
  | submit | analysis | claim | tombstone | mediaFact | acknowledge => cases h; trivial
  | beginFetch | beginUnavailable | beginPass | deliver | resendDue => cases h
  | resolve env i outcome =>
    obtain ⟨w, -, h⟩ := Option.bind_eq_some_iff.mp h
    obtain ⟨lease, -, h⟩ := Option.map_eq_some_iff.mp h
    cases h
    trivial
  | report env i =>
    obtain ⟨w, -, h⟩ := Option.bind_eq_some_iff.mp h
    obtain ⟨captureId, -, h⟩ := Option.map_eq_some_iff.mp h
    cases h
    trivial
  | applyFetch env i outcome =>
    obtain ⟨f, -, h⟩ := Option.map_eq_some_iff.mp h
    cases h
    trivial
  | finishUnavailable env i =>
    obtain ⟨o, -, h⟩ := Option.map_eq_some_iff.mp h
    cases h
    trivial
  | book env i =>
    obtain ⟨p, -, h⟩ := Option.map_eq_some_iff.mp h
    cases h
    trivial

theorem Accounted.step (h : Accounted s.db) (ha : a.Mappable) :
    Accounted (step lib s a).db := by
  rcases step_effect lib s a with ⟨-, he⟩ | ⟨env, call, hc, he⟩
  · rw [he]
    exact h
  · exact h.effect he (System.call_mappable hc ha)

theorem accounted_initial : Accounted ({} : System).db := ⟨rfl, List.Perm.refl _⟩

theorem accounted_run {actions : List Action} (ha : ∀ a ∈ actions, a.Mappable) :
    Accounted (run (step lib) {} actions).db :=
  run_invariant (step lib) (fun _ a => a.Mappable) (fun s => Accounted s.db)
    (fun _ _ ha h => h.step ha) (guarded_of_forall (step lib) ha) accounted_initial

/-- The step of a run that appended a terminal report, and what it concluded from. -/
theorem terminal_report_origin {actions : List Action} (ha : ∀ a ∈ actions, a.Mappable)
    {r : OperationReported} (hr : r ∈ reports (run (step lib) {} actions).db)
    (ht : r.body.isTerminal = true) :
    ∃ before a after, actions = before ++ a :: after ∧
      ¬ r ∈ reports (run (step lib) {} before).db ∧
      r ∈ reports (step lib (run (step lib) {} before) a).db ∧
      Concludes lib (run (step lib) {} before).db r := by
  obtain ⟨before, a, after, rfl, hb, hin⟩ :=
    run_first_occurrence (step lib) (fun s => r ∈ reports s.db) (by simp [reports]) hr
  refine ⟨before, a, after, rfl, hb, hin, ?_⟩
  rcases step_effect lib (run (step lib) {} before) a with ⟨-, he⟩ | ⟨env, call, hc, he⟩
  · rw [he] at hin
    exact (hb hin).elim
  · exact (he.reportsFrom (System.call_mappable hc (ha a (by simp))) r hin ht).resolve_left hb

theorem conclusionOf_preserved_iff {c : Capture} {db : Db} {body : ReportBody}
    (h : (conclusionOf lib c db).map Conclusion.body = some body) :
    (∃ source, body = .preserved source) ↔ c.status = .resolved := by
  unfold conclusionOf at h
  cases hs : c.status with
  | resolved =>
    rw [hs] at h
    cases h
    simp [Conclusion.body]
  | accepted => rw [hs] at h; cases h
  | unavailable | failed | tombstoned =>
    rw [hs] at h
    cases h
    simp [Conclusion.body]

theorem reportedOperations_nodup (db : Db) :
    ((reportedOperations db).map CaptureOperation.operationId).Nodup :=
  db.captureOperations.nodup.sublist (List.filter_sublist.map _)

theorem count_eq_one_iff {l : List Uuid} (h : l.Nodup) (x : Uuid) : l.count x = 1 ↔ x ∈ l := by
  constructor
  · intro hc
    apply List.count_pos_iff.mp
    omega
  · exact List.count_eq_one_of_mem h

/-- **Exactly-once reporting.** After every run of the archive without unmappable
commands and deletions an operation has one queued report exactly when it has a row, at
most one terminal report, and one exactly when its row is reported. The terminal report
was appended by one step of the run, for an operation of a capture that was `resolved`
before that step exactly when the report is the preserved one. -/
theorem reports_exactly_once (lib : Externals) (actions : List Action)
    (ha : ∀ a ∈ actions, a.Mappable) (operationId : Uuid) :
    let s := run (step lib) {} actions
    ((queuedOperations s.db).count operationId ≤ 1 ∧
      ((queuedOperations s.db).count operationId = 1 ↔
        ∃ o ∈ s.db.captureOperations, o.operationId = operationId)) ∧
    (terminalOperations s.db).count operationId ≤ 1 ∧
    ((terminalOperations s.db).count operationId = 1 ↔
      ∃ o ∈ s.db.captureOperations, o.operationId = operationId ∧ o.reportedAt.isSome = true) ∧
    ∀ r ∈ reports s.db, r.operationId = operationId → r.body.isTerminal = true →
      ∃ before a after, actions = before ++ a :: after ∧
        ¬ r ∈ reports (run (step lib) {} before).db ∧
        r ∈ reports (step lib (run (step lib) {} before) a).db ∧
        ∃ o ∈ (run (step lib) {} before).db.captureOperations,
          ∃ c ∈ (run (step lib) {} before).db.captures,
            o.operationId = operationId ∧ o.captureId = c.captureId ∧ o.reportedAt = none ∧
              ((∃ source, r.body = .preserved source) ↔ c.status = .resolved) := by
  intro s
  have h : Accounted s.db := accounted_run ha
  refine ⟨?_, ?_, ?_, ?_⟩
  · rw [h.queued, count_eq_one_iff s.db.captureOperations.nodup]
    refine ⟨List.nodup_iff_count_le_one.mp s.db.captureOperations.nodup operationId, ?_⟩
    exact List.mem_map
  · rw [h.terminal.count_eq]
    exact List.nodup_iff_count_le_one.mp (reportedOperations_nodup s.db) operationId
  · rw [h.terminal.count_eq, count_eq_one_iff (reportedOperations_nodup s.db)]
    simp only [reportedOperations, List.mem_map, List.mem_filter]
    constructor
    · rintro ⟨o, ⟨ho, hrep⟩, hid⟩
      exact ⟨o, ho, hid, hrep⟩
    · rintro ⟨o, ho, hid, hrep⟩
      exact ⟨o, ⟨ho, hrep⟩, hid⟩
  · intro r hr hid ht
    obtain ⟨before, a, after, hsplit, hnew, hin, o, ho, c, hc, hoid, hoc, hnone, hbody⟩ :=
      terminal_report_origin ha hr ht
    exact ⟨before, a, after, hsplit, hnew, hin, o, ho, c, hc, hoid.trans hid, hoc, hnone,
      conclusionOf_preserved_iff hbody⟩

theorem browserDelivery_mappable {owner commandId operationId : Uuid} {url : String}
    (h : (canonicalize url).toOption.isSome = true) :
    (browserDelivery owner commandId operationId url).Mappable := by
  intro command hcommand
  cases hcommand
  cases hc : canonicalize url with
  | ok permalink => exact ⟨permalink, rfl⟩
  | error e => rw [hc] at h; cases h

/-- One command that is claimed, resolved and reported. -/
def preservedRun : List Action :=
  [.command (quietEnv 10 100) (browserDelivery 1 2 7 "http://instagr.am/p/A"),
    .claim (quietEnv 20 200) 20 ⟨3, 10⟩ [],
    .resolve (quietEnv 30 300) 0 (titledPayload "Kept"),
    .report (quietEnv 40 400) 0]

theorem preservedRun_mappable : ∀ a ∈ preservedRun, a.Mappable := by
  simp only [preservedRun, List.forall_mem_cons, List.not_mem_nil, false_imp_iff, implies_true,
    and_true, Action.Mappable]
  exact browserDelivery_mappable (by decide +kernel)

theorem reports_exactly_once_preservedRun :
    (queuedOperations (run (step reference) {} preservedRun).db).count 7 = 1 ∧
      (terminalOperations (run (step reference) {} preservedRun).db).count 7 = 1 ∧
      ∃ o ∈ (run (step reference) {} preservedRun).db.captureOperations,
        o.operationId = 7 ∧ o.reportedAt.isSome = true := by
  have h := reports_exactly_once reference preservedRun preservedRun_mappable 7
  have hone : (terminalOperations (run (step reference) {} preservedRun).db).count 7 = 1 := by
    decide +kernel
  exact ⟨by decide +kernel, hone, h.2.2.1.mp hone⟩

end Runs

end InstagramArchive

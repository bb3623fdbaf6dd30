import InstagramArchive.CommandConsumer
import InstagramArchive.Inbox

/-!
# Every ingested command is answered

An operation a command brings is open or reported as long as its capture is kept: nothing but
a deletion of that capture takes an open operation or a terminal report away, and a delivery is
acknowledged only once its command is in the archive.
-/

namespace InstagramArchive

open Relational Relational.Tx Permalink

/-! ## Calls that answer nothing -/

/-- Neither the operations nor the terminal reports nor the inbox change. -/
structure Quiet (db db' : Db) : Prop where
  operations : db'.captureOperations = db.captureOperations
  answers : answers db' = answers db
  commands : ∀ id, (.browserCapture, id) ∈ inboxKeys db' ↔ (.browserCapture, id) ∈ inboxKeys db

section Effects

variable {lib : Externals} {env : Env} {db db' : Db} {operationId captureId : Uuid}

theorem answers_eq_log (db : Db) : answers db = (outboxLog db).filterMap OutboxEvent.answer? := by
  unfold answers outboxLog
  rw [List.filterMap_map]
  rfl

theorem reports_eq_log (db : Db) : reports db = (outboxLog db).filterMap OutboxEvent.report? := by
  unfold reports outboxLog
  rw [List.filterMap_map]
  rfl

theorem Appends.answers {row : OutboxEvent} (h : Appends db row db') :
    answers db' = answers db ++ row.answer?.toList := by
  unfold InstagramArchive.answers
  rw [h.rows, List.filterMap_append]
  cases hr : row.answer? with
  | none => simp [hr]
  | some a => simp [hr]

/-- A call that reports nothing leaves the terminal reports alone. -/
theorem answers_of_sameReports {new : List OutboxEvent} (hlog : outboxLog db' = outboxLog db ++ new)
    (hsame : SameReports db db') : answers db' = answers db := by
  have hnone : new.filterMap OutboxEvent.report? = [] := by
    have hreports := hsame.reports
    rw [reports_eq_log, reports_eq_log, hlog, List.filterMap_append] at hreports
    exact List.append_right_eq_self.mp hreports
  have hanswers : new.filterMap OutboxEvent.answer? = [] := by
    rw [List.filterMap_eq_nil_iff] at hnone ⊢
    intro e he
    simp [OutboxEvent.answer?, hnone e he]
  rw [answers_eq_log, answers_eq_log, hlog, List.filterMap_append, hanswers, List.append_nil]

theorem LogChange.log {call : Call} (h : LogChange lib db call db') :
    ∃ new, outboxLog db' = outboxLog db ++ new := by
  cases h with
  | silent new hlog => exact ⟨new, hlog⟩
  | mediaFact eventId hlog => exact ⟨_, hlog⟩
  | stored _ _ _ _ _ _ _ _ _ _ _ _ _ _ _ hlog => exact ⟨_, hlog⟩
  | deleted _ _ _ _ _ _ _ _ _ _ _ _ _ hlog => exact ⟨_, hlog⟩

theorem Publishes.inboxKeys {kind : FactKind} (h : Publishes lib kind captureId db db') :
    inboxKeys db' = inboxKeys db := by
  obtain ⟨_, _, _, -, happ⟩ := h
  exact happ.inboxKeys

theorem recordFailedResolution_inboxKeys {observed : AvailabilityObservationKind}
    {resolvedAt : Instant} {out : ResolutionOutcome}
    (h : (recordFailedResolution lib captureId observed resolvedAt).Yields env db out db') :
    inboxKeys db' = inboxKeys db := by
  obtain ⟨observations, mid, rfl, ⟨mediaId, -, -, hfact⟩ | ⟨-, rfl⟩⟩ :=
    recordFailedResolution_yields h
  · exact hfact.inboxKeys
  · rfl

theorem reportPending_inboxKeys {now : Instant} {n : Nat}
    (h : (reportPending lib captureId now).Yields env db n db') :
    inboxKeys db' = inboxKeys db := by
  obtain ⟨c, -, ⟨-, rfl⟩ | ⟨conclusion, -, hr⟩⟩ := reportPending_yields h
  · rfl
  · rw [hr.1]
    rfl

theorem Erasure.inboxKeys {request : DeletionRequest} (h : Erasure lib request db db') :
    inboxKeys db' = inboxKeys db := by
  cases h with
  | removal h => exact h.inboxKeys
  | _ => rfl

theorem applyDeletion_inboxKeys {request : DeletionRequest} {result : DeletionResult}
    (h : (applyDeletion lib request).Yields env db result db') :
    inboxKeys db' = inboxKeys db := by
  rcases applyDeletion_yields h with ⟨-, rfl⟩ | ⟨-, -, -, hdeletes⟩
  · rfl
  · have hpreorder : IsPreorder Db fun a b => inboxKeys b = inboxKeys a :=
      { refl := fun _ => rfl, trans := fun _ _ _ h h' => h'.trans h }
    exact Deletes.rel hdeletes (fun _ _ _ => rfl) fun _ _ herasure => herasure.inboxKeys

/-- **Only commands claim keys of the command consumer.** -/
theorem Effect.commandKeys {call : Call} (h : Effect lib env db call db')
    (hcommand : ∀ delivery, call ≠ .command delivery) (id : Uuid) :
    (.browserCapture, id) ∈ inboxKeys db' ↔ (.browserCapture, id) ∈ inboxKeys db := by
  cases h with
  | idle => exact Iff.rfl
  | submit h => rw [submitCaptureInTransaction_inboxKeys h]
  | command h => exact (hcommand _ rfl).elim
  | analysis h =>
    obtain ⟨completion, -, ⟨-, rfl, -⟩ | ⟨-, t, ht, hh⟩⟩ := ingestAnalysisCompleted_yields h
    · exact Iff.rfl
    · obtain ⟨-, outcome, links, rfl⟩ := handleCompletion_yields hh
      have hkeys := inboxKeys_insert ht
      rw [inboxKeys_setInboxOutcome]
      change _ ∈ inboxKeys { db with inboxEvents := t } ↔ _
      rw [hkeys]
      simp [InboxEvent.key]
  | claim h =>
    have hkeys := claimEach_invariant (fun m => inboxKeys m = inboxKeys db) (fun _ _ _ hm => hm)
      (fun _ _ _ _ hr hm => (reportPending_inboxKeys hr).trans hm) h rfl
    rw [hkeys]
  | reschedule => exact Iff.rfl
  | store hcall hn h =>
    obtain ⟨mid, hstores, hfact⟩ := storeResolution_yields h
    have hmid : inboxKeys mid = inboxKeys db := by
      rw [hstores.frame]
      rfl
    split at hfact
    · rw [hfact.inboxKeys, hmid]
    · rw [hfact, hmid]
  | fail hcall ho h => rw [recordFailedResolution_inboxKeys h]
  | unmapped h => rw [recordFailedResolution_inboxKeys h]
  | report h => rw [reportPending_inboxKeys h]
  | unavailable h =>
    obtain ⟨m, t, rfl, rfl⟩ := writeUnavailable_yields h
    split
    · exact Iff.rfl
    · exact Iff.rfl
  | tombstone h =>
    obtain ⟨c, -, ⟨-, rfl, -⟩ | ⟨-, permalink, eventId, deletions, removals, m, -, -, happ, rfl⟩⟩ :=
      tombstoneCapture_yields h
    · exact Iff.rfl
    · have hm := happ.inboxKeys
      change _ ∈ inboxKeys m ↔ _
      rw [hm]
      exact Iff.rfl
  | mediaFact h => rw [h.inboxKeys]
  | book h => exact Iff.rfl
  | acknowledge => exact Iff.rfl
  | delete h => rw [applyDeletion_inboxKeys h]

/-- **Answer rule.** What quiet calls, a report of pending operations, this call's command and
this call's deletion keep, the call keeps. -/
theorem Effect.answerRule {call : Call} (he : Effect lib env db call db') (P : Db → Prop)
    (hquiet : ∀ m m', Quiet m m' → P m → P m')
    (hpending : ∀ m m' captureId now n,
      (reportPending lib captureId now).Yields env m n m' → P m → P m')
    (hcommand : ∀ delivery out, call = .command delivery →
      (ingestBrowserCaptureCommand lib delivery).Yields env db out db' → P db')
    (hdelete : ∀ request result, call = .delete request →
      (applyDeletion lib request).Yields env db result db' → P db') (h : P db) : P db' := by
  by_cases hr : call.Reporting
  · cases he with
    | idle => exact h
    | command hc => exact hcommand _ _ rfl hc
    | claim hc =>
      refine claimEach_invariant P (fun m c deadline hm => hquiet m _ ?_ hm)
        (fun _ _ _ _ hr hm => hpending _ _ _ _ _ hr hm) hc h
      exact ⟨rfl, rfl, fun _ => Iff.rfl⟩
    | report hr => exact hpending _ _ _ _ _ hr h
    | delete hd => exact hdelete _ _ rfl hd
    | store hcall | fail hcall =>
      cases call <;> first | exact hr.elim | exact hcall.elim
    | _ => exact hr.elim
  · have hsame := he.sameReports hr
    have hnodelete : ∀ request, call ≠ .delete request := by
      rintro request rfl
      exact hr trivial
    have hnocommand : ∀ delivery, call ≠ .command delivery := by
      rintro delivery rfl
      exact hr trivial
    obtain ⟨new, hlog⟩ := (he.logChange hnodelete).log
    exact hquiet db db' ⟨hsame.operations, answers_of_sameReports hlog hsame,
      he.commandKeys hnocommand⟩ h

/-! ## What keeps an answer -/

/-- What a capture owes to an operation it owes on, and no terminal report goes. -/
structure AnswersGrow (db db' : Db) : Prop where
  owed : ∀ captureId operationId, OwedAt captureId operationId db → OwedAt captureId operationId db'
  kept : ∀ a ∈ answers db, a ∈ answers db'

/-- Every operation is owed to at its capture, its command is in the inbox, and no report is a
row of a media aggregate. -/
structure AnswersKept (db : Db) : Prop where
  placed : ∀ a ∈ answers db, a.aggregateType ≠ .media
  operations : ∀ o ∈ db.captureOperations, OwedAt o.captureId o.operationId db
  commands : ∀ o ∈ db.captureOperations, (.browserCapture, o.commandId) ∈ inboxKeys db

theorem AnswersGrow.refl (db : Db) : AnswersGrow db db := ⟨fun _ _ h => h, fun _ h => h⟩

theorem OwedAt.owed (h : OwedAt captureId operationId db) : Owed operationId db := by
  rcases h with ⟨o, ho, hid, hnone, -⟩ | ha
  · exact Or.inl ⟨o, ho, hid, hnone⟩
  · exact Or.inr ⟨_, ha, rfl⟩

theorem AnswersGrow.owedStill (h : AnswersGrow db db') (ho : Owed operationId db) :
    Owed operationId db' := by
  rcases ho with ⟨o, ho, hid, hnone⟩ | ⟨a, ha, hid⟩
  · exact (h.owed o.captureId operationId (Or.inl ⟨o, ho, hid, hnone, rfl⟩)).owed
  · exact Or.inr ⟨a, h.kept a ha, hid⟩

theorem AnswersGrow.of_tables {new : List AnswerRow}
    (hops : ∀ o ∈ db.captureOperations, o ∈ db'.captureOperations)
    (hanswers : answers db' = answers db ++ new) : AnswersGrow db db' := by
  have hkept : ∀ a ∈ answers db, a ∈ answers db' := by
    intro a ha
    rw [hanswers]
    exact List.mem_append_left new ha
  refine ⟨?_, hkept⟩
  rintro c id (⟨o, ho, hrest⟩ | ha)
  · exact Or.inl ⟨o, hops o ho, hrest⟩
  · exact Or.inr (hkept _ ha)

theorem Quiet.grow (h : Quiet db db') : AnswersGrow db db' := by
  refine .of_tables ?_ (h.answers.trans (List.append_nil _).symm)
  intro o ho
  rw [h.operations]
  exact ho

/-- What new answers and new operations have to bring along. -/
theorem AnswersKept.next (h : AnswersKept db) (hgrow : AnswersGrow db db')
    (hplaced : ∀ a ∈ answers db', a ∈ answers db ∨ a.aggregateType ≠ .media)
    (hkeys : ∀ id, (.browserCapture, id) ∈ inboxKeys db → (.browserCapture, id) ∈ inboxKeys db')
    (hops : ∀ o ∈ db'.captureOperations, o ∈ db.captureOperations ∨
      OwedAt o.captureId o.operationId db' ∧ (.browserCapture, o.commandId) ∈ inboxKeys db') :
    AnswersKept db' := by
  refine ⟨?_, ?_, ?_⟩
  · intro a ha
    exact (hplaced a ha).elim (h.placed a) id
  · intro o ho
    rcases hops o ho with ho | ⟨howed, -⟩
    · exact hgrow.owed _ _ (h.operations o ho)
    · exact howed
  · intro o ho
    rcases hops o ho with ho | ⟨-, hkey⟩
    · exact hkeys _ (h.commands o ho)
    · exact hkey

theorem AnswersKept.quiet (h : AnswersKept db) (hq : Quiet db db') : AnswersKept db' := by
  refine h.next hq.grow ?_ (fun id hid => (hq.commands id).mpr hid) ?_
  · intro a ha
    rw [hq.answers] at ha
    exact Or.inl ha
  · intro o ho
    rw [hq.operations] at ho
    exact Or.inl ho

/-! ## Reports of pending operations -/

theorem Reports.answers {userRef : Uuid} {conclusion : Conclusion}
    {operations : List CaptureOperation}
    (h : Reports captureId userRef conclusion operations db db') :
    InstagramArchive.answers db' = InstagramArchive.answers db ++
      operations.map fun o => ⟨o.operationId, .capture, captureId⟩ := by
  obtain ⟨-, new, hnew, hall⟩ := h
  unfold InstagramArchive.answers
  rw [hnew, List.filterMap_append]
  congr 1
  clear hnew
  induction hall with
  | nil => rfl
  | cons ho _ ih =>
    obtain ⟨eventId, occurredAt, rfl⟩ := ho
    have hrow : ∀ o, (terminalRow captureId userRef conclusion o eventId occurredAt).answer? =
        some ⟨o.operationId, .capture, captureId⟩ := by
      intro o
      cases conclusion <;> rfl
    rw [List.filterMap_cons_some (hrow _), ih, List.map_cons]

/-- What a report of the pending operations of a capture does to operations and answers. -/
theorem reportPending_answers {now : Instant} {n : Nat}
    (h : (reportPending lib captureId now).Yields env db n db') :
    db' = db ∨ db'.captureOperations = (markReported captureId now db).captureOperations ∧
      answers db' = answers db ++
        (pendingOperations captureId db).map fun o => ⟨o.operationId, .capture, captureId⟩ := by
  obtain ⟨c, -, ⟨-, rfl⟩ | ⟨conclusion, -, hr⟩⟩ := reportPending_yields h
  · exact Or.inl rfl
  · refine Or.inr ⟨?_, hr.answers⟩
    rw [hr.1]

theorem mem_markReported {now : Instant} {o : CaptureOperation}
    (h : o ∈ (markReported captureId now db).captureOperations) :
    o ∈ db.captureOperations ∨ o.captureId = captureId ∧
      ∃ old ∈ pendingOperations captureId db, old.operationId = o.operationId ∧
        old.commandId = o.commandId := by
  obtain ⟨old, hold, rfl⟩ := Table.exists_of_mem_update h
  split
  · rename_i hp
    simp only [Bool.and_eq_true, decide_eq_true_eq] at hp
    refine Or.inr ⟨hp.1, old, ?_, rfl, rfl⟩
    simp [pendingOperations, hp, Table.mem_rows.mp hold]
  · exact Or.inl hold

theorem reportPending_grow {now : Instant} {n : Nat}
    (h : (reportPending lib captureId now).Yields env db n db') : AnswersGrow db db' := by
  rcases reportPending_answers h with rfl | ⟨hops, hanswers⟩
  · exact .refl _
  have hkept : ∀ a ∈ answers db, a ∈ answers db' := by
    intro a ha
    rw [hanswers]
    exact List.mem_append_left _ ha
  refine ⟨?_, hkept⟩
  rintro c id (⟨o, ho, rfl, hnone, rfl⟩ | ha)
  · by_cases hc : o.captureId = captureId
    · -- the open row is flipped, and its report enters the outbox
      right
      have hpending : o ∈ pendingOperations captureId db := by
        simp [pendingOperations, hc, hnone, Table.mem_rows.mp ho]
      rw [hanswers, hc]
      exact List.mem_append_right _ (List.mem_map_of_mem hpending)
    · left
      refine ⟨o, ?_, rfl, hnone, rfl⟩
      rw [hops, markReported, Table.mem_update_iff]
      exact Or.inl ⟨ho, by simp [hc]⟩
  · exact Or.inr (hkept _ ha)

theorem AnswersKept.reported {now : Instant} {n : Nat} (h : AnswersKept db)
    (hr : (reportPending lib captureId now).Yields env db n db') : AnswersKept db' := by
  have hgrow := reportPending_grow hr
  have hinbox := reportPending_inboxKeys hr
  rcases reportPending_answers hr with rfl | ⟨hops, hanswers⟩
  · exact h
  refine h.next hgrow ?_ (fun id hid => hinbox ▸ hid) ?_
  · intro a ha
    rw [hanswers] at ha
    rcases List.mem_append.mp ha with ha | ha
    · exact Or.inl ha
    · obtain ⟨o, -, rfl⟩ := List.mem_map.mp ha
      exact Or.inr nofun
  · intro o ho
    rw [hops] at ho
    rcases mem_markReported ho with ho | ⟨rfl, old, hold, hid, hcommand⟩
    · exact Or.inl ho
    · refine Or.inr ⟨Or.inr ?_, ?_⟩
      · rw [hanswers, ← hid]
        exact List.mem_append_right _ (List.mem_map_of_mem hold)
      · rw [hinbox, ← hcommand]
        exact h.commands old (List.mem_filter.mp hold).1

/-! ## Commands -/

/-- What handling a fresh command leaves: its rejection, its operation, or an operation the
archive knew. -/
inductive CommandAnswers (command : BrowserCaptureCommand) (db db' : Db) : Prop
  | rejected (hops : db'.captureOperations = db.captureOperations)
      (hanswers : answers db' =
        answers db ++ [⟨command.operationId, .operation, command.operationId⟩])
  | known (hops : db'.captureOperations = db.captureOperations) (hanswers : answers db' = answers db)
      (hknown : operationKnown command.operationId command.commandId db = true)
  | queued (captureId : Uuid) (createdAt : Instant)
      (hops : db'.captureOperations.rows =
        db.captureOperations.rows ++ [operationRow command captureId createdAt])
      (hanswers : answers db' = answers db)

theorem handleCommand_answers {command : BrowserCaptureCommand} {out : BrowserCaptureIngested}
    (h : (handleCommand lib command).Yields env db out db') : CommandAnswers command db db' := by
  rcases handleCommand_yields h with ⟨e, -, hr⟩ | ⟨submission, m, m', -, hs, hrec, rfl⟩
  · obtain ⟨-, eventId, occurredAt, m, happ, rfl⟩ := rejectCommand_yields hr
    refine .rejected ?_ happ.answers
    change m.captureOperations = _
    rw [happ.eq]
  · obtain ⟨hops, houtbox⟩ : m.captureOperations = db.captureOperations ∧
        m.outboxEvents = db.outboxEvents := by
      obtain ⟨_, _, -, -, ⟨_, u, -, -, rfl, -⟩ | ⟨_, -, rfl, -⟩⟩ :=
        submitCaptureInTransaction_yields hs
      · exact ⟨rfl, rfl⟩
      · exact ⟨rfl, rfl⟩
    have hanswers : answers m = answers db := by
      unfold answers
      rw [houtbox]
    rcases recordOperation_yields hrec with ⟨hknown, rfl⟩ | ⟨-, ops, eventId, occurredAt, ht, happ⟩
    · refine .known hops hanswers ?_
      unfold operationKnown at hknown ⊢
      rwa [hops] at hknown
    · refine .queued submission.record.captureId env.now ?_ ?_
      · change m'.captureOperations.rows = _
        rw [happ.eq, ← hops]
        exact (Table.insert?_eq_some ht).1
      · exact (happ.answers.trans (List.append_nil _)).trans hanswers

theorem CommandAnswers.grow {command : BrowserCaptureCommand} (h : CommandAnswers command db db') :
    AnswersGrow db db' := by
  cases h with
  | rejected hops hanswers => exact .of_tables (fun o ho => hops ▸ ho) hanswers
  | known hops hanswers _ =>
    exact .of_tables (fun o ho => hops ▸ ho) (hanswers.trans (List.append_nil _).symm)
  | queued c createdAt hops hanswers =>
    refine .of_tables (fun o ho => ?_) (hanswers.trans (List.append_nil _).symm)
    rw [Table.mem_rows, hops]
    exact List.mem_append_left _ ho

theorem CommandAnswers.kept {command : BrowserCaptureCommand} (hc : CommandAnswers command db db')
    (h : AnswersKept db)
    (hkeys : inboxKeys db' = inboxKeys db ++ [(.browserCapture, command.commandId)]) :
    AnswersKept db' := by
  have hold : ∀ id, (.browserCapture, id) ∈ inboxKeys db →
      (.browserCapture, id) ∈ inboxKeys db' := by
    intro id hid
    rw [hkeys]
    exact List.mem_append_left _ hid
  refine h.next hc.grow ?_ hold ?_
  · intro a ha
    cases hc with
    | rejected hops hanswers =>
      rw [hanswers] at ha
      rcases List.mem_append.mp ha with ha | ha
      · exact Or.inl ha
      · rw [List.mem_singleton.mp ha]
        exact Or.inr nofun
    | known hops hanswers _ => exact Or.inl (hanswers ▸ ha)
    | queued c createdAt hops hanswers => exact Or.inl (hanswers ▸ ha)
  · intro o ho
    cases hc with
    | rejected hops hanswers => exact Or.inl (hops ▸ ho)
    | known hops hanswers _ => exact Or.inl (hops ▸ ho)
    | queued c createdAt hops hanswers =>
      have hrow := ho
      rw [Table.mem_rows, hops] at ho
      rcases List.mem_append.mp ho with ho | ho
      · exact Or.inl ho
      · obtain rfl := List.mem_singleton.mp ho
        refine Or.inr ⟨Or.inl ⟨_, hrow, rfl, rfl, rfl⟩, ?_⟩
        rw [hkeys]
        exact List.mem_append_right _ (List.mem_singleton.mpr rfl)

/-- A fresh command is owed its answer. -/
theorem CommandAnswers.owed {command : BrowserCaptureCommand} (hc : CommandAnswers command db db')
    (h : AnswersKept db) (hfresh : ¬ (.browserCapture, command.commandId) ∈ inboxKeys db) :
    Owed command.operationId db' := by
  have hgrow := hc.grow
  cases hc with
  | rejected hops hanswers =>
    right
    refine ⟨⟨command.operationId, .operation, command.operationId⟩, ?_, rfl⟩
    rw [hanswers]
    exact List.mem_append_right _ (List.mem_singleton.mpr rfl)
  | queued c createdAt hops hanswers =>
    left
    refine ⟨operationRow command c createdAt, ?_, rfl, rfl⟩
    rw [Table.mem_rows, hops]
    exact List.mem_append_right _ (List.mem_singleton.mpr rfl)
  | known hops hanswers hk =>
    obtain ⟨o, ho, hmatch⟩ := List.any_eq_true.mp hk
    simp only [Bool.or_eq_true, decide_eq_true_eq] at hmatch
    rcases hmatch with hid | hid
    · rw [← hid]
      exact (hgrow.owed _ _ (h.operations o ho)).owed
    · -- a row of this command would have claimed the inbox before
      exact (hfresh (hid ▸ h.commands o ho)).elim

/-- What an ingestion that committed has done. -/
theorem ingestBrowserCaptureCommand_answers {delivery : CommandDelivery}
    {out : BrowserCaptureIngested}
    (hy : (ingestBrowserCaptureCommand lib delivery).Yields env db out db') :
    ∃ command, decodeBrowserCaptureCommand delivery = .ok command ∧
      (out = .duplicate ∧ (.browserCapture, command.commandId) ∈ inboxKeys db ∧ db' = db ∨
        out ≠ .duplicate ∧ ¬ (.browserCapture, command.commandId) ∈ inboxKeys db ∧
        inboxKeys db' = inboxKeys db ++ [(.browserCapture, command.commandId)] ∧
        CommandAnswers command db db') := by
  obtain ⟨command, hcommand, ⟨rfl, rfl, hknown⟩ | ⟨hfresh, t, ht, hh⟩⟩ :=
    ingestBrowserCaptureCommand_yields hy
  · exact ⟨command, hcommand, Or.inl ⟨rfl, lookup_inbox_isSome.mp hknown, rfl⟩⟩
  refine ⟨command, hcommand, Or.inr ⟨handleCommand_ne_duplicate hh, ?_, ?_, ?_⟩⟩
  · rw [← lookup_inbox_isSome, hfresh]
    simp
  · rw [handleCommand_inboxKeys hh, inboxKeys_insert ht]
    rfl
  · cases handleCommand_answers hh with
    | rejected hops ha => exact .rejected hops ha
    | known hops ha hk => exact .known hops ha hk
    | queued c createdAt hops ha => exact .queued c createdAt hops ha

/-! ## Deletions -/

/-- What a deletion spares, and what it leaves. -/
structure AnswersSpared (request : DeletionRequest) (db db' : Db) : Prop where
  kept : ∀ a ∈ answers db, a ∈ answers db' ∨ request.Ends a.aggregateType a.aggregateId
  origin : ∀ a ∈ answers db', a ∈ answers db

instance (request : DeletionRequest) : IsPreorder Db (AnswersSpared request) where
  refl _ := ⟨fun _ h => Or.inl h, fun _ h => h⟩
  trans _ _ _ h h' := by
    refine ⟨fun a ha => ?_, fun a ha => h.origin a (h'.origin a ha)⟩
    rcases h.kept a ha with ha | hends
    · exact h'.kept a ha
    · exact Or.inr hends

theorem AnswersSpared.of_eq {request : DeletionRequest} (h : db'.outboxEvents = db.outboxEvents) :
    AnswersSpared request db db' := by
  have heq : answers db' = answers db := by
    unfold answers
    rw [h]
  exact ⟨fun a ha => Or.inl (heq ▸ ha), fun a ha => heq ▸ ha⟩

theorem dropAggregateEvents_spares {request : DeletionRequest} {aggregateType : AggregateType}
    {aggregateId : Uuid} (hends : request.Ends aggregateType aggregateId) :
    AnswersSpared request db (dropAggregateEvents aggregateType aggregateId db) := by
  have hrow : ∀ e a, OutboxEvent.answer? e = some a →
      a.aggregateType = e.aggregateType ∧ a.aggregateId = e.aggregateId := by
    intro e a ha
    obtain ⟨r, -, ha⟩ := Option.bind_eq_some_iff.mp ha
    split at ha
    · cases ha
      exact ⟨rfl, rfl⟩
    · cases ha
  constructor
  · intro a ha
    obtain ⟨e, he, hanswer⟩ := List.mem_filterMap.mp ha
    obtain ⟨htype, hid⟩ := hrow e a hanswer
    by_cases hmatch : e.aggregateType = aggregateType ∧ e.aggregateId = aggregateId
    · right
      rw [htype, hid, hmatch.1, hmatch.2]
      exact hends
    · left
      refine List.mem_filterMap.mpr ⟨e, List.mem_filter.mpr ⟨he, ?_⟩, hanswer⟩
      have hother := not_and_or.mp hmatch
      simp [hother]
  · intro a ha
    obtain ⟨e, he, hanswer⟩ := List.mem_filterMap.mp ha
    exact List.mem_filterMap.mpr ⟨e, (List.mem_filter.mp he).1, hanswer⟩

theorem applyTargetRows_spares {request : DeletionRequest} {n : Nat}
    (h : (applyTargetRows lib request).Yields env db n db') : AnswersSpared request db db' := by
  refine applyTargetRows_outbox (fun _ _ hsame => .of_eq hsame) ?_
    (fun _ _ _ hends => dropAggregateEvents_spares hends) env db n db' h
  intro a b aggregateType aggregateId removal eventId happ
  have heq : answers b = answers a := happ.answers.trans (List.append_nil _)
  exact ⟨fun x hx => Or.inl (heq ▸ hx), fun x hx => heq ▸ hx⟩

/-- A statement of a deletion takes operations of its own capture only. -/
theorem Erasure.operations {request : DeletionRequest} (h : Erasure lib request db db') :
    (∀ o ∈ db'.captureOperations, o ∈ db.captureOperations) ∧
      ∀ o ∈ db.captureOperations, o ∈ db'.captureOperations ∨
        request.target = .capture o.captureId := by
  cases h with
  | removal h =>
    rw [h.eq]
    exact ⟨fun o ho => ho, fun o ho => Or.inl ho⟩
  | clearCapture captureId htarget =>
    refine ⟨fun o ho => (List.mem_filter.mp ho).1, fun o ho => ?_⟩
    by_cases hid : o.captureId = captureId
    · exact Or.inr (hid ▸ htarget)
    · exact Or.inl (List.mem_filter.mpr ⟨ho, by simp [hid]⟩)
  | _ => exact ⟨fun o ho => ho, fun o ho => Or.inl ho⟩

theorem Erases.operations {request : DeletionRequest} (h : Erases lib request db db') :
    (∀ o ∈ db'.captureOperations, o ∈ db.captureOperations) ∧
      ∀ o ∈ db.captureOperations, o ∈ db'.captureOperations ∨
        request.target = .capture o.captureId := by
  induction h with
  | refl => exact ⟨fun o ho => ho, fun o ho => Or.inl ho⟩
  | tail _ hlast ih =>
    obtain ⟨horigin, hkept⟩ := hlast.operations
    refine ⟨fun o ho => ih.1 o (horigin o ho), fun o ho => ?_⟩
    rcases ih.2 o ho with ho | htarget
    · exact hkept o ho
    · exact Or.inr htarget

theorem eraseCaptureRows_operations {u : Unit}
    (h : (eraseCaptureRows captureId).Yields env db u db') :
    ∀ o ∈ db'.captureOperations, o.captureId ≠ captureId := by
  obtain ⟨_, _, h1, h⟩ := h.bind
  obtain rfl := h1.execute
  obtain ⟨-, rfl⟩ := h.deleteFrom
  intro o ho
  simpa using (List.mem_filter.mp ho).2

/-- A deletion takes all operations of its capture, and no others. -/
theorem applyTargetRows_operations {request : DeletionRequest} {n : Nat}
    (h : (applyTargetRows lib request).Yields env db n db') :
    (∀ o ∈ db'.captureOperations,
      o ∈ db.captureOperations ∧ request.target ≠ .capture o.captureId) ∧
      ∀ o ∈ db.captureOperations, o ∈ db'.captureOperations ∨
        request.target = .capture o.captureId := by
  obtain ⟨horigin, hkept⟩ := Erases.operations (applyTargetRows_erases env db n db' h)
  refine ⟨fun o ho => ⟨horigin o ho, ?_⟩, hkept⟩
  unfold applyTargetRows at h
  split at h
  · rename_i captureId htarget
    rw [htarget]
    rintro heq
    obtain ⟨capture, _, h1, h⟩ := h.bind
    obtain ⟨hcapture, rfl⟩ := h1.fetchOne
    obtain ⟨held, _, h2, h⟩ := h.bind
    have hgone : ∀ m, (eraseCaptureRows captureId >>= fun _ =>
        eraseUnheldMedia request.operationId capture.mediaId).Yields env m n db' → False := by
      intro m h
      obtain ⟨_, m', h1, h⟩ := h.bind
      have herased : Erases lib request m' db' := eraseUnheldMedia_erases _ env m' n db' h
      have hm' := herased.operations.1 o ho
      exact eraseCaptureRows_operations h1 o hm' (DeletionTarget.capture.inj heq).symm
    cases held with
    | true => exact hgone _ h
    | false =>
      obtain ⟨_, m, -, h⟩ := Yields.bind h
      exact hgone m h
  · rename_i accountId htarget
    rw [htarget]
    rintro heq
    cases heq

/-- A deletion of another capture leaves what a capture owes. -/
theorem OwedAt.spared {request : DeletionRequest} {n : Nat}
    (h : (applyTargetRows lib request).Yields env db n db')
    (hother : request.target ≠ .capture captureId) (howed : OwedAt captureId operationId db) :
    OwedAt captureId operationId db' := by
  rcases howed with ⟨o, ho, hid, hnone, rfl⟩ | ha
  · rcases (applyTargetRows_operations h).2 o ho with ho | htarget
    · exact Or.inl ⟨o, ho, hid, hnone, rfl⟩
    · exact (hother htarget).elim
  · rcases (applyTargetRows_spares h).kept _ ha with ha | hmedia | ⟨-, htarget⟩
    · exact Or.inr ha
    · cases hmedia
    · exact (hother htarget).elim

/-- **What a deletion takes** are answers that waited at its own capture. -/
theorem Owed.spared {request : DeletionRequest} {n : Nat} (hkept : AnswersKept db)
    (h : (applyTargetRows lib request).Yields env db n db') (howed : Owed operationId db) :
    Owed operationId db' ∨
      ∃ captureId, request.target = .capture captureId ∧ OwedAt captureId operationId db := by
  rcases howed with ⟨o, ho, hid, hnone⟩ | ⟨a, ha, rfl⟩
  · rcases (applyTargetRows_operations h).2 o ho with ho' | htarget
    · exact Or.inl (Or.inl ⟨o, ho', hid, hnone⟩)
    · exact Or.inr ⟨o.captureId, htarget, Or.inl ⟨o, ho, hid, hnone, rfl⟩⟩
  · rcases (applyTargetRows_spares h).kept a ha with ha' | hmedia | ⟨hcapture, htarget⟩
    · exact Or.inl (Or.inr ⟨a, ha', rfl⟩)
    · exact (hkept.placed a ha hmedia).elim
    · refine Or.inr ⟨a.aggregateId, htarget, Or.inr ?_⟩
      rw [← hcapture]
      exact ha

theorem AnswersKept.spared {request : DeletionRequest} {n : Nat} (hkept : AnswersKept db)
    (h : (applyTargetRows lib request).Yields env db n db')
    (hkeys : inboxKeys db' = inboxKeys db) : AnswersKept db' := by
  refine ⟨fun a ha => hkept.placed a ((applyTargetRows_spares h).origin a ha), ?_, ?_⟩
  · intro o ho
    obtain ⟨hold, hother⟩ := (applyTargetRows_operations h).1 o ho
    exact (hkept.operations o hold).spared h hother
  · intro o ho
    rw [hkeys]
    exact hkept.commands o ((applyTargetRows_operations h).1 o ho).1

/-- The call deletes the capture the operation waits at. -/
def Call.Erases (call : Call) (operationId : Uuid) (db : Db) : Prop :=
  ∃ request captureId, call = .delete request ∧ request.target = .capture captureId ∧
    OwedAt captureId operationId db

/-- **What a call does to the answers**, unless it is a command. -/
theorem Effect.answersKept {call : Call} (he : Effect lib env db call db')
    (hcommand : ∀ delivery, call ≠ .command delivery) (h : AnswersKept db) :
    AnswersKept db' ∧
      ∀ operationId, Owed operationId db → Owed operationId db' ∨ call.Erases operationId db := by
  refine he.answerRule (fun m => AnswersKept m ∧
    ∀ operationId, Owed operationId db → Owed operationId m ∨ call.Erases operationId db)
    ?_ ?_ ?_ ?_ ⟨h, fun _ ho => Or.inl ho⟩
  · intro m m' hq hm
    exact ⟨hm.1.quiet hq, fun id ho => (hm.2 id ho).imp_left hq.grow.owedStill⟩
  · intro m m' captureId now n hr hm
    exact ⟨hm.1.reported hr, fun id ho => (hm.2 id ho).imp_left (reportPending_grow hr).owedStill⟩
  · intro delivery out hcall
    exact (hcommand delivery hcall).elim
  · rintro request result rfl hd
    have hkeys := applyDeletion_inboxKeys hd
    rcases applyDeletion_yields hd with
      ⟨-, rfl⟩ | ⟨-, -, -, operations, effects, mid, pending, -, ht, rfl⟩
    · exact ⟨h, fun _ ho => Or.inl ho⟩
    · have hstored : AnswersKept
          { db with deletionOperations := operations, deletionEffects := effects } :=
        ⟨h.placed, h.operations, h.commands⟩
      have hmid := hstored.spared ht hkeys
      refine ⟨⟨hmid.placed, hmid.operations, hmid.commands⟩, fun id ho => ?_⟩
      rcases Owed.spared hstored ht ho with ho | ⟨captureId, htarget, howed⟩
      · exact Or.inl ho
      · exact Or.inr ⟨request, captureId, rfl, htarget, howed⟩

/-- **What an ingestion does to the answers.** -/
theorem AnswersKept.ingested {delivery : CommandDelivery} {out : BrowserCaptureIngested}
    (h : AnswersKept db) (hy : (ingestBrowserCaptureCommand lib delivery).Yields env db out db') :
    AnswersKept db' ∧ AnswersGrow db db' ∧
      ∀ command, decodeBrowserCaptureCommand delivery = .ok command → out ≠ .duplicate →
        Owed command.operationId db' := by
  obtain ⟨command, hcommand, ⟨rfl, -, rfl⟩ | ⟨-, hfresh, hkeys, hc⟩⟩ :=
    ingestBrowserCaptureCommand_answers hy
  · exact ⟨h, .refl _, fun _ _ hne => (hne rfl).elim⟩
  · refine ⟨hc.kept h hkeys, hc.grow, fun command' hcommand' _ => ?_⟩
    rw [hcommand] at hcommand'
    obtain rfl := Except.ok.inj hcommand'
    exact hc.owed h hfresh

end Effects

/-! ## Steps -/

section Steps

variable {lib : Externals} {b : CommandBroker} {a : CommandAction} {actions : List CommandAction}
  {operationId : Uuid} {command : BrowserCaptureCommand}

theorem step_delivered (lib : Externals) (s : System) (a : Action) :
    ∃ rows, (step lib s a).delivered = s.delivered ++ rows := by
  have hsame : s.delivered = s.delivered ++ [] := (List.append_nil _).symm
  cases a with
  | deliver i answer =>
    simp only [step]
    split
    · exact ⟨[], hsame⟩
    · rename_i row pass hp
      cases answer.toBool with
      | true => exact ⟨[row], rfl⟩
      | false => exact ⟨[], hsame⟩
  | submit | command | analysis | tombstone | mediaFact | acknowledge | delete => exact ⟨[], hsame⟩
  | claim | beginFetch | applyFetch | beginUnavailable | finishUnavailable | beginPass | book
    | resendDue =>
    simp only [step]
    split
    · exact ⟨[], hsame⟩
    · exact ⟨[], hsame⟩
  | resolve | report =>
    simp only [step]
    split
    · exact ⟨[], hsame⟩
    · split
      · exact ⟨[], hsame⟩
      · exact ⟨[], hsame⟩

theorem commandStep_store (lib : Externals) (b : CommandBroker) (a : CommandAction) :
    (commandStep lib b a).store = (a.archive b).elim b.store (step lib b.store) := by
  cases a with
  | deliver env i =>
    simp only [commandStep, Broker.step, CommandAction.archive]
    cases b.openMessage i with
    | none => rfl
    | some delivery => rfl
  | settle k =>
    simp only [commandStep, Broker.step]
    split
    · rfl
    · rfl
  | post | lose | other => rfl

theorem Told.commandStep (h : Told operationId b.store) :
    Told operationId (commandStep lib b a).store := by
  rw [commandStep_store]
  cases a.archive b with
  | none => exact h
  | some action =>
    obtain ⟨rows, hrows⟩ := step_delivered lib b.store action
    obtain ⟨row, hrow, hanswer⟩ := h
    refine ⟨row, ?_, hanswer⟩
    rw [Option.elim_some, hrows]
    exact List.mem_append_left rows hrow

theorem archive_of_ingestion {env : Env} {delivery : CommandDelivery}
    (h : a.ingestion b = some (env, delivery)) : a.archive b = some (.command env delivery) := by
  cases a with
  | deliver env' i =>
    obtain ⟨_, hm, heq⟩ := Option.map_eq_some_iff.mp h
    cases heq
    simp [CommandAction.archive, hm]
  | other action =>
    cases action with
    | command env' delivery' => cases h; rfl
    | _ => cases h
  | _ => cases h

theorem ingestion_of_archive {env : Env} {delivery : CommandDelivery}
    (h : a.archive b = some (.command env delivery)) : a.ingestion b = some (env, delivery) := by
  cases a with
  | deliver env' i =>
    obtain ⟨_, hm, heq⟩ := Option.map_eq_some_iff.mp h
    cases heq
    simp [CommandAction.ingestion, hm]
  | other action => cases h; rfl
  | _ => cases h

theorem archive_of_delete {env : Env} {request : DeletionRequest}
    (h : a.archive b = some (.delete env request)) : a = .other (.delete env request) := by
  cases a with
  | deliver env' i =>
    obtain ⟨_, hm, heq⟩ := Option.map_eq_some_iff.mp h
    cases heq
  | other action => cases h; rfl
  | _ => cases h

theorem Ingests.ingestion (h : Ingests lib b a command) :
    ∃ env delivery, a.ingestion b = some (env, delivery) := by
  obtain ⟨env, delivery, _, hi, -⟩ := h
  exact ⟨env, delivery, hi⟩

theorem ingested_concat : Ingested lib (actions ++ [a]) command ↔
    Ingested lib actions command ∨
      Ingests lib (run (commandStep lib) { store := {} } actions) a command := by
  constructor
  · rintro ⟨before, a', after, hsplit, hi⟩
    rcases List.eq_nil_or_concat' after with rfl | ⟨more, last, rfl⟩
    · obtain ⟨rfl, hlast⟩ := List.append_inj' hsplit rfl
      obtain rfl := (List.cons.inj hlast).1
      exact Or.inr hi
    · left
      rw [← List.cons_append, ← List.append_assoc] at hsplit
      obtain ⟨hsplit, -⟩ := List.append_inj' hsplit rfl
      exact ⟨before, a', more, hsplit, hi⟩
  · rintro (⟨before, a', after, rfl, hi⟩ | hi)
    · exact ⟨before, a', after ++ [a], by simp, hi⟩
    · exact ⟨actions, a, [], rfl, hi⟩

theorem ErasedUntold.more (h : ErasedUntold lib actions operationId) (a : CommandAction) :
    ErasedUntold lib (actions ++ [a]) operationId := by
  obtain ⟨before, env, request, after, rfl, hrest⟩ := h
  exact ⟨before, env, request, after ++ [a], by simp, hrest⟩

/-- A deletion after which nothing is owed to an operation that waited has committed. -/
theorem ErasesOwed.of_lost {env : Env} {request : DeletionRequest} {captureId : Uuid} {db : Db}
    (htarget : request.target = .capture captureId) (hat : OwedAt captureId operationId db)
    (hlost : ¬ Owed operationId ((applyDeletion lib request).exec env db).2) :
    ErasesOwed lib env request operationId db := by
  refine ⟨?_, ⟨captureId, htarget, hat⟩, hlost⟩
  rcases exec_cases (applyDeletion lib request) env db with ⟨result, db', hexec, -⟩ | ⟨e, hexec⟩
  · exact ⟨result, by rw [hexec]⟩
  · rw [hexec] at hlost
    exact absurd hat.owed hlost

/-- What becomes of an operation that was ingested. -/
def Accountable (lib : Externals) (actions : List CommandAction) (operationId : Uuid)
    (s : System) : Prop :=
  Owed operationId s.db ∨ Told operationId s ∨ ErasedUntold lib actions operationId

/-- What holds after the steps `actions`. -/
structure CommandsRecorded (lib : Externals) (actions : List CommandAction) (s : System) : Prop where
  kept : AnswersKept s.db
  ingested : ∀ command, Ingested lib actions command →
    Accountable lib actions command.operationId s
  inbox : ∀ id, (.browserCapture, id) ∈ inboxKeys s.db →
    ∃ command, Ingested lib actions command ∧ command.commandId = id

/-- The step deletes the capture the operation waits at. -/
def CommandAction.Erases (a : CommandAction) (operationId : Uuid) (db : Db) : Prop :=
  ∃ env request captureId, a = .other (.delete env request) ∧
    request.target = .capture captureId ∧ OwedAt captureId operationId db

/-- A step loses an answer that was not told yet by such a deletion alone. -/
theorem Accountable.step
    (h : Accountable lib actions operationId (run (commandStep lib) { store := {} } actions).store)
    (howed : Owed operationId (run (commandStep lib) { store := {} } actions).store.db →
      Owed operationId (run (commandStep lib) { store := {} } (actions ++ [a])).store.db ∨
        a.Erases operationId (run (commandStep lib) { store := {} } actions).store.db) :
    Accountable lib (actions ++ [a]) operationId
      (run (commandStep lib) { store := {} } (actions ++ [a])).store := by
  have htold : Told operationId (run (commandStep lib) { store := {} } actions).store →
      Told operationId (run (commandStep lib) { store := {} } (actions ++ [a])).store := by
    intro ht
    rw [run_concat]
    exact ht.commandStep
  rcases h with ho | ht | he
  · rcases howed ho with ho | ⟨env, request, captureId, rfl, htarget, hat⟩
    · exact Or.inl ho
    by_cases hlost : Owed operationId (run (commandStep lib) { store := {} }
        (actions ++ [.other (.delete env request)])).store.db
    · exact Or.inl hlost
    right
    by_cases ht : Told operationId (run (commandStep lib) { store := {} } actions).store
    · exact Or.inl (htold ht)
    · rw [run_concat] at hlost
      exact Or.inr ⟨actions, env, request, [], rfl, .of_lost htarget hat hlost, ht⟩
  · exact Or.inr (Or.inl (htold ht))
  · exact Or.inr (Or.inr (he.more a))

/-- A step that ingests nothing. -/
theorem CommandsRecorded.archive
    (h : CommandsRecorded lib actions (run (commandStep lib) { store := {} } actions).store)
    (hnone : a.ingestion (run (commandStep lib) { store := {} } actions) = none) :
    CommandsRecorded lib (actions ++ [a])
      (run (commandStep lib) { store := {} } (actions ++ [a])).store := by
  generalize hb : run (commandStep lib) { store := {} } actions = b at h hnone
  have hstore : (run (commandStep lib) { store := {} } (actions ++ [a])).store =
      (a.archive b).elim b.store (InstagramArchive.step lib b.store) := by
    rw [run_concat, hb, commandStep_store]
  -- the database keeps its answers, except for what a deletion of the capture takes
  have hdb : AnswersKept ((a.archive b).elim b.store (InstagramArchive.step lib b.store)).db ∧
      (∀ id, (.browserCapture, id) ∈
          inboxKeys ((a.archive b).elim b.store (InstagramArchive.step lib b.store)).db →
        (.browserCapture, id) ∈ inboxKeys b.store.db) ∧
      ∀ operationId, Owed operationId b.store.db →
        Owed operationId ((a.archive b).elim b.store (InstagramArchive.step lib b.store)).db ∨
          a.Erases operationId b.store.db := by
    cases harchive : a.archive b with
    | none => exact ⟨h.kept, fun _ hid => hid, fun _ ho => Or.inl ho⟩
    | some action =>
      simp only [Option.elim_some]
      rcases step_effect lib b.store action with ⟨-, hsame⟩ | ⟨env, call, hcall, heffect⟩
      · rw [hsame]
        exact ⟨h.kept, fun _ hid => hid, fun _ ho => Or.inl ho⟩
      have hcommand : ∀ delivery, call ≠ .command delivery := by
        rintro delivery rfl
        rw [System.call_command hcall] at harchive
        rw [ingestion_of_archive harchive] at hnone
        cases hnone
      obtain ⟨hkept, howed⟩ := heffect.answersKept hcommand h.kept
      refine ⟨hkept, fun id hid => (heffect.commandKeys hcommand id).mp hid, fun id ho => ?_⟩
      rcases howed id ho with ho | ⟨request, captureId, rfl, htarget, hat⟩
      · exact Or.inl ho
      · rw [System.call_delete hcall] at harchive
        exact Or.inr ⟨env, request, captureId, archive_of_delete harchive, htarget, hat⟩
  have hold : ∀ command, Ingested lib (actions ++ [a]) command ↔ Ingested lib actions command := by
    intro command
    rw [ingested_concat, hb]
    refine or_iff_left ?_
    intro hi
    obtain ⟨env, delivery, hi⟩ := hi.ingestion
    rw [hnone] at hi
    cases hi
  refine ⟨?_, ?_, ?_⟩
  · rw [hstore]
    exact hdb.1
  · intro command hc
    have hsofar := h.ingested command ((hold command).mp hc)
    rw [← hb] at hsofar
    refine hsofar.step ?_
    rw [hb, hstore]
    exact hdb.2.2 command.operationId
  · intro id hid
    rw [hstore] at hid
    obtain ⟨command, hc, heq⟩ := h.inbox id (hdb.2.1 id hid)
    exact ⟨command, (hold command).mpr hc, heq⟩

/-- A step that hands a command to the archive. -/
theorem CommandsRecorded.ingestion {env : Env} {delivery : CommandDelivery}
    (h : CommandsRecorded lib actions (run (commandStep lib) { store := {} } actions).store)
    (hsome : a.ingestion (run (commandStep lib) { store := {} } actions) = some (env, delivery)) :
    CommandsRecorded lib (actions ++ [a])
      (run (commandStep lib) { store := {} } (actions ++ [a])).store := by
  generalize hb : run (commandStep lib) { store := {} } actions = b at h hsome
  have hdb : (run (commandStep lib) { store := {} } (actions ++ [a])).store.db =
      ((ingestBrowserCaptureCommand lib delivery).exec env b.store.db).2 := by
    rw [run_concat, hb, commandStep_store, archive_of_ingestion hsome]
    rfl
  -- a command the run ingested before stays accounted for
  have hcarry : ∀ command, Ingested lib actions command →
      (Owed command.operationId b.store.db → Owed command.operationId
        (run (commandStep lib) { store := {} } (actions ++ [a])).store.db) →
      Accountable lib (actions ++ [a]) command.operationId
        (run (commandStep lib) { store := {} } (actions ++ [a])).store := by
    intro command hc howed
    have hsofar := h.ingested command hc
    rw [← hb] at hsofar howed
    exact hsofar.step fun ho => Or.inl (howed ho)
  rcases exec_cases (ingestBrowserCaptureCommand lib delivery) env b.store.db with
    ⟨out, db', he, hy⟩ | ⟨e, he⟩
  · rw [he] at hdb
    obtain ⟨hkept, hgrow, hnew⟩ := h.kept.ingested hy
    refine ⟨by rw [hdb]; exact hkept, ?_, ?_⟩
    · intro command hc
      rcases ingested_concat.mp hc with hc | ⟨env', delivery', out', hi, hcommand, hout, hne⟩
      · refine hcarry command hc fun ho => ?_
        rw [hdb]
        exact hgrow.owedStill ho
      · rw [hb, hsome] at hi
        cases hi
        rw [hb, he] at hout
        cases hout
        left
        rw [hdb]
        exact hnew command hcommand hne
    · intro id hid
      rw [hdb] at hid
      obtain ⟨command, hcommand, ⟨-, -, rfl⟩ | ⟨hne, -, hkeys, -⟩⟩ :=
        ingestBrowserCaptureCommand_answers hy
      · obtain ⟨old, hc, heq⟩ := h.inbox id hid
        exact ⟨old, ingested_concat.mpr (Or.inl hc), heq⟩
      · rw [hkeys] at hid
        rcases List.mem_append.mp hid with hid | hid
        · obtain ⟨old, hc, heq⟩ := h.inbox id hid
          exact ⟨old, ingested_concat.mpr (Or.inl hc), heq⟩
        · refine ⟨command, ingested_concat.mpr (Or.inr ?_), ?_⟩
          · rw [hb]
            exact ⟨env, delivery, out, hsome, hcommand, by rw [he], hne⟩
          · exact (Prod.mk.inj (List.mem_singleton.mp hid)).2.symm
  · rw [he] at hdb
    have hold : ∀ command, Ingested lib (actions ++ [a]) command → Ingested lib actions command := by
      intro command hc
      rcases ingested_concat.mp hc with hc | ⟨env', delivery', out', hi, -, hout, -⟩
      · exact hc
      · rw [hb, hsome] at hi
        cases hi
        rw [hb, he] at hout
        cases hout
    refine ⟨by rw [hdb]; exact h.kept, ?_, ?_⟩
    · intro command hc
      refine hcarry command (hold command hc) fun ho => ?_
      rw [hdb]
      exact ho
    · intro id hid
      rw [hdb] at hid
      obtain ⟨old, hc, heq⟩ := h.inbox id hid
      exact ⟨old, ingested_concat.mpr (Or.inl hc), heq⟩

theorem recorded_run (lib : Externals) (actions : List CommandAction) :
    CommandsRecorded lib actions (run (commandStep lib) { store := {} } actions).store := by
  induction actions using List.reverseRecOn with
  | nil =>
    refine ⟨⟨?_, ?_, ?_⟩, ?_, ?_⟩
    · simp [answers]
    · simp
    · simp
    · rintro command ⟨before, a, after, hsplit, -⟩
      simp at hsplit
    · simp [inboxKeys]
  | append_singleton actions a ih =>
    cases hi : a.ingestion (run (commandStep lib) { store := {} } actions) with
    | none => exact ih.archive hi
    | some p => exact ih.ingestion hi

end Steps

/-! ## Settlements -/

section Settlements

variable {lib : Externals} {actions : List CommandAction}

theorem decodeBrowserCaptureCommand_terminates {delivery : CommandDelivery}
    {e : CommandCaptureError} (h : decodeBrowserCaptureCommand delivery = .error e) :
    verdictOf (.error e) = .term := by
  unfold decodeBrowserCaptureCommand at h
  repeat' split at h
  all_goals first
    | (cases h; rfl)
    | cases h

/-- An ingestion fails at its command, or with an error that is tried again. -/
theorem ingestBrowserCaptureCommand_failsWith (delivery : CommandDelivery) :
    (ingestBrowserCaptureCommand lib delivery).FailsWith fun e =>
      decodeBrowserCaptureCommand delivery = .error e ∨ verdictOf (.error e) = .nak := by
  have hsql : ∀ q, decodeBrowserCaptureCommand delivery = .error (OfSql.ofSql q) ∨
      verdictOf (.error (OfSql.ofSql q)) = .nak := fun _ => Or.inr rfl
  have hpublish : ∀ e, decodeBrowserCaptureCommand delivery = .error (.ofPublish e) ∨
      verdictOf (.error (.ofPublish e)) = .nak := by
    intro e
    cases e <;> exact Or.inr rfl
  have hreport : ∀ (subject operationId : Uuid) body e,
      (buildReport lib subject operationId body).mapError CommandCaptureError.report = .error e →
        decodeBrowserCaptureCommand delivery = .error e ∨ verdictOf (.error e) = .nak := by
    intro subject operationId body e he
    cases hr : buildReport lib subject operationId body with
    | ok r => rw [hr] at he; cases he
    | error q => rw [hr] at he; cases he; exact Or.inr rfl
  refine .bind (.ofExcept fun e he => Or.inl he) fun command => ?_
  refine .bind (.bind .now fun _ => .insertUnless hsql) fun claimed => ?_
  cases claimed with
  | false => exact .bind (.commit hsql) fun _ => .pure _
  | true =>
    refine .bind (.attempt _) fun submitted => ?_
    cases submitted with
    | ok submission =>
      have hrecord : (recordOperation lib command submission.record.captureId).FailsWith fun e =>
          decodeBrowserCaptureCommand delivery = .error e ∨ verdictOf (.error e) = .nak := by
        refine .bind .now fun _ => .bind (.insertUnless hsql) fun inserted => ?_
        refine .bind (.execute hsql _) fun _ => ?_
        cases inserted with
        | false => exact .pure _
        | true =>
          refine .bind (.ofExcept (hreport _ _ _)) fun _ => ?_
          exact .bind (.mapError hpublish _) fun _ => .pure _
      refine .bind hrecord fun _ => .bind (.execute hsql _) fun _ => ?_
      exact .bind (.commit hsql) fun _ => .pure _
    | error e =>
      cases e with
      | invalidUrl e =>
        refine .bind (.ofExcept (hreport _ _ _)) fun _ => .bind (.mapError hpublish _) fun _ => ?_
        exact .bind (.execute hsql _) fun _ => .bind (.commit hsql) fun _ => .pure _
      | unsupportedClientSource | unknownCapture | persistence _ => exact .throw (Or.inr rfl)

/-- What the verdict on a delivery says about its command. -/
def Justifies (lib : Externals) (actions : List CommandAction) (message : CommandMessage) :
    Verdict → Prop
  | .ack => ∃ command ingested, decodeBrowserCaptureCommand (commandDelivery message) = .ok command ∧
      Ingested lib actions ingested ∧ ingested.commandId = command.commandId
  | .term => ∃ e, decodeBrowserCaptureCommand (commandDelivery message) = .error e
  | .nak => True

theorem Justifies.more {message : CommandMessage} {v : Verdict}
    (h : Justifies lib actions message v) (a : CommandAction) :
    Justifies lib (actions ++ [a]) message v := by
  cases v with
  | ack =>
    obtain ⟨command, ingested, hcommand, hi, hid⟩ := h
    exact ⟨command, ingested, hcommand, ingested_concat.mpr (Or.inl hi), hid⟩
  | term => exact h
  | nak => trivial

/-- **The verdict on a delivery** is justified by the run up to it. -/
theorem consumeOne_justified {env : Env} {i : Nat} {message : CommandMessage}
    (hopen : (run (commandStep lib) { store := {} } actions).openMessage i = some message) :
    Justifies lib (actions ++ [.deliver env i]) message
      (consumeOne lib env (run (commandStep lib) { store := {} } actions).store message).1 := by
  unfold consumeOne
  have hrun := recorded_run lib actions
  generalize hb : run (commandStep lib) { store := {} } actions = b at hopen hrun
  rcases exec_cases (ingestBrowserCaptureCommand lib (commandDelivery message)) env b.store.db with
    ⟨out, db', he, hy⟩ | ⟨e, he⟩
  · rw [he]
    obtain ⟨command, hcommand, ⟨-, hknown, -⟩ | ⟨hne, -⟩⟩ := ingestBrowserCaptureCommand_answers hy
    · obtain ⟨ingested, hi, hid⟩ := hrun.inbox _ hknown
      exact ⟨command, ingested, hcommand, ingested_concat.mpr (Or.inl hi), hid⟩
    · refine ⟨command, command, hcommand, ingested_concat.mpr (Or.inr ?_), rfl⟩
      rw [hb]
      have hi : CommandAction.ingestion b (.deliver env i) = some (env, commandDelivery message) := by
        simp [CommandAction.ingestion, hopen]
      exact ⟨env, _, out, hi, hcommand, by rw [he], hne⟩
  · have hfails : (ingestBrowserCaptureCommand lib (commandDelivery message)).Fails env
        b.store.db e := exec_fails (by rw [he])
    rw [he]
    rcases ingestBrowserCaptureCommand_failsWith _ env _ e hfails with hdecode | hnak
    · rw [decodeBrowserCaptureCommand_terminates hdecode]
      exact ⟨e, hdecode⟩
    · rw [hnak]
      trivial

/-- **Every ingested command is answered.** In every run of the broker, the consumer and the
archive, deletions included: an operation that a command brought in is open, or its terminal
report is in the outbox or was delivered, unless a deletion of the capture it waited at committed
before that. A message is acknowledged only if its command id was ingested, and terminated
only if it holds no valid command. -/
theorem commands_answered (lib : Externals) (actions : List CommandAction) :
    let b := run (commandStep lib) { store := {} } actions
    (∀ command, Ingested lib actions command →
      Accountable lib actions command.operationId b.store) ∧
    ∀ p ∈ b.posted, ∀ v, p.settled = some v → v ≠ .nak ∧ Justifies lib actions p.message v := by
  intro b
  refine ⟨(recorded_run lib actions).ingested, ?_⟩
  have hjustified : Broker.Justified (Justifies lib actions) b :=
    Broker.justified_run (Justifies lib) ({} : System) (fun _ a _ _ h => h.more a)
      (fun _ _ _ _ hopen => consumeOne_justified hopen) actions
  exact hjustified.posted

end Settlements

end InstagramArchive

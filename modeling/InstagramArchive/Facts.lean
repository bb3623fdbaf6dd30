import InstagramArchive.Provenance
import InstagramArchive.Reporting

/-!
# The facts of a capture

`outboxLog` is the outbox without its delivery columns: an append-only list of what was
said, whatever the relay does with it. A captured or updated fact enters it in two places
only, when a payload is stored and when an upstream deletion of a linked capture is
recorded; `Effect.logChange` says what each call adds.
-/

namespace InstagramArchive

open Relational Relational.Tx Permalink

/-! ## The log -/

/-- The row as it was appended. -/
def OutboxEvent.asAppended (e : OutboxEvent) : OutboxEvent :=
  { e with
    publishedAt := none
    attemptCount := 0
    nextAttemptAt := none
    lastError := none
    undeliverableAt := none
    acknowledgedAt := none
    ackOutcome := none
    resendCount := 0
    nextResendAt := none }

/-- The rows of the outbox as they were appended. -/
def outboxLog (db : Db) : List OutboxEvent := db.outboxEvents.rows.map OutboxEvent.asAppended

/-- The snapshot a captured or updated fact carries. -/
def EventPayload.snapshot? : EventPayload → Option SocialSourceSnapshot
  | .captured snapshot | .updated snapshot => some snapshot
  | _ => none

/-- What the captured and updated facts of a capture say, in append order. -/
def publishedFacts (captureId : Uuid) (db : Db) : List EventPayload :=
  (captureFacts captureId db.outboxEvents.rows).map fun e => e.payload.payload

/-- The snapshot of the most recently appended fact of a capture. -/
def newestFact (captureId : Uuid) (db : Db) : Option SocialSourceSnapshot :=
  (publishedFacts captureId db).getLast?.bind EventPayload.snapshot?

/-- The snapshots of all captured and updated facts of a source, in append order. -/
def sourceFacts (sourceId : Uuid) (db : Db) : List SocialSourceSnapshot :=
  (db.outboxEvents.rows.filterMap fun e => e.payload.payload.snapshot?).filter
    fun snapshot => snapshot.socialSourceId = sourceId

/-- A row that is no captured or updated fact. -/
structure OutboxEvent.Silent (e : OutboxEvent) : Prop where
  payload : e.payload.payload.snapshot? = none
  captured : e.eventType ≠ .sourceCaptured
  updated : e.eventType ≠ .sourceUpdated

section Views

variable {db db' : Db}

theorem publishedFacts_eq_log (captureId : Uuid) (db : Db) :
    publishedFacts captureId db =
      (captureFacts captureId (outboxLog db)).map fun e => e.payload.payload := by
  unfold publishedFacts outboxLog captureFacts
  rw [List.filter_map, List.map_map]
  rfl

theorem sourceFacts_eq_log (sourceId : Uuid) (db : Db) :
    sourceFacts sourceId db =
      ((outboxLog db).filterMap fun e => e.payload.payload.snapshot?).filter
        fun snapshot => snapshot.socialSourceId = sourceId := by
  unfold sourceFacts outboxLog
  rw [List.filterMap_map]
  rfl

theorem captureHasFact_iff (captureId : Uuid) (db : Db) :
    captureHasFact captureId db = true ↔ publishedFacts captureId db ≠ [] := by
  unfold captureHasFact publishedFacts
  simp

theorem captureFacts_silent {captureId : Uuid} {new : List OutboxEvent}
    (h : ∀ e ∈ new, e.Silent) : captureFacts captureId new = [] := by
  unfold captureFacts
  apply List.filter_eq_nil_iff.mpr
  intro e he
  simp [(h e he).captured, (h e he).updated]

theorem publishedFacts_append {captureId : Uuid} {new : List OutboxEvent}
    (h : outboxLog db' = outboxLog db ++ new) :
    publishedFacts captureId db' = publishedFacts captureId db ++
      (captureFacts captureId new).map fun e => e.payload.payload := by
  rw [publishedFacts_eq_log, publishedFacts_eq_log, h]
  unfold captureFacts
  rw [List.filter_append, List.map_append]

theorem publishedFacts_silent {captureId : Uuid} {new : List OutboxEvent}
    (h : outboxLog db' = outboxLog db ++ new) (hs : ∀ e ∈ new, e.Silent) :
    publishedFacts captureId db' = publishedFacts captureId db := by
  rw [publishedFacts_append h, captureFacts_silent hs]
  simp

theorem sourceFacts_append {sourceId : Uuid} {new : List OutboxEvent}
    (h : outboxLog db' = outboxLog db ++ new) :
    sourceFacts sourceId db' = sourceFacts sourceId db ++
      (new.filterMap fun e => e.payload.payload.snapshot?).filter
        fun snapshot => snapshot.socialSourceId = sourceId := by
  rw [sourceFacts_eq_log, sourceFacts_eq_log, h, List.filterMap_append, List.filter_append]

theorem sourceFacts_silent {sourceId : Uuid} {new : List OutboxEvent}
    (h : outboxLog db' = outboxLog db ++ new) (hs : ∀ e ∈ new, e.Silent) :
    sourceFacts sourceId db' = sourceFacts sourceId db := by
  have hnone : (new.filterMap fun e => e.payload.payload.snapshot?) = [] :=
    List.filterMap_eq_nil_iff.mpr fun e he => (hs e he).payload
  rw [sourceFacts_append h, hnone]
  simp

theorem FactKind.snapshot?_payload (kind : FactKind) (snapshot : SocialSourceSnapshot) :
    (kind.payload snapshot).snapshot? = some snapshot := by
  cases kind <;> rfl

theorem captureFacts_factRow (kind : FactKind) (captureId id eventId : Uuid)
    (snapshot : SocialSourceSnapshot) (occurredAt : Instant) :
    captureFacts id [factRow kind captureId snapshot eventId occurredAt] =
      if captureId = id then [factRow kind captureId snapshot eventId occurredAt] else [] := by
  unfold captureFacts
  by_cases h : captureId = id
  · cases kind <;> simp [factRow, FactKind.eventType, h]
  · simp [factRow, h]

/-- A capture's new fact comes last. -/
theorem publishedFacts_factRow {kind : FactKind} {captureId eventId : Uuid}
    {snapshot : SocialSourceSnapshot} {occurredAt : Instant}
    (h : outboxLog db' = outboxLog db ++ [factRow kind captureId snapshot eventId occurredAt]) :
    publishedFacts captureId db' = publishedFacts captureId db ++ [kind.payload snapshot] := by
  rw [publishedFacts_append h, captureFacts_factRow, if_pos rfl]
  rfl

theorem publishedFacts_factRow_of_ne {kind : FactKind} {captureId id eventId : Uuid}
    {snapshot : SocialSourceSnapshot} {occurredAt : Instant}
    (h : outboxLog db' = outboxLog db ++ [factRow kind captureId snapshot eventId occurredAt])
    (hid : captureId ≠ id) : publishedFacts id db' = publishedFacts id db := by
  rw [publishedFacts_append h, captureFacts_factRow, if_neg hid]
  simp

theorem newestFact_append {kind : FactKind} {captureId : Uuid} {snapshot : SocialSourceSnapshot}
    (h : publishedFacts captureId db' = publishedFacts captureId db ++ [kind.payload snapshot]) :
    newestFact captureId db' = some snapshot := by
  unfold newestFact
  rw [h, List.getLast?_concat, Option.bind_some, FactKind.snapshot?_payload]

end Views

/-! ## What a call adds to the log -/

/-- What a call adds to the log. -/
inductive LogChange (lib : Externals) (db : Db) : Call → Db → Prop
  | silent {call : Call} {db' : Db} (new : List OutboxEvent)
      (hlog : outboxLog db' = outboxLog db ++ new) (hnew : ∀ e ∈ new, e.Silent) :
      LogChange lib db call db'
  | mediaFact {fact : MediaFact} {db' : Db} (eventId : Uuid)
      (hlog : outboxLog db' = outboxLog db ++ [mediaFactRow fact eventId]) :
      LogChange lib db (.mediaFact fact) db'
  | stored {call : Call} {db' : Db} (captureId : Uuid) (permalink : CanonicalPermalink)
      (body : String) (normalized : NormalizedMedia) (resolvedAt : Instant)
      (stored : StoredResolution) (mid : Db) (snapshot : SocialSourceSnapshot) (eventId : Uuid)
      (occurredAt : Instant)
      (hcall : call.Applies captureId permalink (.payload body) resolvedAt)
      (hn : normalize lib body permalink.kind = some normalized)
      (howes : owesFact captureId permalink normalized db = true)
      (hstores : Stores lib captureId permalink normalized body resolvedAt db stored mid)
      (hsnapshot : snapshotAt lib mid captureId (owedKind captureId db) = some snapshot)
      (hlog : outboxLog db' = outboxLog db ++
        [factRow (owedKind captureId db) captureId snapshot eventId occurredAt]) :
      LogChange lib db call db'
  | deleted {call : Call} {db' : Db} (captureId : Uuid) (permalink : CanonicalPermalink)
      (resolvedAt : Instant) (mediaId : Uuid) (mid : Db) (snapshot : SocialSourceSnapshot)
      (eventId : Uuid) (occurredAt : Instant)
      (hcall : call.Applies captureId permalink .deleted resolvedAt)
      (hlinked : linkedMedia captureId db = some mediaId)
      (hcaptures : mid.captures =
        (setStatus captureId CaptureStatus.live .unavailable db).captures)
      (hmedia : mid.media = (setUpstreamDeleted mediaId resolvedAt db).media)
      (hsnapshot : snapshotAt lib mid captureId .updated = some snapshot)
      (hlog : outboxLog db' = outboxLog db ++
        [factRow .updated captureId snapshot eventId occurredAt]) :
      LogChange lib db call db'

section Changes

variable {lib : Externals} {env : Env} {db db' : Db}

theorem Appends.outboxLog {row : OutboxEvent} (h : Appends db row db')
    (hrow : row.asAppended = row) :
    outboxLog db' = outboxLog db ++ [row] := by
  unfold InstagramArchive.outboxLog
  rw [h.rows, List.map_append, List.map_singleton, hrow]

theorem reportRow_silent (captureId : Option Uuid) (owner commandId eventId : Uuid)
    (report : OperationReported) (occurredAt : Instant) :
    (reportRow captureId owner commandId report eventId occurredAt).Silent :=
  ⟨rfl, nofun, nofun⟩

theorem removalRow_silent (aggregateType : AggregateType) (aggregateId eventId : Uuid)
    (removal : SocialSourceRemoved) : (removalRow aggregateType aggregateId removal eventId).Silent :=
  ⟨rfl, nofun, nofun⟩

/-- The outbox grew by rows that satisfy `P` and that nobody worked on yet. -/
def Grew (P : OutboxEvent → Prop) (db db' : Db) : Prop :=
  ∃ new, db'.outboxEvents.rows = db.outboxEvents.rows ++ new ∧
    ∀ e ∈ new, e.asAppended = e ∧ P e

section Growth

variable {P : OutboxEvent → Prop}

theorem Grew.of_eq (h : db'.outboxEvents = db.outboxEvents) : Grew P db db' :=
  ⟨[], by rw [h, List.append_nil], fun e he => (List.not_mem_nil he).elim⟩

theorem Grew.trans {a b c : Db} (h : Grew P a b) (h' : Grew P b c) : Grew P a c := by
  obtain ⟨new, hrows, hnew⟩ := h
  obtain ⟨new', hrows', hnew'⟩ := h'
  refine ⟨new ++ new', by rw [hrows', hrows, List.append_assoc], ?_⟩
  intro e he
  rcases List.mem_append.mp he with he | he
  · exact hnew e he
  · exact hnew' e he

theorem Grew.mono {Q : OutboxEvent → Prop} (h : Grew P db db') (hPQ : ∀ e, P e → Q e) :
    Grew Q db db' := by
  obtain ⟨new, hrows, hnew⟩ := h
  exact ⟨new, hrows, fun e he => ⟨(hnew e he).1, hPQ e (hnew e he).2⟩⟩

theorem Appends.grew {row : OutboxEvent} (h : Appends db row db')
    (hrow : row.asAppended = row) (hP : P row) : Grew P db db' := by
  refine ⟨[row], h.rows, ?_⟩
  intro e he
  rw [List.mem_singleton.mp he]
  exact ⟨hrow, hP⟩

theorem Grew.outboxLog (h : Grew P db db') :
    ∃ new, outboxLog db' = outboxLog db ++ new ∧ ∀ e ∈ new, P e := by
  obtain ⟨new, hrows, hnew⟩ := h
  refine ⟨new, ?_, fun e he => (hnew e he).2⟩
  unfold InstagramArchive.outboxLog
  rw [hrows, List.map_append]
  congr 1
  exact (List.map_congr_left fun e he => (hnew e he).1).trans (List.map_id new)

end Growth

theorem LogChange.of_grew {call : Call} (h : Grew OutboxEvent.Silent db db') :
    LogChange lib db call db' := by
  obtain ⟨new, hlog, hnew⟩ := h.outboxLog
  exact .silent new hlog hnew

theorem LogChange.same {call : Call} (h : db'.outboxEvents = db.outboxEvents) :
    LogChange lib db call db' := .of_grew (.of_eq h)

theorem Reports.grewSilently {captureId userRef : Uuid} {conclusion : Conclusion}
    {operations : List CaptureOperation}
    (h : Reports captureId userRef conclusion operations db db') :
    Grew OutboxEvent.Silent db db' := by
  obtain ⟨-, new, hnew, hall⟩ := h
  refine ⟨new, hnew, ?_⟩
  -- every appended row is a terminal report
  clear hnew
  induction hall with
  | nil => exact fun e he => (List.not_mem_nil he).elim
  | cons ho _ ih =>
    obtain ⟨eventId, occurredAt, rfl⟩ := ho
    intro e he
    rcases List.mem_cons.mp he with rfl | he
    · exact ⟨rfl, reportRow_silent ..⟩
    · exact ih e he

theorem reportPending_grewSilently {captureId : Uuid} {now : Instant} {n : Nat}
    (h : (reportPending lib captureId now).Yields env db n db') : Grew OutboxEvent.Silent db db' := by
  obtain ⟨c, -, ⟨-, rfl⟩ | ⟨conclusion, -, hr⟩⟩ := reportPending_yields h
  · exact .of_eq rfl
  · have hmarked : Grew OutboxEvent.Silent db (markReported captureId now db) := .of_eq rfl
    exact hmarked.trans hr.grewSilently

theorem claimEach_grewSilently {now : Instant} {batch : List Capture} {out : List Leased × Nat}
    (h : (claimEach lib now batch).Yields env db out db') : Grew OutboxEvent.Silent db db' :=
  claimEach_invariant (Grew OutboxEvent.Silent db) (fun _ _ _ hm => hm.trans (.of_eq rfl))
    (fun _ _ _ _ hr hm => hm.trans (reportPending_grewSilently hr)) h (.of_eq rfl)

theorem ingestBrowserCaptureCommand_grewSilently {delivery : CommandDelivery}
    {out : BrowserCaptureIngested}
    (h : (ingestBrowserCaptureCommand lib delivery).Yields env db out db') : Grew OutboxEvent.Silent db db' := by
  obtain ⟨command, -, ⟨-, rfl, -⟩ | ⟨-, t, -, hh⟩⟩ := ingestBrowserCaptureCommand_yields h
  · exact .of_eq rfl
  rcases handleCommand_yields hh with ⟨e, -, hr⟩ | ⟨submission, m, m', -, hs, hrec, rfl⟩
  · obtain ⟨-, eventId, occurredAt, m, happ, rfl⟩ := rejectCommand_yields hr
    exact happ.grew rfl (reportRow_silent ..)
  · have hm : m.outboxEvents = db.outboxEvents := by
      obtain ⟨_, _, -, -, ⟨_, u, -, -, rfl, -⟩ | ⟨_, -, rfl, -⟩⟩ :=
        submitCaptureInTransaction_yields hs
      · rfl
      · rfl
    have hsubmitted : Grew OutboxEvent.Silent db m := .of_eq hm
    rcases recordOperation_yields hrec with ⟨-, rfl⟩ | ⟨-, ops, eventId, occurredAt, -, happ⟩
    · exact hsubmitted
    · exact hsubmitted.trans (happ.grew rfl (reportRow_silent ..))

theorem updateOutbox_outboxLog {p : OutboxEvent → Bool} {f : OutboxEvent → OutboxEvent}
    {hf : ∀ e, (f e).eventId = e.eventId} (h : ∀ e, (f e).asAppended = e.asAppended) :
    outboxLog (updateOutbox p f hf db) = outboxLog db :=
  Table.map_update _ _ _ _ fun e _ => h e

theorem Booking.asAppended {now : Instant} {resend : ResendPolicy} {eventId : Uuid}
    {p : OutboxEvent → Bool} {f : OutboxEvent → OutboxEvent}
    (h : Booking now resend eventId p f) (e : OutboxEvent) :
    (f e).asAppended = e.asAppended := by
  cases h <;> rfl

theorem OutboxEvent.asAppended_acknowledged (now : Instant) (outcome : AckOutcome)
    (e : OutboxEvent) : (e.acknowledged now outcome).asAppended = e.asAppended := rfl

/-- A fact published once the rows are written enters the log. -/
theorem Publishes.outboxLog {mid : Db} {kind : FactKind} {captureId : Uuid}
    (h : Publishes lib kind captureId mid db') (hmid : mid.outboxEvents = db.outboxEvents) :
    ∃ snapshot eventId occurredAt, snapshotAt lib mid captureId kind = some snapshot ∧
      InstagramArchive.outboxLog db' = InstagramArchive.outboxLog db ++
        [factRow kind captureId snapshot eventId occurredAt] := by
  obtain ⟨snapshot, eventId, occurredAt, hsnapshot, happ⟩ := h
  refine ⟨snapshot, eventId, occurredAt, hsnapshot, ?_⟩
  have hlog := happ.outboxLog rfl
  unfold InstagramArchive.outboxLog at hlog ⊢
  rwa [hmid] at hlog

theorem storeResolution_logChange {call : Call} {captureId : Uuid} {permalink : CanonicalPermalink}
    {normalized : NormalizedMedia} {body : String} {resolvedAt : Instant} {stored : StoredResolution}
    (hcall : call.Applies captureId permalink (.payload body) resolvedAt)
    (hn : normalize lib body permalink.kind = some normalized)
    (h : (storeResolution lib captureId permalink normalized body resolvedAt).Yields env db
      stored db') : LogChange lib db call db' := by
  obtain ⟨mid, hstores, hfact⟩ := storeResolution_yields h
  have hmid : mid.outboxEvents = db.outboxEvents := by rw [hstores.frame]
  split at hfact
  · rename_i howes
    obtain ⟨snapshot, eventId, occurredAt, hsnapshot, hlog⟩ := hfact.outboxLog hmid
    exact .stored captureId permalink body normalized resolvedAt stored mid snapshot eventId
      occurredAt hcall hn howes hstores hsnapshot hlog
  · rw [hfact]
    exact .same hmid

theorem recordFailedResolution_logChange {call : Call} {captureId : Uuid}
    {observed : AvailabilityObservationKind} {resolvedAt : Instant} {out : ResolutionOutcome}
    (hcall : observed = .deleted →
      ∃ permalink, call.Applies captureId permalink .deleted resolvedAt)
    (h : (recordFailedResolution lib captureId observed resolvedAt).Yields env db out db') :
    LogChange lib db call db' := by
  obtain ⟨observations, mid, rfl, ⟨mediaId, ho, hlinked, hfact⟩ | ⟨-, rfl⟩⟩ :=
    recordFailedResolution_yields h
  · obtain ⟨permalink, happ⟩ := hcall ho
    obtain ⟨snapshot, eventId, occurredAt, hsnapshot, hlog⟩ := hfact.outboxLog rfl
    exact .deleted captureId permalink resolvedAt mediaId
      (setUpstreamDeleted mediaId resolvedAt (setStatus captureId CaptureStatus.live .unavailable
        { db with availabilityObservations := observations }))
      snapshot eventId occurredAt happ hlinked rfl rfl hsnapshot hlog
  · exact .same rfl

/-- **What a call adds to the log**, unless it deletes. -/
theorem Effect.logChange {call : Call} (h : Effect lib env db call db')
    (hdelete : ∀ request, call ≠ .delete request) : LogChange lib db call db' := by
  cases h with
  | idle => exact .same rfl
  | submit h =>
    obtain ⟨_, _, -, -, ⟨_, _, -, -, rfl, -⟩ | ⟨_, -, rfl, -⟩⟩ := submitCaptureInTransaction_yields h
    · exact .same rfl
    · exact .same rfl
  | command h =>
    exact .of_grew (ingestBrowserCaptureCommand_grewSilently h)
  | analysis h =>
    obtain ⟨completion, -, ⟨-, rfl, -⟩ | ⟨-, t, -, hh⟩⟩ := ingestAnalysisCompleted_yields h
    · exact .same rfl
    · obtain ⟨-, outcome, links, rfl⟩ := handleCompletion_yields hh
      exact .same rfl
  | claim h =>
    exact .of_grew (claimEach_grewSilently h)
  | reschedule => exact .same rfl
  | store hcall hn h => exact storeResolution_logChange hcall hn h
  | fail hcall ho h =>
    exact recordFailedResolution_logChange (fun hd => ⟨_, ho.mp hd ▸ hcall⟩) h
  | unmapped h =>
    refine recordFailedResolution_logChange ?_ h
    intro ho
    cases ho
  | report h =>
    exact .of_grew (reportPending_grewSilently h)
  | unavailable h =>
    obtain ⟨m, t, rfl, rfl⟩ := writeUnavailable_yields h
    split
    · exact .same rfl
    · exact .same rfl
  | tombstone h =>
    obtain ⟨c, -, ⟨-, rfl, -⟩ | ⟨-, permalink, eventId, deletions, removals, m, -, -, happ, rfl⟩⟩ :=
      tombstoneCapture_yields h
    · exact .same rfl
    · exact .of_grew (happ.grew rfl (removalRow_silent ..))
  | mediaFact h => exact .mediaFact _ (h.outboxLog rfl)
  | book h =>
    exact .silent [] ((updateOutbox_outboxLog h.asAppended).trans (List.append_nil _).symm)
      fun e he => (List.not_mem_nil he).elim
  | acknowledge =>
    exact .silent [] ((updateOutbox_outboxLog (OutboxEvent.asAppended_acknowledged _ _)).trans
      (List.append_nil _).symm)
      fun e he => (List.not_mem_nil he).elim
  | delete h => exact (hdelete _ rfl).elim

end Changes

/-! ## What a fact says -/

/-- The digest of a post without archived media. -/
def contentDigest (lib : Externals) (permalink : CanonicalPermalink) (text : Option String)
    (upstream : UpstreamAvailability) : ContentDigest :=
  lib.digestPreimage
    { domain := digestDomain
      permalink := some permalink.url
      externalPostId := permalink.shortcode
      caption := text
      upstream := upstreamToken upstream
      media := [] }

/-- The snapshot is one of this capture and states the content of this media row. -/
structure SnapshotOf (lib : Externals) (c : Capture) (permalink : CanonicalPermalink) (m : Media)
    (snapshot : SocialSourceSnapshot) : Prop where
  canonical : canonicalize c.canonicalUrl = .ok permalink
  socialSourceId : snapshot.socialSourceId = sourceIdentity lib c.userRef permalink.url
  text : snapshotText lib c.captureId m.caption = .ok snapshot.text
  upstream : snapshot.upstreamAvailability = upstreamAvailability m.upstreamStatus
  digest : snapshot.contentDigest =
    contentDigest lib permalink snapshot.text snapshot.upstreamAvailability

section Contents

variable {lib : Externals} {db db' : Db}

theorem upstreamToken_injective : Function.Injective upstreamToken := by
  intro a b h
  cases a <;> cases b <;> first | rfl | (revert h; decide)

/-- With an injective digest, equal digests of one permalink state the same content. -/
theorem contentDigest_inj (hinj : Function.Injective lib.digestPreimage)
    {permalink : CanonicalPermalink} {text text' : Option String}
    {upstream upstream' : UpstreamAvailability} :
    contentDigest lib permalink text upstream = contentDigest lib permalink text' upstream' ↔
      text = text' ∧ upstream = upstream' := by
  constructor
  · intro h
    have hp := hinj h
    simp only [Preimage.mk.injEq, true_and, and_true] at hp
    exact ⟨hp.1, upstreamToken_injective hp.2⟩
  · rintro ⟨rfl, rfl⟩
    rfl

/-- A snapshot read from a store is one of the capture and its media row there. -/
theorem snapshotAt_eq_some {captureId : Uuid} {kind : FactKind} {snapshot : SocialSourceSnapshot}
    (h : snapshotAt lib db captureId kind = some snapshot) :
    ∃ c permalink m mediaId, db.captures.lookup captureId = some c ∧ c.mediaId = some mediaId ∧
      db.media.lookup mediaId = some m ∧ SnapshotOf lib c permalink m snapshot := by
  unfold snapshotAt at h
  obtain ⟨c, hc, h⟩ := Option.bind_eq_some_iff.mp h
  obtain ⟨permalink, hp, h⟩ := Option.bind_eq_some_iff.mp h
  obtain ⟨row, hrow, h⟩ := Option.bind_eq_some_iff.mp h
  obtain ⟨text, htext, h⟩ := Option.bind_eq_some_iff.mp h
  obtain ⟨_, -, h⟩ := Option.bind_eq_some_iff.mp h
  cases h
  have hid : c.captureId = captureId := (Table.lookup_eq_some.mp hc).2
  have hcanonical : canonicalize c.canonicalUrl = .ok permalink := by
    cases hurl : canonicalize c.canonicalUrl with
    | ok p => rw [hurl] at hp; cases hp; rfl
    | error e => rw [hurl] at hp; cases hp
  have hread : snapshotText lib captureId row.caption = .ok text := by
    cases htext' : snapshotText lib captureId row.caption with
    | ok t => rw [htext'] at htext; cases htext; rfl
    | error e => rw [htext'] at htext; cases htext
  unfold currentRow at hrow
  obtain ⟨c', hc', hrow⟩ := Option.bind_eq_some_iff.mp hrow
  rw [hc] at hc'
  cases hc'
  obtain ⟨mediaId, hmediaId, hrow⟩ := Option.bind_eq_some_iff.mp hrow
  obtain ⟨m, hm, hrow⟩ := Option.bind_eq_some_iff.mp hrow
  obtain ⟨revisionId, -, hrow⟩ := Option.bind_eq_some_iff.mp hrow
  obtain ⟨revision, -, hrow⟩ := Option.bind_eq_some_iff.mp hrow
  obtain ⟨record, -, hrow⟩ := Option.bind_eq_some_iff.mp hrow
  cases hrow
  refine ⟨c, permalink, m, mediaId, hc, hmediaId, hm, hcanonical, rfl, ?_, rfl, rfl⟩
  rw [hid]
  exact hread

theorem Stores.captures_eq {captureId : Uuid} {permalink : CanonicalPermalink}
    {normalized : NormalizedMedia} {body : String} {resolvedAt : Instant} {stored : StoredResolution}
    (h : Stores lib captureId permalink normalized body resolvedAt db stored db') :
    db'.captures = (concludeResolved captureId stored.mediaId db).captures := by
  obtain ⟨raws, upserted, revisions, observations, -, hup, -, rfl⟩ := h
  rw [hup.frame]
  rfl

theorem Stores.origin {captureId : Uuid} {permalink : CanonicalPermalink}
    {normalized : NormalizedMedia} {body : String} {resolvedAt : Instant} {stored : StoredResolution}
    (h : Stores lib captureId permalink normalized body resolvedAt db stored db') :
    ∀ x ∈ db'.captures, ∃ y ∈ db.captures, x.provenance = y.provenance := by
  intro x hx
  rw [h.captures_eq] at hx
  obtain ⟨y, hy, rfl⟩ := Table.exists_of_mem_update hx
  refine ⟨y, hy, ?_⟩
  split <;> rfl

theorem origin_of_setStatus {captureId : Uuid} {p : CaptureStatus → Bool} {status : CaptureStatus}
    (h : db'.captures = (setStatus captureId p status db).captures) :
    ∀ x ∈ db'.captures, ∃ y ∈ db.captures, x.provenance = y.provenance := by
  intro x hx
  rw [h] at hx
  obtain ⟨y, hy, rfl⟩ := Table.exists_of_mem_update hx
  refine ⟨y, hy, ?_⟩
  split <;> rfl

end Contents

end InstagramArchive

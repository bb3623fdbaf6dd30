import InstagramArchive.Erasure
import InstagramArchive.Facts
import InstagramArchive.Reference

/-!
# Delivery of removals

The delivery columns of an outbox row are written by single statements that act on what
the table holds by then: the bookings of any number of relay passes, acknowledgements and
privacy deletions. `OutboxChange` says what each call can do to the rows, `Later` what any
run can make of one row, and `RowSound` what holds of a row in every reachable state.
-/

namespace InstagramArchive

open Relational Relational.Tx

/-- A removal without an answer; deletions keep these. -/
def OutboxEvent.unanswered (e : OutboxEvent) : Bool :=
  e.eventType = .sourceRemoved && e.acknowledgedAt.isNone

/-! ## Deletions -/

/-- The outbox lost answered rows and rows of other types, and gained rows nobody worked
on yet. -/
structure Trimmed (db db' : Db) : Prop where
  kept : ∀ e ∈ db.outboxEvents, e ∈ db'.outboxEvents ∨ e.unanswered = false
  origin : ∀ e ∈ db'.outboxEvents, e ∈ db.outboxEvents ∨ e.asAppended = e

section Deletions

variable {lib : Externals} {env : Env} {db db' : Db}

theorem Trimmed.of_eq (h : db'.outboxEvents = db.outboxEvents) : Trimmed db db' := by
  constructor
  · intro e he
    rw [h]
    exact Or.inl he
  · intro e he
    rw [h] at he
    exact Or.inl he

theorem Trimmed.trans {a b c : Db} (h : Trimmed a b) (h' : Trimmed b c) : Trimmed a c := by
  constructor
  · intro e he
    rcases h.kept e he with hb | hu
    · exact h'.kept e hb
    · exact Or.inr hu
  · intro e he
    rcases h'.origin e he with hb | hnew
    · exact h.origin e hb
    · exact Or.inr hnew

instance : IsPreorder Db Trimmed where
  refl _ := .of_eq rfl
  trans _ _ _ := .trans

theorem Appends.trimmed {row : OutboxEvent} (h : Appends db row db')
    (hrow : row.asAppended = row) : Trimmed db db' := by
  obtain ⟨t, ht, rfl⟩ := h
  constructor
  · intro e he
    exact Or.inl ((Table.mem_of_insert? ht e).mpr (Or.inl he))
  · intro e he
    rcases (Table.mem_of_insert? ht e).mp he with he | rfl
    · exact Or.inl he
    · exact Or.inr hrow

theorem dropAggregateEvents_trimmed (aggregateType : AggregateType) (aggregateId : Uuid) (db : Db) :
    Trimmed db (dropAggregateEvents aggregateType aggregateId db) := by
  constructor
  · intro e he
    cases hu : e.unanswered with
    | false => exact Or.inr rfl
    | true =>
      refine Or.inl (List.mem_filter.mpr ⟨he, ?_⟩)
      unfold OutboxEvent.unanswered at hu
      simp [hu]
  · intro e he
    exact Or.inl (List.mem_filter.mp he).1

/-- A statement of a deletion drops no unanswered removal and appends fresh rows only. -/
theorem Erasure.trimmed {request : DeletionRequest} (h : Erasure lib request db db') :
    Trimmed db db' := by
  cases h with
  | removal h => exact h.trimmed rfl
  | dropEvents aggregateType aggregateId => exact dropAggregateEvents_trimmed ..
  | _ => exact .of_eq rfl

/-- **What a deletion does to the outbox.** -/
theorem applyDeletion_trimmed (request : DeletionRequest) :
    (applyDeletion lib request).Respects Trimmed := by
  intro env db result db' h
  rcases applyDeletion_yields h with ⟨-, rfl⟩ | ⟨-, -, -, operations, effects, mid, pending, -, ht, rfl⟩
  · exact .of_eq rfl
  · have hstored : Trimmed db
        { db with deletionOperations := operations, deletionEffects := effects } := .of_eq rfl
    have herased := (applyTargetRows_erases env _ _ _ ht).rel fun _ _ h => Erasure.trimmed h
    exact (hstored.trans herased).trans (.of_eq rfl)

end Deletions

/-! ## What a call does to the rows -/

/-- What a call does to the rows of the outbox. -/
inductive OutboxChange (env : Env) (db : Db) : Call → Db → Prop
  | grew {call : Call} {db' : Db} (h : Grew (fun _ => True) db db') : OutboxChange env db call db'
  | booked {pass : RelayPass} {eventId : Uuid} {p : OutboxEvent → Bool}
      {f : OutboxEvent → OutboxEvent} {hf : ∀ e, (f e).eventId = e.eventId}
      (h : Booking env.now pass.resend eventId p f) :
      OutboxChange env db (.book pass) (updateOutbox p f hf db)
  | acknowledged {eventId : Uuid} {tenant : String} {outcome : AckOutcome} :
      OutboxChange env db (.acknowledge eventId tenant outcome)
        (updateOutbox (OutboxEvent.acknowledges eventId tenant)
          (OutboxEvent.acknowledged env.now outcome) (by intro; rfl) db)
  | trimmed {request : DeletionRequest} {db' : Db} (h : Trimmed db db') :
      OutboxChange env db (.delete request) db'

section Changes

variable {lib : Externals} {env : Env} {db db' : Db}

theorem OutboxChange.same {call : Call} (h : db'.outboxEvents = db.outboxEvents) :
    OutboxChange env db call db' := .grew (.of_eq h)

theorem Publishes.grew {mid : Db} {kind : FactKind} {captureId : Uuid}
    (h : Publishes lib kind captureId mid db') (hmid : mid.outboxEvents = db.outboxEvents) :
    Grew (fun _ => True) db db' := by
  obtain ⟨snapshot, eventId, occurredAt, -, happ⟩ := h
  have hsame : Grew (fun _ => True) db mid := .of_eq hmid
  exact hsame.trans (happ.grew rfl trivial)

theorem recordFailedResolution_grew {captureId : Uuid} {observed : AvailabilityObservationKind}
    {resolvedAt : Instant} {out : ResolutionOutcome}
    (h : (recordFailedResolution lib captureId observed resolvedAt).Yields env db out db') :
    Grew (fun _ => True) db db' := by
  obtain ⟨observations, mid, rfl, ⟨mediaId, -, -, hfact⟩ | ⟨-, rfl⟩⟩ :=
    recordFailedResolution_yields h
  · exact hfact.grew rfl
  · exact .of_eq rfl

/-- **What a call does to the outbox**, said once for every delivery invariant. -/
theorem Effect.outboxChange {call : Call} (h : Effect lib env db call db') :
    OutboxChange env db call db' := by
  cases h with
  | idle => exact .same rfl
  | submit h =>
    obtain ⟨_, _, -, -, ⟨_, _, -, -, rfl, -⟩ | ⟨_, -, rfl, -⟩⟩ := submitCaptureInTransaction_yields h
    · exact .same rfl
    · exact .same rfl
  | command h => exact .grew ((ingestBrowserCaptureCommand_grewSilently h).mono fun _ _ => trivial)
  | analysis h =>
    obtain ⟨completion, -, ⟨-, rfl, -⟩ | ⟨-, t, -, hh⟩⟩ := ingestAnalysisCompleted_yields h
    · exact .same rfl
    · obtain ⟨-, outcome, links, rfl⟩ := handleCompletion_yields hh
      exact .same rfl
  | claim h => exact .grew ((claimEach_grewSilently h).mono fun _ _ => trivial)
  | reschedule => exact .same rfl
  | store hcall hn h =>
    obtain ⟨mid, hstores, hfact⟩ := storeResolution_yields h
    have hmid : mid.outboxEvents = db.outboxEvents := by rw [hstores.frame]
    split at hfact
    · exact .grew (hfact.grew hmid)
    · rw [hfact]
      exact .same hmid
  | fail hcall ho h => exact .grew (recordFailedResolution_grew h)
  | unmapped h => exact .grew (recordFailedResolution_grew h)
  | report h => exact .grew ((reportPending_grewSilently h).mono fun _ _ => trivial)
  | unavailable h =>
    obtain ⟨m, t, rfl, rfl⟩ := writeUnavailable_yields h
    split
    · exact .same rfl
    · exact .same rfl
  | tombstone h =>
    obtain ⟨c, -, ⟨-, rfl, -⟩ | ⟨-, permalink, eventId, deletions, removals, m, -, -, happ, rfl⟩⟩ :=
      tombstoneCapture_yields h
    · exact .same rfl
    · exact .grew (happ.grew rfl trivial)
  | mediaFact h => exact .grew (h.grew rfl trivial)
  | book h => exact .booked h
  | acknowledge => exact .acknowledged
  | delete h => exact .trimmed (applyDeletion_trimmed _ env db _ db' h)

end Changes

/-! ## What a run makes of a row -/

/-- What the steps `actions` can make of the row `e`. -/
structure Later (actions : List Action) (e e' : OutboxEvent) : Prop where
  /-- The event id, its type and its payload stay, and so does everything else the row was
  appended with. -/
  asAppended : e'.asAppended = e.asAppended
  published : e.publishedAt.isSome → e'.publishedAt = e.publishedAt
  /-- An answer comes from an acknowledgement of this event for its tenant. -/
  answered : e.acknowledgedAt = none → ∀ t, e'.acknowledgedAt = some t →
    ∃ env outcome, .acknowledge env e.eventId e.payload.tenantId outcome ∈ actions ∧
      env.now = t ∧ e'.ackOutcome = some outcome
  acknowledged : e.acknowledgedAt.isSome →
    e'.acknowledgedAt = e.acknowledgedAt ∧ e'.ackOutcome = e.ackOutcome
  resendCount : e.acknowledgedAt.isSome → e'.resendCount = e.resendCount
  /-- Only a first publication arms an answered removal. -/
  nextResendAt : e.acknowledgedAt.isSome → e'.nextResendAt = e.nextResendAt ∨
    e.publishedAt = none ∧ ∃ now after, e'.publishedAt = some now ∧
      e'.nextResendAt = some (now + after)

/-- What holds of a row after the steps `actions`. The last two fields are the checks
`outbox_events_ack_pair_check` and `outbox_events_resend_removal_only_check`. -/
structure RowSound (actions : List Action) (e : OutboxEvent) : Prop where
  armed : e.awaitsAck → e.nextResendAt.isSome
  answered : ∀ t, e.acknowledgedAt = some t →
    ∃ env outcome, .acknowledge env e.eventId e.payload.tenantId outcome ∈ actions ∧
      env.now = t ∧ e.ackOutcome = some outcome
  paired : e.acknowledgedAt = none ↔ e.ackOutcome = none
  removalOnly : e.eventType = .sourceRemoved ∨
    e.acknowledgedAt = none ∧ e.resendCount = 0 ∧ e.nextResendAt = none

section Rows

variable {actions : List Action} {e e' e'' : OutboxEvent}

theorem Later.refl (actions : List Action) (e : OutboxEvent) : Later actions e e where
  asAppended := rfl
  published _ := rfl
  answered hnone t ht := by rw [hnone] at ht; cases ht
  acknowledged _ := ⟨rfl, rfl⟩
  resendCount _ := rfl
  nextResendAt _ := Or.inl rfl

theorem Later.eventId (h : Later actions e e') : e'.eventId = e.eventId :=
  congrArg (fun e => e.eventId) h.asAppended

theorem Later.tenantId (h : Later actions e e') : e'.payload.tenantId = e.payload.tenantId :=
  congrArg (fun e => e.payload.tenantId) h.asAppended

theorem Later.acknowledgedAt_isSome (h : Later actions e e') (ha : e.acknowledgedAt.isSome) :
    e'.acknowledgedAt.isSome := by
  rw [(h.acknowledged ha).1]
  exact ha

theorem Later.publishedAt_none (h : Later actions e e') (hp : e'.publishedAt = none) :
    e.publishedAt = none := by
  by_contra hne
  have hsome : e.publishedAt.isSome := Option.isSome_iff_ne_none.mpr hne
  exact hne (h.published hsome ▸ hp)

theorem Later.trans {before after : List Action} (h : Later before e e')
    (h' : Later after e' e'') : Later (before ++ after) e e'' where
  asAppended := h'.asAppended.trans h.asAppended
  published hp := by
    have hp' : e'.publishedAt.isSome := by rw [h.published hp]; exact hp
    exact (h'.published hp').trans (h.published hp)
  answered hnone t ht := by
    cases ha : e'.acknowledgedAt with
    | none =>
      obtain ⟨env, outcome, hmem, hnow, ho⟩ := h'.answered ha t ht
      rw [h.eventId, h.tenantId] at hmem
      exact ⟨env, outcome, List.mem_append.mpr (Or.inr hmem), hnow, ho⟩
    | some t' =>
      have hkept := h'.acknowledged (by simp [ha])
      have htt : t' = t := by
        rw [hkept.1, ha] at ht
        exact Option.some.inj ht
      obtain ⟨env, outcome, hmem, hnow, ho⟩ := h.answered hnone t' ha
      exact ⟨env, outcome, List.mem_append.mpr (Or.inl hmem), hnow.trans htt, hkept.2.trans ho⟩
  acknowledged ha := by
    have hkept := h'.acknowledged (h.acknowledgedAt_isSome ha)
    exact ⟨hkept.1.trans (h.acknowledged ha).1, hkept.2.trans (h.acknowledged ha).2⟩
  resendCount ha := (h'.resendCount (h.acknowledgedAt_isSome ha)).trans (h.resendCount ha)
  nextResendAt ha := by
    rcases h'.nextResendAt (h.acknowledgedAt_isSome ha) with hsame | ⟨hnone, harmed⟩
    · rcases h.nextResendAt ha with hfirst | ⟨hnone, now, wait, hp, hr⟩
      · exact Or.inl (hsame.trans hfirst)
      · have hp' := h'.published (by simp [hp])
        exact Or.inr ⟨hnone, now, wait, hp'.trans hp, hsame.trans hr⟩
    · exact Or.inr ⟨h.publishedAt_none hnone, harmed⟩

/-- A row nobody worked on yet. -/
theorem RowSound.of_asAppended (h : e.asAppended = e) : RowSound actions e := by
  rw [← h]
  constructor
  · simp [OutboxEvent.awaitsAck, OutboxEvent.asAppended]
  · intro t ht
    cases ht
  · exact iff_of_true rfl rfl
  · exact Or.inr ⟨rfl, rfl, rfl⟩

theorem RowSound.mono {more : List Action} (h : RowSound actions e) :
    RowSound (actions ++ more) e where
  armed := h.armed
  answered t ht := by
    obtain ⟨env, outcome, hmem, hrest⟩ := h.answered t ht
    exact ⟨env, outcome, List.mem_append.mpr (Or.inl hmem), hrest⟩
  paired := h.paired
  removalOnly := h.removalOnly

/-- **A booking keeps a row sound.** -/
theorem RowSound.booked {now : Instant} {resend : ResendPolicy} {eventId : Uuid}
    {p : OutboxEvent → Bool} {f : OutboxEvent → OutboxEvent}
    (hb : Booking now resend eventId p f) (h : RowSound actions e)
    (hp : p e = true) : RowSound actions (f e) := by
  cases hb with
  | published =>
    refine ⟨?_, h.answered, h.paired, ?_⟩
    · intro ha
      have hremoval : e.eventType = .sourceRemoved := by
        simp_all [OutboxEvent.awaitsAck, OutboxEvent.published]
      simp [OutboxEvent.published, hremoval]
    · rcases h.removalOnly with hremoval | ⟨ha, hc, -⟩
      · exact Or.inl hremoval
      · by_cases hremoval : e.eventType = .sourceRemoved
        · exact Or.inl hremoval
        · exact Or.inr ⟨ha, hc, by simp [OutboxEvent.published, hremoval]⟩
  | undeliverable reason => exact ⟨h.armed, h.answered, h.paired, h.removalOnly⟩
  | backedOff error => exact ⟨h.armed, h.answered, h.paired, h.removalOnly⟩
  | resent =>
    refine ⟨fun _ => rfl, h.answered, h.paired, Or.inl ?_⟩
    simp only [OutboxEvent.awaitsAck, Bool.and_eq_true, decide_eq_true_eq] at hp
    exact hp.2.1.1

/-- **A booking leaves an answered row alone**, unless it is its first publication. -/
theorem Booking.later {now : Instant} {resend : ResendPolicy} {eventId : Uuid}
    {p : OutboxEvent → Bool} {f : OutboxEvent → OutboxEvent}
    (hb : Booking now resend eventId p f) (h : RowSound actions e)
    (hp : p e = true) (more : List Action) : Later more e (f e) := by
  cases hb with
  | published =>
    have hnone : e.publishedAt = none := by simp_all
    refine ⟨rfl, ?_, (Later.refl more e).answered, fun _ => ⟨rfl, rfl⟩, fun _ => rfl, ?_⟩
    · simp [hnone]
    · intro ha
      have hremoval : e.eventType = .sourceRemoved := by
        rcases h.removalOnly with hremoval | ⟨hn, -⟩
        · exact hremoval
        · simp [hn] at ha
      exact Or.inr ⟨hnone, now, resend.after, rfl, by simp [OutboxEvent.published, hremoval]⟩
  | undeliverable reason =>
    have hr := Later.refl more e
    exact ⟨rfl, hr.published, hr.answered, hr.acknowledged, hr.resendCount, hr.nextResendAt⟩
  | backedOff error =>
    have hr := Later.refl more e
    exact ⟨rfl, hr.published, hr.answered, hr.acknowledged, hr.resendCount, hr.nextResendAt⟩
  | resent =>
    have hnone : e.acknowledgedAt = none := by simp_all [OutboxEvent.awaitsAck]
    have hr := Later.refl more e
    exact ⟨rfl, hr.published, hr.answered, hr.acknowledged, by simp [hnone], by simp [hnone]⟩

/-- What an acknowledgement needs of the row it answers. -/
theorem OutboxEvent.acknowledges_iff {eventId : Uuid} {tenant : String} :
    e.acknowledges eventId tenant = true ↔ e.eventId = eventId ∧ e.eventType = .sourceRemoved ∧
      e.payload.tenantId = tenant ∧ e.acknowledgedAt = none := by
  simp [OutboxEvent.acknowledges, and_assoc]

theorem RowSound.acknowledged {env : Env} {eventId : Uuid} {tenant : String} {outcome : AckOutcome}
    (hp : e.acknowledges eventId tenant = true) :
    RowSound (actions ++ [.acknowledge env eventId tenant outcome])
      (e.acknowledged env.now outcome) := by
  obtain ⟨rfl, hremoval, rfl, -⟩ := OutboxEvent.acknowledges_iff.mp hp
  refine ⟨?_, ?_, ?_, Or.inl hremoval⟩
  · simp [OutboxEvent.awaitsAck, OutboxEvent.acknowledged]
  · intro t ht
    exact ⟨env, outcome, by simp [OutboxEvent.acknowledged], Option.some.inj ht, rfl⟩
  · simp [OutboxEvent.acknowledged]

theorem Later.acknowledge {env : Env} {eventId : Uuid} {tenant : String} {outcome : AckOutcome}
    (hp : e.acknowledges eventId tenant = true) :
    Later [.acknowledge env eventId tenant outcome] e (e.acknowledged env.now outcome) := by
  obtain ⟨rfl, -, rfl, hnone⟩ := OutboxEvent.acknowledges_iff.mp hp
  refine ⟨rfl, fun _ => rfl, ?_, by simp [hnone], fun _ => rfl, fun _ => Or.inl rfl⟩
  intro _ t ht
  exact ⟨env, outcome, by simp, Option.some.inj ht, rfl⟩

end Rows

/-! ## Steps and runs -/

section Runs

variable {lib : Externals} {env : Env} {s : System} {a : Action} {actions : List Action}

theorem System.call_acknowledge {eventId : Uuid} {tenant : String} {outcome : AckOutcome}
    (h : s.call a = some (env, .acknowledge eventId tenant outcome)) :
    a = .acknowledge env eventId tenant outcome := by
  cases a <;> simp_all [System.call, Option.bind_eq_some_iff, Option.map_eq_some_iff]

/-- **Every row a step leaves is sound.** -/
theorem RowSound.step (h : ∀ e ∈ s.db.outboxEvents, RowSound actions e) :
    ∀ e ∈ (step lib s a).db.outboxEvents, RowSound (actions ++ [a]) e := by
  intro e he
  rcases step_effect lib s a with ⟨-, hdb⟩ | ⟨env, call, hcall, heffect⟩
  · rw [hdb] at he
    exact (h e he).mono
  generalize (InstagramArchive.step lib s a).db = db' at he heffect
  cases heffect.outboxChange with
  | grew hgrew =>
    obtain ⟨new, hrows, hnew⟩ := hgrew
    rw [Table.mem_rows, hrows] at he
    rcases List.mem_append.mp he with he | he
    · exact (h e he).mono
    · exact .of_asAppended (hnew e he).1
  | booked hb =>
    obtain ⟨old, hold, rfl⟩ := Table.exists_of_mem_update he
    split
    · rename_i hp
      exact (RowSound.booked hb (h old hold) hp).mono
    · exact (h old hold).mono
  | acknowledged =>
    obtain ⟨old, hold, rfl⟩ := Table.exists_of_mem_update he
    rw [System.call_acknowledge hcall]
    split
    · rename_i hp
      exact .acknowledged hp
    · exact (h old hold).mono
  | trimmed htrim =>
    rcases htrim.origin e he with he | hnew
    · exact (h e he).mono
    · exact .of_asAppended hnew

/-- **A step carries a row on**, or it is a deletion and nobody waits for an answer. -/
theorem Later.step (lib : Externals) (a : Action)
    (h : ∀ e ∈ s.db.outboxEvents, RowSound actions e) {e : OutboxEvent}
    (he : e ∈ s.db.outboxEvents) :
    (∃ e' ∈ (step lib s a).db.outboxEvents, Later [a] e e') ∨
      (∃ env request, a = .delete env request) ∧ e.unanswered = false := by
  rcases step_effect lib s a with ⟨-, hdb⟩ | ⟨env, call, hcall, heffect⟩
  · rw [hdb]
    exact Or.inl ⟨e, he, .refl _ e⟩
  generalize (InstagramArchive.step lib s a).db = db' at heffect
  cases heffect.outboxChange with
  | grew hgrew =>
    obtain ⟨new, hrows, -⟩ := hgrew
    refine Or.inl ⟨e, ?_, .refl _ e⟩
    rw [Table.mem_rows, hrows]
    exact List.mem_append.mpr (Or.inl he)
  | @booked _ _ p f hf hb =>
    refine Or.inl ⟨_, Table.mem_update_of_mem _ p f hf he, ?_⟩
    split
    · rename_i hp
      exact hb.later (h e he) hp _
    · exact .refl _ e
  | acknowledged =>
    refine Or.inl ⟨_, Table.mem_update_of_mem _ _ _ (by intro; rfl) he, ?_⟩
    rw [System.call_acknowledge hcall]
    split
    · rename_i hp
      exact .acknowledge hp
    · exact .refl _ e
  | trimmed htrim =>
    rcases htrim.kept e he with hkept | hanswered
    · exact Or.inl ⟨e, hkept, .refl _ e⟩
    · exact Or.inr ⟨⟨env, _, System.call_delete hcall⟩, hanswered⟩

theorem rowSound_run (hs : s.db.outboxEvents.rows = []) (actions : List Action) :
    ∀ e ∈ (run (step lib) s actions).db.outboxEvents, RowSound actions e := by
  induction actions using List.reverseRecOn with
  | nil =>
    intro e he
    rw [run_nil, Table.mem_rows, hs] at he
    exact (List.not_mem_nil he).elim
  | append_singleton before a ih =>
    rw [run_concat]
    exact RowSound.step ih

/-- **Delivery of removals.** In every interleaving of passes, acknowledgements, appends and
deletions, every row is sound: a published removal without an answer is armed, an answer
comes with its outcome and from an acknowledgement of that event for its tenant. And a row is
carried on by every further step, its content, its publication and its answer written once and
its resend schedule frozen by the answer, until a deletion meets it as something else than a
removal without an answer. -/
theorem removal_delivery (lib : Externals) (s : System) (hs : s.db.outboxEvents.rows = [])
    (before after : List Action) :
    (∀ e ∈ (run (step lib) s before).db.outboxEvents, RowSound before e) ∧
    ∀ e ∈ (run (step lib) s before).db.outboxEvents,
      (∃ e' ∈ (run (step lib) s (before ++ after)).db.outboxEvents, Later after e e') ∨
      ∃ kept env request rest, after = kept ++ .delete env request :: rest ∧
        ∃ e' ∈ (run (step lib) s (before ++ kept)).db.outboxEvents,
          Later kept e e' ∧ e'.unanswered = false := by
  refine ⟨rowSound_run hs before, ?_⟩
  intro e he
  -- on the steps taken since, from the end: the newest step carries the row on or drops it
  induction after using List.reverseRecOn with
  | nil =>
    rw [List.append_nil]
    exact Or.inl ⟨e, he, .refl [] e⟩
  | append_singleton since a ih =>
    rcases ih with ⟨e', he', hlater⟩ | ⟨kept, env, request, rest, rfl, hdropped⟩
    · rw [← List.append_assoc, run_concat]
      rcases Later.step lib a (rowSound_run hs (before ++ since)) he' with
        ⟨e'', he'', hstep⟩ | ⟨⟨env, request, rfl⟩, hanswered⟩
      · exact Or.inl ⟨e'', he'', hlater.trans hstep⟩
      · exact Or.inr ⟨since, env, request, [], rfl, e', he', hlater, hanswered⟩
    · exact Or.inr ⟨kept, env, request, rest ++ [a], by simp, hdropped⟩

/-- A removal is appended, delivered and marked. -/
def publishedRemoval : List Action :=
  [.submit (quietEnv 10 100) ⟨1, "http://instagr.am/p/A", 5, .iosShareExtension, none, none⟩,
    .tombstone (quietEnv 20 200) 100 .userRequested 20,
    .beginPass (quietEnv 30 300) 10 .default,
    .deliver 0 (.ok ()),
    .book (quietEnv 40 400) 0]

/-- Its answer. -/
def removalAnswer : List Action := [.acknowledge (quietEnv 50 500) 204 "user:1" .applied]

theorem removal_delivery_publishedRemoval :
    (run (step reference) {} publishedRemoval).db.outboxEvents.rows.map
        (fun e => (e.eventId, e.awaitsAck, e.nextResendAt)) = [(204, true, some 600000040)] ∧
      (∀ e ∈ (run (step reference) {} publishedRemoval).db.outboxEvents,
        RowSound publishedRemoval e) ∧
      ∀ e ∈ (run (step reference) {} publishedRemoval).db.outboxEvents,
        ∃ e' ∈ (run (step reference) {} (publishedRemoval ++ removalAnswer)).db.outboxEvents,
          Later removalAnswer e e' := by
  obtain ⟨hsound, hkept⟩ := removal_delivery reference {} rfl publishedRemoval removalAnswer
  refine ⟨by decide +kernel, hsound, ?_⟩
  intro e he
  rcases hkept e he with hlater | ⟨kept, env, request, rest, hafter, -⟩
  · exact hlater
  · have hmem : Action.delete env request ∈ removalAnswer := by simp [hafter]
    simp [removalAnswer] at hmem

end Runs

end InstagramArchive

import InstagramArchive.AnalysisLinkage
import InstagramArchive.CaptureResolution
import InstagramArchive.PrivacyDeletion
import InstagramArchive.Relay
import InstagramArchive.Tombstone
import InstagramArchive.Relational.Execution

/-!
# The archive as a system

The database together with everything in flight between two transactions: resolver
workers with their leases, direct resolutions that have read a permalink, fallback
recordings that have read a status, and relay passes. An action carries every choice
of its step: the environment of its transaction, the answer of the public surface or
of the transport, the rows that other transactions hold locked. A crash is a worker
or a pass that is never advanced again.

`Call` is the transaction an action runs, and `step_db` says that a step changes the
database by its call alone.
-/

namespace InstagramArchive

open Relational Relational.Tx Permalink

/-- A resolver pass between two of its transactions. -/
structure Worker where
  now : Instant
  policy : ResolutionPolicy
  leased : List Leased
  /-- A capture that is concluded and not reported yet. -/
  concluding : Option Uuid := none
  summary : ResolutionSummary

/-- `resolve_capture_permalink` between its read and the answer of the surface. -/
structure Fetch where
  captureId : Uuid
  permalink : CanonicalPermalink
  resolvedAt : Instant
  deriving DecidableEq

/-- `record_capture_unavailable` between its status read and its writes. -/
structure Observer where
  captureId : Uuid
  observed : AvailabilityObservationKind
  observedAt : Instant
  status : CaptureStatus

structure System where
  db : Db := {}
  workers : List Worker := []
  fetches : List Fetch := []
  observers : List Observer := []
  passes : List RelayPass := []
  /-- What the transport accepted, in order. -/
  delivered : List Selected := []

/-! ## Transactions -/

/-- A fact the official or the export lane appends for a media row. -/
structure MediaFact where
  kind : FactKind
  mediaId : Uuid
  snapshot : SocialSourceSnapshot
  occurredAt : Instant

def mediaFactRow (fact : MediaFact) (eventId : Uuid) : OutboxEvent :=
  { factRow fact.kind fact.mediaId fact.snapshot eventId fact.occurredAt with
    aggregateType := .media }

/-- The append of another lane; how it builds its snapshot is left open. -/
def appendMediaFact (fact : MediaFact) : ArchiveTx PublishError Unit := do
  let eventId ← nowV7
  insertOutboxEvent (mediaFactRow fact eventId)

/-- The transaction a step runs. -/
inductive Call where
  | submit (request : CaptureRequest)
  | command (delivery : CommandDelivery)
  | analysis (delivery : AnalysisDelivery)
  | claim (now : Instant) (policy : ResolutionPolicy) (locked : List Uuid)
  | resolve (lease : Leased) (now : Instant) (policy : ResolutionPolicy) (outcome : SurfaceOutcome)
  | report (captureId : Uuid) (now : Instant)
  | apply (fetch : Fetch) (outcome : SurfaceOutcome)
  | unavailable (observer : Observer)
  | tombstone (captureId : Uuid) (reason : RemovalReason) (removedAt : Instant)
  | mediaFact (fact : MediaFact)
  | book (pass : RelayPass)
  | acknowledge (eventId : Uuid) (tenant : String) (outcome : AckOutcome)
  | delete (request : DeletionRequest)

/-- The database after a transaction. -/
def Call.perform (lib : Externals) (env : Env) (db : Db) : Call → Db
  | .submit request => ((submitCapture request).exec env db).2
  | .command delivery => ((ingestBrowserCaptureCommand lib delivery).exec env db).2
  | .analysis delivery => ((ingestAnalysisCompleted lib delivery).exec env db).2
  | .claim now policy locked => ((InstagramArchive.claim lib now policy locked).exec env db).2
  | .resolve lease now policy outcome => ((resolveOne lib lease now policy outcome).exec env db).2
  | .report captureId now => ((reportConcluded lib captureId now).exec env db).2
  | .apply fetch outcome =>
    ((applySurfaceOutcome lib fetch.captureId fetch.permalink outcome fetch.resolvedAt).exec
      env db).2
  | .unavailable observer =>
    ((writeUnavailable observer.captureId observer.observed observer.observedAt
      observer.status).exec env db).2
  | .tombstone captureId reason removedAt =>
    ((tombstoneCapture lib captureId reason removedAt).exec env db).2
  | .mediaFact fact => ((appendMediaFact fact).exec env db).2
  | .book pass => (pass.book.exec env db).2
  | .acknowledge eventId tenant outcome =>
    ((InstagramArchive.acknowledge eventId tenant outcome).exec env db).2
  | .delete request => ((applyDeletion lib request).exec env db).2

/-! ## What a transaction can do -/

/-- The call applies a surface outcome to a capture under a permalink. -/
def Call.Applies (captureId : Uuid) (permalink : CanonicalPermalink) (outcome : SurfaceOutcome)
    (resolvedAt : Instant) : Call → Prop
  | .apply fetch answer => fetch = ⟨captureId, permalink, resolvedAt⟩ ∧ answer = outcome
  | .resolve lease now _ answer =>
    lease.captureId = captureId ∧ canonicalize lease.canonicalUrl = .ok permalink ∧
      spentOutcome answer = outcome ∧ now = resolvedAt
  | _ => False

/-- What a call can leave in the database, abort and no effect included. -/
inductive Effect (lib : Externals) (env : Env) (db : Db) : Call → Db → Prop
  | idle {call : Call} : Effect lib env db call db
  | submit {request : CaptureRequest} {submission : CaptureSubmission} {db' : Db}
      (h : (submitCaptureInTransaction request).Yields env db submission db') :
      Effect lib env db (.submit request) db'
  | command {delivery : CommandDelivery} {out : BrowserCaptureIngested} {db' : Db}
      (h : (ingestBrowserCaptureCommand lib delivery).Yields env db out db') :
      Effect lib env db (.command delivery) db'
  | analysis {delivery : AnalysisDelivery} {out : AnalysisCompletionOutcome} {db' : Db}
      (h : (ingestAnalysisCompleted lib delivery).Yields env db out db') :
      Effect lib env db (.analysis delivery) db'
  | claim {now : Instant} {policy : ResolutionPolicy} {locked : List Uuid} {batch : List Capture}
      {out : List Leased × Nat} {db' : Db} (h : (claimEach lib now batch).Yields env db out db') :
      Effect lib env db (.claim now policy locked) db'
  | reschedule {lease : Leased} {now : Instant} {policy : ResolutionPolicy}
      {outcome : SurfaceOutcome} :
      Effect lib env db (.resolve lease now policy outcome)
        (rescheduleCapture lease.captureId lease.attempt now db)
  | store {call : Call} {captureId : Uuid} {permalink : CanonicalPermalink} {body : String}
      {normalized : NormalizedMedia} {resolvedAt : Instant} {stored : StoredResolution} {db' : Db}
      (hcall : call.Applies captureId permalink (.payload body) resolvedAt)
      (hn : normalize lib body permalink.kind = some normalized)
      (h : (storeResolution lib captureId permalink normalized body resolvedAt).Yields env db
        stored db') : Effect lib env db call db'
  | fail {call : Call} {captureId : Uuid} {permalink : CanonicalPermalink}
      {outcome : SurfaceOutcome} {observed : AvailabilityObservationKind} {resolvedAt : Instant}
      {out : ResolutionOutcome} {db' : Db}
      (hcall : call.Applies captureId permalink outcome resolvedAt)
      (ho : observed = .deleted ↔ outcome = .deleted)
      (h : (recordFailedResolution lib captureId observed resolvedAt).Yields env db out db') :
      Effect lib env db call db'
  | unmapped {lease : Leased} {now : Instant} {policy : ResolutionPolicy}
      {outcome : SurfaceOutcome} {out : ResolutionOutcome} {db' : Db}
      (h : (recordFailedResolution lib lease.captureId .resolutionFailed now).Yields env db
        out db') : Effect lib env db (.resolve lease now policy outcome) db'
  | report {captureId : Uuid} {now : Instant} {n : Nat} {db' : Db}
      (h : (reportPending lib captureId now).Yields env db n db') :
      Effect lib env db (.report captureId now) db'
  | unavailable {observer : Observer} {status : CaptureStatus} {db' : Db}
      (h : (writeUnavailable observer.captureId observer.observed observer.observedAt
        observer.status).Yields env db status db') : Effect lib env db (.unavailable observer) db'
  | tombstone {captureId : Uuid} {reason : RemovalReason} {removedAt : Instant}
      {out : TombstoneOutcome} {db' : Db}
      (h : (tombstoneCapture lib captureId reason removedAt).Yields env db out db') :
      Effect lib env db (.tombstone captureId reason removedAt) db'
  | mediaFact {fact : MediaFact} {eventId : Uuid} {db' : Db}
      (h : Appends db (mediaFactRow fact eventId) db') : Effect lib env db (.mediaFact fact) db'
  | book {pass : RelayPass} {eventId : Uuid} {p : OutboxEvent → Bool}
      {f : OutboxEvent → OutboxEvent} {hf : ∀ e, (f e).eventId = e.eventId}
      (h : Booking env.now pass.resend eventId p f) :
      Effect lib env db (.book pass) (updateOutbox p f hf db)
  | acknowledge {eventId : Uuid} {tenant : String} {outcome : AckOutcome} :
      Effect lib env db (.acknowledge eventId tenant outcome)
        (updateOutbox (OutboxEvent.acknowledges eventId tenant)
          (OutboxEvent.acknowledged env.now outcome) (by intro; rfl) db)
  | delete {request : DeletionRequest} {result : DeletionResult} {db' : Db}
      (h : (applyDeletion lib request).Yields env db result db') :
      Effect lib env db (.delete request) db'

section Effects

variable {lib : Externals} {env : Env} {db db' : Db}

theorem Effect.ofApply {call : Call} {captureId : Uuid} {permalink : CanonicalPermalink}
    {outcome : SurfaceOutcome} {resolvedAt : Instant} {out : ResolutionOutcome}
    (hcall : call.Applies captureId permalink outcome resolvedAt)
    (h : (applySurfaceOutcome lib captureId permalink outcome resolvedAt).Yields env db out db') :
    Effect lib env db call db' := by
  rcases applySurfaceOutcome_yields h with ⟨body, normalized, stored, rfl, hn, -, hs⟩ |
    ⟨observed, ho, -, hf⟩
  · exact .store hcall hn hs
  · exact .fail hcall ho hf

/-- A call that applies an outcome other than the spent retry budget stores what
`applySurfaceOutcome` stores. -/
theorem Call.Applies.perform_eq {call : Call} {captureId : Uuid} {permalink : CanonicalPermalink}
    {outcome : SurfaceOutcome} {resolvedAt : Instant}
    (h : call.Applies captureId permalink outcome resolvedAt)
    (ho : outcome ≠ .temporarilyUnavailable) :
    call.perform lib env db =
      ((applySurfaceOutcome lib captureId permalink outcome resolvedAt).exec env db).2 := by
  cases call with
  | apply fetch answer =>
    obtain ⟨rfl, rfl⟩ := h
    rfl
  | resolve lease now policy answer =>
    obtain ⟨rfl, hp, rfl, rfl⟩ := h
    have htransient : answer.isTransient = false := by
      by_contra hne
      exact ho (by simp [spentOutcome, hne])
    have hspent : spentOutcome answer = answer := by simp [spentOutcome, htransient]
    simp only [Call.perform, resolveOne, hp, htransient, hspent, Bool.false_and, Bool.false_eq_true,
      if_false]
    exact exec_mapError_then _ _ _ _ _
  | _ => exact h.elim

/-- **What a call can do**, said once for every invariant. -/
theorem Call.effect (lib : Externals) (env : Env) (db : Db) (call : Call) :
    Effect lib env db call (call.perform lib env db) := by
  cases call with
  | submit request =>
    exact exec_rel (fun _ t => Effect lib env db _ t) _ env db .idle
      fun _ _ h => .submit (submitCapture_yields h)
  | command delivery =>
    exact exec_rel (fun _ t => Effect lib env db _ t) _ env db .idle fun _ _ h => .command h
  | analysis delivery =>
    exact exec_rel (fun _ t => Effect lib env db _ t) _ env db .idle fun _ _ h => .analysis h
  | claim now policy locked =>
    refine exec_rel (fun _ t => Effect lib env db _ t) _ env db .idle fun _ _ h => ?_
    obtain ⟨reported, hc⟩ := claim_yields h
    exact .claim hc
  | resolve lease now policy outcome =>
    refine exec_rel (fun _ t => Effect lib env db _ t) _ env db .idle fun _ _ h => ?_
    rcases resolveOne_yields h with ⟨-, rfl⟩ | ⟨e, out, -, hf⟩ | ⟨permalink, out, hp, ha⟩
    · exact .reschedule
    · exact .unmapped hf
    · exact .ofApply ⟨rfl, hp, rfl, rfl⟩ ha
  | report captureId now =>
    exact exec_rel (fun _ t => Effect lib env db _ t) _ env db .idle
      fun _ _ h => .report (reportConcluded_yields h)
  | apply fetch outcome =>
    exact exec_rel (fun _ t => Effect lib env db _ t) _ env db .idle
      fun _ _ h => .ofApply ⟨rfl, rfl⟩ h
  | unavailable observer =>
    exact exec_rel (fun _ t => Effect lib env db _ t) _ env db .idle fun _ _ h => .unavailable h
  | tombstone captureId reason removedAt =>
    exact exec_rel (fun _ t => Effect lib env db _ t) _ env db .idle fun _ _ h => .tombstone h
  | mediaFact fact =>
    refine exec_rel (fun _ t => Effect lib env db _ t) _ env db .idle fun _ _ h => ?_
    obtain ⟨eventId, _, h1, h⟩ := h.bind
    obtain rfl := h1.nowV7
    exact .mediaFact (insertOutboxEvent_yields h)
  | book pass =>
    refine exec_rel (fun _ t => Effect lib env db _ t) _ env db .idle fun _ _ h => ?_
    rcases RelayPass.book_yields h with ⟨-, rfl⟩ | ⟨p, f, hf, hbooks, rfl⟩
    · exact .idle
    · obtain ⟨eventId, hb⟩ := hbooks.booking
      exact .book hb
  | acknowledge eventId tenant outcome =>
    refine exec_rel (fun _ t => Effect lib env db _ t) _ env db .idle fun _ _ h => ?_
    rw [acknowledge_yields h]
    exact .acknowledge
  | delete request =>
    exact exec_rel (fun _ t => Effect lib env db _ t) _ env db .idle fun _ _ h => .delete h

end Effects

/-! ## Steps -/

inductive Action where
  | submit (env : Env) (request : CaptureRequest)
  | command (env : Env) (delivery : CommandDelivery)
  | analysis (env : Env) (delivery : AnalysisDelivery)
  /-- A resolver pass begins: its claim, with the rows it finds locked. -/
  | claim (env : Env) (now : Instant) (policy : ResolutionPolicy) (locked : List Uuid)
  /-- A worker's next lease is fetched, and concluded or rescheduled. -/
  | resolve (env : Env) (worker : Nat) (outcome : SurfaceOutcome)
  /-- A worker reports the capture it concluded. -/
  | report (env : Env) (worker : Nat)
  | beginFetch (env : Env) (captureId : Uuid) (resolvedAt : Instant)
  | applyFetch (env : Env) (fetch : Nat) (outcome : SurfaceOutcome)
  | beginUnavailable (env : Env) (captureId : Uuid) (observed : AvailabilityObservationKind)
      (observedAt : Instant)
  | finishUnavailable (env : Env) (observer : Nat)
  | tombstone (env : Env) (captureId : Uuid) (reason : RemovalReason) (removedAt : Instant)
  | mediaFact (env : Env) (fact : MediaFact)
  | beginPass (env : Env) (batch : Nat) (resend : ResendPolicy)
  /-- A pass hands its next row to the transport. -/
  | deliver (pass : Nat) (answer : TransportAnswer)
  | book (env : Env) (pass : Nat)
  | resendDue (env : Env) (pass : Nat)
  | acknowledge (env : Env) (eventId : Uuid) (tenant : String) (outcome : AckOutcome)
  | delete (env : Env) (request : DeletionRequest)

/-- The lease a worker works on next: it has reported what it concluded before. -/
def Worker.next (w : Worker) : Option Leased :=
  if w.concluding.isNone then w.leased.head? else none

/-- The transaction an action runs in a state, if it runs one that can write. -/
def System.call (s : System) : Action → Option (Env × Call)
  | .submit env request => some (env, .submit request)
  | .command env delivery => some (env, .command delivery)
  | .analysis env delivery => some (env, .analysis delivery)
  | .claim env now policy locked => some (env, .claim now policy locked)
  | .resolve env i outcome =>
    s.workers[i]?.bind fun w => w.next.map fun lease => (env, .resolve lease w.now w.policy outcome)
  | .report env i =>
    s.workers[i]?.bind fun w => w.concluding.map fun captureId => (env, .report captureId w.now)
  | .applyFetch env i outcome => s.fetches[i]?.map fun f => (env, .apply f outcome)
  | .finishUnavailable env i => s.observers[i]?.map fun o => (env, .unavailable o)
  | .tombstone env captureId reason removedAt => some (env, .tombstone captureId reason removedAt)
  | .mediaFact env fact => some (env, .mediaFact fact)
  | .book env i => s.passes[i]?.map fun p => (env, .book p)
  | .acknowledge env eventId tenant outcome => some (env, .acknowledge eventId tenant outcome)
  | .delete env request => some (env, .delete request)
  | .beginFetch .. | .beginUnavailable .. | .beginPass .. | .deliver .. | .resendDue .. => none

/-- The worker after the transaction that followed a fetch. A failure leaves the
capture to the next pass. -/
def Worker.resolved (w : Worker) (lease : Leased) :
    Except CaptureResolutionError Attempt → Worker
  | .ok .retried =>
    { w with leased := w.leased.tail
             summary := { w.summary with fetched := w.summary.fetched + 1
                                         retried := w.summary.retried + 1 } }
  | .ok (.concluded fetched) =>
    { w with leased := w.leased.tail
             concluding := some lease.captureId
             summary := { w.summary with fetched := w.summary.fetched + fetched.toNat } }
  | .error _ =>
    { w with leased := w.leased.tail
             summary := { w.summary with failed := w.summary.failed + 1 } }

/-- The worker after its report transaction. -/
def Worker.reportedBy (w : Worker) : Except CaptureResolutionError Nat → Worker
  | .ok reported =>
    { w with concluding := none
             summary := { w.summary with reported := w.summary.reported + reported } }
  | .error _ =>
    { w with concluding := none, summary := { w.summary with failed := w.summary.failed + 1 } }

/-- The pass after one of its statements; a failed statement ends it. -/
def advancePass (passes : List RelayPass) (i : Nat) : Except SqlError RelayPass → List RelayPass
  | .ok pass => passes.set i pass
  | .error _ => passes.eraseIdx i

/-- One step of the archive. -/
def step (lib : Externals) (s : System) : Action → System
  | .submit env request => { s with db := (Call.submit request).perform lib env s.db }
  | .command env delivery => { s with db := (Call.command delivery).perform lib env s.db }
  | .analysis env delivery => { s with db := (Call.analysis delivery).perform lib env s.db }
  | .claim env now policy locked =>
    match (InstagramArchive.claim lib now policy locked).exec env s.db with
    | (.ok (leased, summary), db) =>
      { s with db, workers := s.workers ++ [{ now, policy, leased, summary }] }
    | (.error _, db) => { s with db }
  | .resolve env i outcome =>
    match s.workers[i]? with
    | none => s
    | some w => match w.next with
      | none => s
      | some lease =>
        match (resolveOne lib lease w.now w.policy outcome).exec env s.db with
        | (result, db) => { s with db, workers := s.workers.set i (w.resolved lease result) }
  | .report env i =>
    match s.workers[i]? with
    | none => s
    | some w => match w.concluding with
      | none => s
      | some captureId =>
        match (reportConcluded lib captureId w.now).exec env s.db with
        | (result, db) => { s with db, workers := s.workers.set i (w.reportedBy result) }
  | .beginFetch env captureId resolvedAt =>
    match ((storedCapturePermalink captureId).exec env s.db).1 with
    | .ok permalink => { s with fetches := s.fetches ++ [⟨captureId, permalink, resolvedAt⟩] }
    | .error _ => s
  | .applyFetch env i outcome =>
    match s.fetches[i]? with
    | none => s
    | some f =>
      { s with db := (Call.apply f outcome).perform lib env s.db, fetches := s.fetches.eraseIdx i }
  | .beginUnavailable env captureId observed observedAt =>
    match ((readStatus captureId).exec env s.db).1 with
    | .ok status =>
      { s with observers := s.observers ++ [⟨captureId, observed, observedAt, status⟩] }
    | .error _ => s
  | .finishUnavailable env i =>
    match s.observers[i]? with
    | none => s
    | some o =>
      { s with db := (Call.unavailable o).perform lib env s.db,
               observers := s.observers.eraseIdx i }
  | .tombstone env captureId reason removedAt =>
    { s with db := (Call.tombstone captureId reason removedAt).perform lib env s.db }
  | .mediaFact env fact => { s with db := (Call.mediaFact fact).perform lib env s.db }
  | .beginPass env batch resend =>
    match ((InstagramArchive.beginPass batch resend).exec env s.db).1 with
    | .ok pass => { s with passes := s.passes ++ [pass] }
    | .error _ => s
  | .deliver i answer =>
    match s.passes[i]?.bind fun p => p.deliver answer with
    | none => s
    | some (row, pass) =>
      { s with passes := s.passes.set i pass
               delivered := if answer.toBool then s.delivered ++ [row] else s.delivered }
  | .book env i =>
    match s.passes[i]? with
    | none => s
    | some p =>
      match p.book.exec env s.db with
      | (result, db) => { s with db, passes := advancePass s.passes i result }
  | .resendDue env i =>
    match s.passes[i]? with
    | none => s
    | some p => { s with passes := advancePass s.passes i (p.resendDue.exec env s.db).1 }
  | .acknowledge env eventId tenant outcome =>
    { s with db := (Call.acknowledge eventId tenant outcome).perform lib env s.db }
  | .delete env request => { s with db := (Call.delete request).perform lib env s.db }

/-- **A step changes the database by its call alone.** -/
theorem step_db (lib : Externals) (s : System) (a : Action) :
    (step lib s a).db =
      match s.call a with
      | some (env, call) => call.perform lib env s.db
      | none => s.db := by
  cases a with
  | submit | command | analysis | tombstone | mediaFact | acknowledge | delete => rfl
  | claim env now policy locked =>
    simp only [step, System.call, Call.perform]
    split <;> simp_all
  | resolve env i outcome =>
    simp only [step, System.call]
    cases s.workers[i]? with
    | none => rfl
    | some w =>
      simp only [Option.bind_some]
      cases w.next <;> rfl
  | report env i =>
    simp only [step, System.call]
    cases s.workers[i]? with
    | none => rfl
    | some w =>
      simp only [Option.bind_some]
      cases w.concluding <;> rfl
  | applyFetch env i outcome =>
    simp only [step, System.call]
    cases s.fetches[i]? <;> rfl
  | finishUnavailable env i =>
    simp only [step, System.call]
    cases s.observers[i]? <;> rfl
  | book env i =>
    simp only [step, System.call]
    cases s.passes[i]? <;> rfl
  | beginFetch env captureId resolvedAt =>
    simp only [step, System.call]
    split <;> rfl
  | beginUnavailable env captureId observed observedAt =>
    simp only [step, System.call]
    split <;> rfl
  | beginPass env batch resend =>
    simp only [step, System.call]
    split <;> rfl
  | deliver i answer =>
    simp only [step, System.call]
    split <;> rfl
  | resendDue env i =>
    simp only [step, System.call]
    split <;> rfl

/-- A step leaves the database alone or has the effect of its call. -/
theorem step_effect (lib : Externals) (s : System) (a : Action) :
    (s.call a = none ∧ (step lib s a).db = s.db) ∨
      ∃ env call, s.call a = some (env, call) ∧ Effect lib env s.db call (step lib s a).db := by
  rw [step_db]
  cases hc : s.call a with
  | none => exact Or.inl ⟨rfl, rfl⟩
  | some p => exact Or.inr ⟨p.1, p.2, rfl, Call.effect lib p.1 s.db p.2⟩

theorem System.call_command {s : System} {a : Action} {env : Env} {delivery : CommandDelivery}
    (h : s.call a = some (env, .command delivery)) : a = .command env delivery := by
  cases a <;> simp_all [System.call, Option.bind_eq_some_iff, Option.map_eq_some_iff]

theorem System.call_submit {s : System} {a : Action} {env : Env} {request : CaptureRequest}
    (h : s.call a = some (env, .submit request)) : a = .submit env request := by
  cases a <;> simp_all [System.call, Option.bind_eq_some_iff, Option.map_eq_some_iff]

theorem System.call_delete {s : System} {a : Action} {env : Env} {request : DeletionRequest}
    (h : s.call a = some (env, .delete request)) : a = .delete env request := by
  cases a <;> simp_all [System.call, Option.bind_eq_some_iff, Option.map_eq_some_iff]

end InstagramArchive

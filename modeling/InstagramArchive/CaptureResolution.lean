import InstagramArchive.Resolution
import Mathlib.Data.List.Sort

/-!
# The capture resolution worker

One pass claims captures that carry an unreported operation, leases the accepted
ones for a fetch and reports the concluded ones. After the fetch a leased capture is
rescheduled or concluded, and a concluded one is reported. Each of these is a
transaction of its own. The terminal report is derived from stored state and guarded
by the statement that flips `reported_at`.
-/

namespace InstagramArchive

open Relational Relational.Tx Permalink

/-- How long a claimed capture stays invisible to other passes. -/
def LEASE : Int := seconds 120

def maxRetryDelaySeconds : Nat := 30 * 60

structure ResolutionPolicy where
  maxAttempts : Nat
  batchSize : Nat
  deriving DecidableEq, Repr

/-- What one pass did. -/
structure ResolutionSummary where
  claimed : Nat := 0
  fetched : Nat := 0
  retried : Nat := 0
  reported : Nat := 0
  failed : Nat := 0
  deriving DecidableEq, Repr

inductive CaptureResolutionError where
  | persistence (error : SqlError)
  | resolution (error : ResolutionError)
  | report (error : PublishError)
  deriving DecidableEq, Repr

instance : OfSql CaptureResolutionError := ⟨.persistence⟩

/-- The delay before the next attempt after `attempt` transient failures. -/
def retryDelay (attempt : Nat) : Int :=
  seconds (min (30 * 4 ^ min (attempt - 1) 6) maxRetryDelaySeconds : Nat)

/-- A capture leased for a fetch. -/
structure Leased where
  captureId : Uuid
  canonicalUrl : String
  attempts : Nat
  deriving DecidableEq, Repr

/-! ## Terminal reports -/

/-- How a concluded capture is reported. -/
inductive Conclusion where
  | preserved (source : Uuid)
  | unavailable (reason : SourceUnavailability)
  deriving DecidableEq, Repr

def Conclusion.body : Conclusion → ReportBody
  | .preserved source => .preserved source
  | .unavailable reason => .unavailable reason

/-- `order by observed_at desc, observation_id desc limit 1`. -/
def newestObservation : List AvailabilityObservation → Option AvailabilityObservation
  | [] => none
  | o :: rest =>
    match newestObservation rest with
    | none => some o
    | some n =>
      if n.observedAt < o.observedAt ∨
          (n.observedAt = o.observedAt ∧ n.observationId < o.observationId) then some o
      else some n

/-- Maps the newest availability observation of a capture onto the reported reason. -/
def latestUnavailability (captureId : Uuid) (db : Db) : SourceUnavailability :=
  match (newestObservation (db.availabilityObservations.rows.filter
      fun o => o.captureId = some captureId)).map AvailabilityObservation.availability with
  | some .deleted => .deleted
  | some .temporarilyUnavailable => .transient
  | _ => .inaccessible

/-- The conclusion stored state gives for a capture; `none` while it is accepted. -/
def conclusionOf (lib : Externals) (c : Capture) (db : Db) : Option Conclusion :=
  match c.status with
  | .resolved => some (.preserved (sourceIdentity lib c.userRef c.canonicalUrl))
  | .unavailable => some (.unavailable (latestUnavailability c.captureId db))
  | .failed | .tombstoned => some (.unavailable .inaccessible)
  | .accepted => none

/-- The unreported operations of a capture. -/
def pendingOperations (captureId : Uuid) (db : Db) : List CaptureOperation :=
  db.captureOperations.rows.filter fun o => o.captureId = captureId && o.reportedAt.isNone

def markReported (captureId : Uuid) (now : Instant) (db : Db) : Db :=
  { db with
    captureOperations := db.captureOperations.update
      (fun o => o.captureId = captureId && o.reportedAt.isNone)
      fun o => { o with reportedAt := some now } }

/-- Appends the terminal report of every operation that came back, in order. -/
def reportEach (lib : Externals) (captureId userRef : Uuid) (conclusion : Conclusion) :
    List CaptureOperation → ArchiveTx CaptureResolutionError Nat
  | [] => return 0
  | o :: rest => do
    let report ← ofExcept ((buildReport lib captureId o.operationId conclusion.body).mapError .report)
    let _ ← mapError .report (appendOperationReport (some captureId) userRef o.commandId report)
    let reported ← reportEach lib captureId userRef conclusion rest
    return reported + 1

/-- Reports every unreported operation of a concluded capture, once each. -/
def reportPending (lib : Externals) (captureId : Uuid) (now : Instant) :
    ArchiveTx CaptureResolutionError Nat := do
  let capture ← fetchOne (.persistence .rowNotFound) fun db => db.captures.lookup captureId
  match ← query (conclusionOf lib capture) with
  | none => return 0
  | some conclusion =>
    let pending ← statement fun db =>
      .ok (pendingOperations captureId db, markReported captureId now db)
    reportEach lib captureId capture.userRef conclusion pending

/-- `report_concluded`: the report transaction that follows a conclusion. -/
def reportConcluded (lib : Externals) (captureId : Uuid) (now : Instant) :
    ArchiveTx CaptureResolutionError Nat := do
  let reported ← reportPending lib captureId now
  commit
  return reported

/-! ## Claiming -/

/-- What a pass may claim at `now`. -/
def claimable (now : Instant) (db : Db) (c : Capture) : Bool :=
  (db.captureOperations.rows.any fun o => o.captureId = c.captureId && o.reportedAt.isNone) &&
    (if c.status = .accepted then c.nextResolutionAt.any fun due => due ≤ now else true)

/-- `order by next_resolution_at nulls first, capture_id`. -/
def claimBefore (a b : Capture) : Bool :=
  match a.nextResolutionAt, b.nextResolutionAt with
  | none, none => a.captureId ≤ b.captureId
  | none, some _ => true
  | some _, none => false
  | some s, some t => s < t || (s = t && a.captureId ≤ b.captureId)

/-- The claimed batch; rows that another transaction holds are skipped. -/
def claimBatch (now : Instant) (batchSize : Nat) (locked : List Uuid) (db : Db) : List Capture :=
  ((db.captures.rows.filter fun c => claimable now db c && !locked.contains c.captureId).insertionSort
    fun a b => claimBefore a b).take batchSize

def leaseCapture (captureId : Uuid) (deadline : Instant) (db : Db) : Db :=
  { db with
    captures := db.captures.update (fun c => c.captureId = captureId)
      fun c => { c with nextResolutionAt := some deadline } }

/-- Leases the accepted captures of a batch and reports the concluded ones. -/
def claimEach (lib : Externals) (now : Instant) :
    List Capture → ArchiveTx CaptureResolutionError (List Leased × Nat)
  | [] => return ([], 0)
  | c :: rest => do
    if c.status = .accepted then
      execute (leaseCapture c.captureId (now + LEASE))
      let (leased, reported) ← claimEach lib now rest
      return (⟨c.captureId, c.canonicalUrl, c.resolutionAttempts⟩ :: leased, reported)
    else
      let count ← reportPending lib c.captureId now
      let (leased, reported) ← claimEach lib now rest
      return (leased, count + reported)

def maxU32 : Nat := 2 ^ 32 - 1

def maxI32 : Nat := 2 ^ 31 - 1

/-- Claims due captures: what is leased for a fetch, and the pass's first counts. -/
def claim (lib : Externals) (now : Instant) (policy : ResolutionPolicy) (locked : List Uuid) :
    ArchiveTx CaptureResolutionError (List Leased × ResolutionSummary) := do
  let claimed ← query (claimBatch now policy.batchSize locked)
  let (leased, reported) ← claimEach lib now claimed
  commit
  return (leased, { claimed := min claimed.length maxU32, reported })

/-! ## Concluding a leased capture -/

def SurfaceOutcome.isTransient : SurfaceOutcome → Bool
  | .temporarilyUnavailable | .transportFailure => true
  | _ => false

def rescheduleCapture (captureId : Uuid) (attempt : Nat) (now : Instant) (db : Db) : Db :=
  { db with
    captures := db.captures.update (fun c => c.captureId = captureId) fun c =>
      { c with
        resolutionAttempts := min attempt maxI32
        nextResolutionAt := some (now + retryDelay attempt) } }

def reschedule (captureId : Uuid) (attempt : Nat) (now : Instant) :
    ArchiveTx CaptureResolutionError Unit :=
  execute (rescheduleCapture captureId attempt now)

/-- What the transaction after a fetch did. -/
inductive Attempt where
  | retried
  | concluded (fetched : Bool)
  deriving DecidableEq, Repr

/-- The number of the attempt a lease stands for. -/
def Leased.attempt (lease : Leased) : Nat := min (lease.attempts + 1) maxU32

/-- The outcome a lease concludes with: a spent retry budget states the provider was
unreachable, whichever transient class came last. -/
def spentOutcome (outcome : SurfaceOutcome) : SurfaceOutcome :=
  if outcome.isTransient then .temporarilyUnavailable else outcome

/-- `resolve_one` up to its report: the stored permalink is canonicalized, a transient
answer before the last attempt reschedules, any other concludes the capture. -/
def resolveOne (lib : Externals) (lease : Leased) (now : Instant) (policy : ResolutionPolicy)
    (outcome : SurfaceOutcome) : ArchiveTx CaptureResolutionError Attempt :=
  match canonicalize lease.canonicalUrl with
  | .error _ => do
    let _ ← mapError .resolution (recordFailedResolution lib lease.captureId .resolutionFailed now)
    return .concluded false
  | .ok permalink =>
    if outcome.isTransient && lease.attempt < policy.maxAttempts then do
      reschedule lease.captureId lease.attempt now
      return .retried
    else do
      let _ ← mapError .resolution
        (applySurfaceOutcome lib lease.captureId permalink (spentOutcome outcome) now)
      return .concluded true

/-! ## What a pass leaves in the database -/

variable {lib : Externals} {env : Env} {db db' : Db}

/-- The outbox row of a terminal report. -/
def terminalRow (captureId userRef : Uuid) (conclusion : Conclusion) (o : CaptureOperation)
    (eventId : Uuid) (occurredAt : Instant) : OutboxEvent :=
  reportRow (some captureId) userRef o.commandId
    { operationId := o.operationId, body := conclusion.body } eventId occurredAt

/-- `db'` is `db` with one terminal report for each of `operations`, in order. -/
def Reports (captureId userRef : Uuid) (conclusion : Conclusion)
    (operations : List CaptureOperation) (db db' : Db) : Prop :=
  db' = { db with outboxEvents := db'.outboxEvents } ∧
    ∃ new, db'.outboxEvents.rows = db.outboxEvents.rows ++ new ∧
      List.Forall₂ (fun o e => ∃ eventId occurredAt,
        e = terminalRow captureId userRef conclusion o eventId occurredAt) operations new

theorem reportEach_yields {captureId userRef : Uuid} {conclusion : Conclusion}
    {operations : List CaptureOperation} {n : Nat}
    (h : (reportEach lib captureId userRef conclusion operations).Yields env db n db') :
    Reports captureId userRef conclusion operations db db' := by
  induction operations generalizing db n with
  | nil =>
    obtain ⟨-, rfl⟩ := yields_pure.mp h
    exact ⟨rfl, [], by simp, List.Forall₂.nil⟩
  | cons o rest ih =>
    obtain ⟨report, _, h1, h⟩ := h.bind
    obtain ⟨hreport, rfl⟩ := h1.ofExcept
    obtain rfl := buildReport_ok (mapError_ok hreport)
    obtain ⟨eventId, m, h2, h⟩ := h.bind
    obtain ⟨occurredAt, happ⟩ := appendOperationReport_yields h2.mapError
    obtain ⟨k, m', h3, h⟩ := h.bind
    obtain ⟨-, rfl⟩ := yields_pure.mp h
    obtain ⟨hframe, new, hnew, hall⟩ := ih h3
    refine ⟨?_, _ :: new, ?_, List.Forall₂.cons ⟨eventId, occurredAt, rfl⟩ hall⟩
    · rw [hframe, happ.eq]
    · rw [hnew, happ.rows]
      simp [terminalRow]

/-- **What reporting does.** Nothing while the capture is accepted; otherwise every
unreported operation is flipped and gets the report its stored state concludes. -/
theorem reportPending_yields {captureId : Uuid} {now : Instant} {n : Nat}
    (h : (reportPending lib captureId now).Yields env db n db') :
    ∃ c, db.captures.lookup captureId = some c ∧
      ((conclusionOf lib c db = none ∧ db' = db) ∨
        ∃ conclusion, conclusionOf lib c db = some conclusion ∧
          Reports captureId c.userRef conclusion (pendingOperations captureId db)
            (markReported captureId now db) db') := by
  obtain ⟨c, _, h1, h⟩ := h.bind
  obtain ⟨hc, rfl⟩ := h1.fetchOne
  refine ⟨c, hc, ?_⟩
  obtain ⟨conclusion, _, h2, h⟩ := h.bind
  obtain ⟨hconclusion, rfl⟩ := h2.query
  cases conclusion with
  | none =>
    obtain ⟨-, rfl⟩ := yields_pure.mp h
    exact Or.inl ⟨hconclusion.symm, rfl⟩
  | some conclusion =>
    obtain ⟨pending, m, h3, h⟩ := h.bind
    have h3 := h3.statement
    simp only [Except.ok.injEq, Prod.mk.injEq] at h3
    obtain ⟨rfl, rfl⟩ := h3
    exact Or.inr ⟨conclusion, hconclusion.symm, reportEach_yields h⟩

theorem reportConcluded_yields {captureId : Uuid} {now : Instant} {n : Nat}
    (h : (reportConcluded lib captureId now).Yields env db n db') :
    (reportPending lib captureId now).Yields env db n db' := by
  obtain ⟨k, m, h1, h⟩ := h.bind
  obtain ⟨_, _, h2, h⟩ := h.bind
  obtain rfl := h2.commit
  obtain ⟨rfl, rfl⟩ := yields_pure.mp h
  exact h1

/-- **Claim rule.** What leasing and reporting keep, a claim keeps. -/
theorem claimEach_invariant {now : Instant} (P : Db → Prop)
    (hlease : ∀ db captureId deadline, P db → P (leaseCapture captureId deadline db))
    (hreport : ∀ db db' captureId n,
      (reportPending lib captureId now).Yields env db n db' → P db → P db')
    {batch : List Capture} {out : List Leased × Nat}
    (h : (claimEach lib now batch).Yields env db out db') (hdb : P db) : P db' := by
  induction batch generalizing db out with
  | nil =>
    obtain ⟨-, rfl⟩ := yields_pure.mp h
    exact hdb
  | cons c rest ih =>
    unfold claimEach at h
    split at h
    · obtain ⟨_, _, h1, h⟩ := h.bind
      obtain rfl := h1.execute
      obtain ⟨p, m, h2, h⟩ := h.bind
      obtain ⟨-, rfl⟩ := yields_pure.mp h
      exact ih h2 (hlease _ _ _ hdb)
    · obtain ⟨n, m, h1, h⟩ := h.bind
      obtain ⟨p, m', h2, h⟩ := h.bind
      obtain ⟨-, rfl⟩ := yields_pure.mp h
      exact ih h2 (hreport _ _ _ _ h1 hdb)

/-- What a claim leases are captures of its batch. -/
theorem claimEach_leased {now : Instant} {batch : List Capture} {out : List Leased × Nat}
    (h : (claimEach lib now batch).Yields env db out db') :
    ∀ lease ∈ out.1, ∃ c ∈ batch,
      lease = ⟨c.captureId, c.canonicalUrl, c.resolutionAttempts⟩ := by
  induction batch generalizing db out with
  | nil =>
    obtain ⟨rfl, -⟩ := yields_pure.mp h
    intro lease hlease
    cases hlease
  | cons c rest ih =>
    unfold claimEach at h
    split at h
    · obtain ⟨_, _, h1, h⟩ := h.bind
      obtain ⟨p, m, h2, h⟩ := h.bind
      obtain ⟨rfl, rfl⟩ := yields_pure.mp h
      intro lease hlease
      rcases List.mem_cons.mp hlease with rfl | hlease
      · exact ⟨c, by simp, rfl⟩
      · obtain ⟨x, hx, hl⟩ := ih h2 lease hlease
        exact ⟨x, by simp [hx], hl⟩
    · obtain ⟨n, m, h1, h⟩ := h.bind
      obtain ⟨p, m', h2, h⟩ := h.bind
      obtain ⟨rfl, rfl⟩ := yields_pure.mp h
      intro lease hlease
      obtain ⟨x, hx, hl⟩ := ih h2 lease hlease
      exact ⟨x, by simp [hx], hl⟩

theorem mem_of_mem_claimBatch {now : Instant} {batchSize : Nat} {locked : List Uuid} {c : Capture}
    (h : c ∈ claimBatch now batchSize locked db) : c ∈ db.captures := by
  have hsorted := List.mem_of_mem_take h
  rw [List.mem_insertionSort] at hsorted
  exact (List.mem_filter.mp hsorted).1

theorem claim_yields {now : Instant} {policy : ResolutionPolicy} {locked : List Uuid}
    {out : List Leased × ResolutionSummary}
    (h : (claim lib now policy locked).Yields env db out db') :
    ∃ reported, (claimEach lib now (claimBatch now policy.batchSize locked db)).Yields env db
      (out.1, reported) db' := by
  obtain ⟨batch, _, h1, h⟩ := h.bind
  obtain ⟨rfl, rfl⟩ := h1.query
  obtain ⟨p, m, h2, h⟩ := h.bind
  obtain ⟨_, _, h3, h⟩ := h.bind
  obtain rfl := h3.commit
  obtain ⟨rfl, rfl⟩ := yields_pure.mp h
  exact ⟨p.2, h2⟩

/-- **What the transaction after a fetch does.** The capture is rescheduled, or its
stored permalink no longer maps, or the outcome is applied. -/
theorem resolveOne_yields {lease : Leased} {now : Instant} {policy : ResolutionPolicy}
    {outcome : SurfaceOutcome} {attempt : Attempt}
    (h : (resolveOne lib lease now policy outcome).Yields env db attempt db') :
    (attempt = .retried ∧ db' = rescheduleCapture lease.captureId lease.attempt now db) ∨
      (∃ e out, canonicalize lease.canonicalUrl = .error e ∧
        (recordFailedResolution lib lease.captureId .resolutionFailed now).Yields env db out db') ∨
      (∃ permalink out, canonicalize lease.canonicalUrl = .ok permalink ∧
        (applySurfaceOutcome lib lease.captureId permalink (spentOutcome outcome) now).Yields env db
          out db') := by
  unfold resolveOne at h
  split at h
  · rename_i e he
    obtain ⟨out, m, h1, h⟩ := h.bind
    obtain ⟨-, rfl⟩ := yields_pure.mp h
    exact Or.inr (Or.inl ⟨e, out, he, h1.mapError⟩)
  · rename_i permalink hp
    split at h
    · obtain ⟨_, m, h1, h⟩ := h.bind
      obtain ⟨rfl, rfl⟩ := yields_pure.mp h
      exact Or.inl ⟨rfl, h1.execute⟩
    · obtain ⟨out, m, h1, h⟩ := h.bind
      obtain ⟨-, rfl⟩ := yields_pure.mp h
      exact Or.inr (Or.inr ⟨permalink, out, hp, h1.mapError⟩)

end InstagramArchive

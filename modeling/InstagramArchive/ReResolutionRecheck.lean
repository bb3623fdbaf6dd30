import InstagramArchive.ReResolutionBudgets
import InstagramArchive.Reporting
import InstagramArchive.Relational.Commit

/-!
# The re-check against the selection policy

The selection decides from the latest observation of a capture, the re-check from the status the
capture collapsed it to. A private, deleted or unsupported answer leaves the same status as a
transient one.
-/

namespace InstagramArchive

open Relational Relational.Tx Permalink Machine

/-- The policy state an availability observation stands for. -/
def AvailabilityObservationKind.priorState : AvailabilityObservationKind → PriorResolutionState
  | .available => .resolved
  | .unavailable => .permanentlyUnavailable
  | .deleted => .deleted
  | .priv => .privateOrInaccessible
  | .temporarilyUnavailable => .temporarilyUnavailable
  | .unsupported => .unsupported
  | .resolutionFailed => .resolverFailed

/-- The latest availability observation of a capture. -/
def latestObservation (captureId : Uuid) (db : Db) : Option AvailabilityObservation :=
  newestObservation (db.availabilityObservations.rows.filter fun o => o.captureId = some captureId)

/-- The scheduling candidate of a capture's stored state: it has a deadline and an observation. -/
def storedCandidate (userRef captureId : Uuid) (db : Db) : Option ReResolutionCandidate := do
  let row ← candidateRow userRef captureId db
  let nextResolutionAt ← row.nextResolutionAt
  let observation ← latestObservation captureId db
  return ⟨captureId, row.capturedAt, nextResolutionAt, row.locallyRemoved,
    observation.availability.priorState⟩

/-- The latest observation is one the policy retries. -/
def LatestRetryable (captureId : Uuid) (db : Db) : Prop :=
  ∃ o, latestObservation captureId db = some o ∧
    (o.availability = .available ∨ o.availability = .resolutionFailed ∨
      o.availability = .temporarilyUnavailable)

/-- The owner's capture is live, recent and due, whatever was last observed of it. -/
structure Claimable (userRef captureId : Uuid) (now recencyWindow : Int) (c : Capture) (db : Db) :
    Prop where
  stored : db.captures.lookup captureId = some c
  owned : c.userRef = userRef
  live : captureRemoved userRef captureId db = false
  status : c.status = .resolved ∨ c.status = .unavailable ∨ c.status = .failed
  recent : now - recencyWindow ≤ c.capturedAt
  due : ∃ deadline, c.nextResolutionAt = some deadline ∧ deadline ≤ now

section Recheck

variable {ρ : Type} {userRef captureId : Uuid} {budget : ReResolutionBudget} {bytes : U64}
  {now recencyWindow : Int} {resolver : ρ → ρ} {captured : ρ} {db : Db}

theorem AvailabilityObservationKind.priorState_retried {kind : AvailabilityObservationKind} :
    kind.priorState.refusal = none ↔
      kind = .available ∨ kind = .resolutionFailed ∨ kind = .temporarilyUnavailable := by
  cases kind <;> decide

theorem CandidateRow.refusal_eq_none {row : CandidateRow} :
    row.refusal now recencyWindow = none ↔
      row.locallyRemoved = false ∧
        (row.status = .resolved ∨ row.status = .unavailable ∨ row.status = .failed) ∧
        now - recencyWindow ≤ row.capturedAt ∧
        ∃ deadline, row.nextResolutionAt = some deadline ∧ deadline ≤ now := by
  have hdue : row.nextResolutionAt.all (fun deadline => now < deadline) = false ↔
      ∃ deadline, row.nextResolutionAt = some deadline ∧ deadline ≤ now := by
    cases row.nextResolutionAt <;> simp
  unfold CandidateRow.refusal
  constructor
  · intro h
    split at h
    · cases h
    split at h
    · cases h
    split at h
    · cases h
    split at h
    · cases h
    rename_i hremoved hold hnotDue hstatus
    rw [Bool.not_eq_true, Bool.or_eq_false_iff] at hremoved
    rw [Bool.not_eq_true] at hnotDue
    refine ⟨hremoved.1, ?_, not_lt.mp hold, hdue.mp hnotDue⟩
    by_contra hother
    exact hstatus (by tauto)
  · rintro ⟨hremoved, hstatus, hrecent, hdeadline⟩
    have htombstoned : decide (row.status = .tombstoned) = false := by
      rcases hstatus with h | h | h <;> rw [h] <;> rfl
    rw [hremoved, htombstoned, if_neg (by decide), if_neg (not_lt.mpr hrecent),
      if_neg (by rw [hdue.mpr hdeadline]; decide), if_neg (by tauto)]

theorem candidateRow_eq_some {row : CandidateRow} :
    candidateRow userRef captureId db = some row ↔
      ∃ c, db.captures.lookup captureId = some c ∧ c.userRef = userRef ∧
        row = ⟨c.capturedAt, c.nextResolutionAt, c.status, captureRemoved userRef captureId db⟩ := by
  unfold candidateRow
  simp only [Option.map_eq_some_iff, Option.filter_eq_some_iff, decide_eq_true_eq]
  constructor
  · rintro ⟨c, ⟨hc, rfl⟩, rfl⟩
    obtain rfl := (Table.lookup_eq_some.mp hc).2
    exact ⟨c, hc, rfl, rfl⟩
  · rintro ⟨c, hc, rfl, rfl⟩
    obtain rfl := (Table.lookup_eq_some.mp hc).2
    exact ⟨c, ⟨hc, rfl⟩, rfl⟩

/-- Which rows the re-check lets through. -/
theorem row_passes_iff :
    (∃ row, candidateRow userRef captureId db = some row ∧
      row.refusal now recencyWindow = none) ↔
      ∃ c, Claimable userRef captureId now recencyWindow c db := by
  constructor
  · rintro ⟨row, hrow, hpass⟩
    obtain ⟨c, hc, howned, rfl⟩ := candidateRow_eq_some.mp hrow
    obtain ⟨hlive, hstatus, hrecent, hdue⟩ := CandidateRow.refusal_eq_none.mp hpass
    exact ⟨c, hc, howned, hlive, hstatus, hrecent, hdue⟩
  · rintro ⟨c, h⟩
    exact ⟨_, candidateRow_eq_some.mpr ⟨c, h.stored, h.owned, rfl⟩,
      CandidateRow.refusal_eq_none.mpr ⟨h.live, h.status, h.recent, h.due⟩⟩

variable (resolver captured) in
/-- A request is started exactly when the row passes and every counter has room. -/
theorem claimCaptureForResolution_started :
    (∃ env after db', (claimCaptureForResolution userRef captureId budget bytes now recencyWindow
        resolver captured).Yields env db (.started, after) db') ↔
      (∃ c, Claimable userRef captureId now recencyWindow c db) ∧ budget.HasRoom bytes now := by
  rw [← row_passes_iff, ← ReResolutionBudget.refusal_eq_none]
  constructor
  · rintro ⟨env, after, db', h⟩
    obtain ⟨row, m, hread, h⟩ := h.bind
    obtain ⟨rfl, rfl⟩ := hread.query
    cases hrow : candidateRow userRef captureId db with
    | none =>
      rw [hrow] at h
      cases (yields_pure.mp h).1
    | some row =>
      simp only [hrow] at h
      cases hpass : row.refusal now recencyWindow with
      | some reason =>
        rw [hpass] at h
        cases (yields_pure.mp h).1
      | none =>
        rw [hpass] at h
        refine ⟨⟨row, rfl, hpass⟩, ?_⟩
        have hout := (yields_pure.mp h).1
        unfold attemptWithBudget at hout
        cases hbudget : budget.refusal bytes now with
        | none => rfl
        | some reason =>
          rw [hbudget] at hout
          cases hout
  · rintro ⟨⟨row, hrow, hpass⟩, hbudget⟩
    have hstarts : (claimCaptureForResolution userRef captureId budget bytes now recencyWindow
        resolver captured).Ends (quietEnv now 0) ⟨db, 0⟩ fun out _ => out.1 = .started := by
      refine .bind (.query (fun _ => rfl) ?_)
      simp only [hrow, hpass]
      refine .pure ?_
      unfold attemptWithBudget
      rw [hbudget]
    obtain ⟨⟨outcome, after⟩, ses', hcommits, rfl⟩ := hstarts
    exact ⟨_, after, ses'.store, 0, ses'.tick, hcommits⟩

theorem storedCandidate_eq_some {candidate : ReResolutionCandidate} :
    storedCandidate userRef captureId db = some candidate ↔
      ∃ c deadline o, db.captures.lookup captureId = some c ∧ c.userRef = userRef ∧
        c.nextResolutionAt = some deadline ∧ latestObservation captureId db = some o ∧
        candidate = ⟨captureId, c.capturedAt, deadline, captureRemoved userRef captureId db,
          o.availability.priorState⟩ := by
  unfold storedCandidate
  constructor
  · intro h
    obtain ⟨row, hrow, h⟩ := Option.bind_eq_some_iff.mp h
    obtain ⟨deadline, hdeadline, h⟩ := Option.bind_eq_some_iff.mp h
    obtain ⟨o, ho, h⟩ := Option.bind_eq_some_iff.mp h
    obtain ⟨c, hc, howned, rfl⟩ := candidateRow_eq_some.mp hrow
    exact ⟨c, deadline, o, hc, howned, hdeadline, ho, (Option.some.inj h).symm⟩
  · rintro ⟨c, deadline, o, hc, howned, hdeadline, ho, rfl⟩
    have hrow := candidateRow_eq_some.mpr ⟨c, hc, howned, rfl⟩
    rw [hrow, ho]
    simp [hdeadline]

/-- The candidate of a claimable capture is refused only for what was last observed of it. -/
theorem Claimable.candidate_refusal {c : Capture} {candidate : ReResolutionCandidate}
    (h : Claimable userRef captureId now recencyWindow c db)
    (hcandidate : storedCandidate userRef captureId db = some candidate) :
    candidate.captureId = captureId ∧
      candidate.refusal now recencyWindow = candidate.priorState.refusal := by
  obtain ⟨c', deadline, o, hc, -, hdeadline, -, rfl⟩ := storedCandidate_eq_some.mp hcandidate
  obtain rfl : c' = c := Option.some.inj (hc.symm.trans h.stored)
  obtain ⟨deadline', hdeadline', hdue⟩ := h.due
  obtain rfl : deadline = deadline' := Option.some.inj (hdeadline.symm.trans hdeadline')
  refine ⟨rfl, ?_⟩
  unfold ReResolutionCandidate.refusal
  simp only
  rw [h.live, if_neg (by decide), if_neg (not_lt.mpr h.recent), if_neg (not_lt.mpr hdue)]

/-- A request is started for what the selection would admit exactly when the capture cannot be
claimed, the budget has no room, or the latest observation is one the policy retries. -/
theorem recheck_admitted_iff :
    (∀ env after db', (claimCaptureForResolution userRef captureId budget bytes now recencyWindow
        resolver captured).Yields env db (.started, after) db' →
      ∃ candidate, storedCandidate userRef captureId db = some candidate ∧
        ∀ candidates, candidate ∈ candidates →
          captureId ∈ (selectCandidates candidates now recencyWindow).admitted) ↔
      ((∃ c, Claimable userRef captureId now recencyWindow c db) → budget.HasRoom bytes now →
        LatestRetryable captureId db) := by
  constructor
  · rintro h ⟨c, hclaimable⟩ hroom
    obtain ⟨env, after, db', hstarted⟩ :=
      (claimCaptureForResolution_started resolver captured).mpr ⟨⟨c, hclaimable⟩, hroom⟩
    obtain ⟨candidate, hcandidate, hadmitted⟩ := h env after db' hstarted
    obtain ⟨other, hother, -, hkept⟩ :=
      mem_selectCandidates.mp (hadmitted [candidate] (List.mem_singleton_self _))
    obtain rfl := List.mem_singleton.mp hother
    rw [(hclaimable.candidate_refusal hcandidate).2] at hkept
    obtain ⟨_, _, o, -, -, -, ho, rfl⟩ := storedCandidate_eq_some.mp hcandidate
    exact ⟨o, ho, AvailabilityObservationKind.priorState_retried.mp hkept⟩
  · intro h env after db' hstarted
    obtain ⟨⟨c, hclaimable⟩, hroom⟩ :=
      (claimCaptureForResolution_started resolver captured).mp ⟨env, after, db', hstarted⟩
    obtain ⟨o, ho, hretried⟩ := h ⟨c, hclaimable⟩ hroom
    obtain ⟨deadline, hdeadline, -⟩ := hclaimable.due
    have hcandidate := storedCandidate_eq_some.mpr
      ⟨c, deadline, o, hclaimable.stored, hclaimable.owned, hdeadline, ho, rfl⟩
    refine ⟨_, hcandidate, fun candidates hmem => mem_selectCandidates.mpr ⟨_, hmem, ?_⟩⟩
    obtain ⟨hid, hrefusal⟩ := hclaimable.candidate_refusal hcandidate
    exact ⟨hid, hrefusal.trans (AvailabilityObservationKind.priorState_retried.mpr hretried)⟩

/-- The provider answers that a claimed capture is private. -/
def privateAnswer : List Action :=
  [.command (quietEnv 10 100) (browserDelivery 1 2 7 "http://instagr.am/p/A"),
    .claim (quietEnv 20 200) 20 ⟨3, 10⟩ [],
    .resolve (quietEnv 30 300) 0 .priv]

/-- Its status is that of any unavailable capture, so a request is started although the latest
observation is private. -/
theorem private_capture_requested :
    ((claimCaptureForResolution 1 101 oneAtATime 60 (20 + LEASE) (2 * LEASE) (· + 1) 0).exec
      (quietEnv 40 400) (run (step reference) {} privateAnswer).db).1.toOption.map Prod.fst =
        some .started ∧
      (latestObservation 101 (run (step reference) {} privateAnswer).db).map
        AvailabilityObservation.availability = some .priv ∧
      (storedCandidate 1 101 (run (step reference) {} privateAnswer).db).map (fun candidate =>
        (selectCandidates [candidate] (20 + LEASE) (2 * LEASE)).admitted) = some [] := by
  refine ⟨?_, ?_, ?_⟩
  · decide +kernel
  · decide +kernel
  · decide +kernel

end Recheck

end InstagramArchive

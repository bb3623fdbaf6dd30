import InstagramArchive.CaptureResolution
import InstagramArchive.Machine.Unsigned
import Mathlib.Data.List.Sort
import Mathlib.Data.Prod.Lex

/-!
# Finite public re-resolution

A run selects due recent captures from the last public observation of each, and every request is
admitted a second time, from the stored row of its capture and from the budget of the run, right
before the resolver is called.
-/

namespace InstagramArchive

open Relational Relational.Tx Machine

/-- Last supported observation used by automatic retry policy. -/
inductive PriorResolutionState where
  | resolved
  | resolverFailed
  | temporarilyUnavailable
  | privateOrInaccessible
  | deleted
  | unsupported
  | permanentlyUnavailable
  deriving DecidableEq, Repr

structure ReResolutionCandidate where
  captureId : Uuid
  capturedAt : Instant
  nextResolutionAt : Instant
  locallyRemoved : Bool
  priorState : PriorResolutionState
  deriving DecidableEq, Repr

/-- Why a candidate was deterministically skipped before network I/O. -/
inductive ReResolutionSkipReason where
  | notDue
  | tooOld
  | locallyRemoved
  | privacyTerminal
  | unsupported
  | itemBudget
  | requestBudget
  | byteBudget
  | deadline
  | concurrency
  | providerBudget
  deriving DecidableEq, Repr

/-- Mutable counters and immutable finite ceilings for one run. -/
structure ReResolutionBudget where
  maxItems : U32
  itemsAdmitted : U32
  maxRequests : U32
  requestsReserved : U32
  maxResponseBytes : U64
  responseBytes : U64
  maxConcurrency : U32
  inFlight : U32
  deadlineAt : Instant
  /-- Remaining provider endpoint requests; unknown fails closed. -/
  endpointRemaining : Option U32
  deriving DecidableEq, Repr

inductive ReResolutionAttemptOutcome where
  | started
  | skipped (reason : ReResolutionSkipReason)
  deriving DecidableEq, Repr

/-! ## One request -/

/-- The first guard that refuses a request. -/
def ReResolutionBudget.refusal (budget : ReResolutionBudget) (expectedResponseBytes : U64)
    (now : Instant) : Option ReResolutionSkipReason :=
  if budget.maxItems = 0 ∨ budget.maxItems ≤ budget.itemsAdmitted then some .itemBudget
  else if budget.maxRequests = 0 ∨ budget.maxRequests ≤ budget.requestsReserved then
    some .requestBudget
  else if (checkedAdd budget.responseBytes expectedResponseBytes).all
      fun leased => budget.maxResponseBytes < leased then some .byteBudget
  else if budget.deadlineAt ≤ now then some .deadline
  else if budget.maxConcurrency = 0 ∨ budget.maxConcurrency ≤ budget.inFlight then
    some .concurrency
  else if budget.endpointRemaining.all fun remaining => remaining = 0 then some .providerBudget
  else none

/-- Every counter while the request runs. -/
def ReResolutionBudget.reserve (budget : ReResolutionBudget) (expectedResponseBytes : U64) :
    ReResolutionBudget :=
  { budget with
    itemsAdmitted := saturatingAdd budget.itemsAdmitted 1
    requestsReserved := saturatingAdd budget.requestsReserved 1
    responseBytes := saturatingAdd budget.responseBytes expectedResponseBytes
    inFlight := saturatingAdd budget.inFlight 1
    endpointRemaining := budget.endpointRemaining.map fun remaining => remaining - 1 }

def ReResolutionBudget.release (budget : ReResolutionBudget) : ReResolutionBudget :=
  { budget with inFlight := saturatingSub budget.inFlight 1 }

/-- Reserves every finite guard before invoking one resolver call, which acts on what it
captured. -/
def attemptWithBudget {ρ : Type} (budget : ReResolutionBudget) (expectedResponseBytes : U64)
    (now : Instant) (resolver : ρ → ρ) (captured : ρ) :
    ReResolutionAttemptOutcome × ReResolutionBudget × ρ :=
  match budget.refusal expectedResponseBytes now with
  | some reason => (.skipped reason, budget, captured)
  | none => (.started, (budget.reserve expectedResponseBytes).release, resolver captured)

/-! ## The re-check -/

/-- What the re-check reads of a capture. -/
structure CandidateRow where
  capturedAt : Instant
  nextResolutionAt : Option Instant
  status : CaptureStatus
  locallyRemoved : Bool
  deriving DecidableEq, Repr

/-- A removal that was recorded for the capture. -/
def captureRemoved (userRef captureId : Uuid) (db : Db) : Bool :=
  db.localSourceRemovals.rows.any fun r => r.userRef = userRef && r.captureId = some captureId

def candidateRow (userRef captureId : Uuid) (db : Db) : Option CandidateRow :=
  ((db.captures.lookup captureId).filter fun c => c.userRef = userRef).map fun c =>
    ⟨c.capturedAt, c.nextResolutionAt, c.status, captureRemoved c.userRef c.captureId db⟩

def CandidateRow.refusal (row : CandidateRow) (now recencyWindow : Int) : Option ReResolutionSkipReason :=
  if row.locallyRemoved || row.status = .tombstoned then some .locallyRemoved
  else if row.capturedAt < now - recencyWindow then some .tooOld
  else if row.nextResolutionAt.all fun deadline => now < deadline then some .notDue
  else if row.status ≠ .resolved ∧ row.status ≠ .unavailable ∧ row.status ≠ .failed then
    some .unsupported
  else none

/-- Rechecks one selected capture immediately before finite budget admission. -/
def claimCaptureForResolution {ρ : Type} (userRef captureId : Uuid) (budget : ReResolutionBudget)
    (expectedResponseBytes : U64) (now recencyWindow : Int) (resolver : ρ → ρ) (captured : ρ) :
    ArchiveTx SqlError (ReResolutionAttemptOutcome × ReResolutionBudget × ρ) := do
  match ← query (candidateRow userRef captureId) with
  | none => return (.skipped .locallyRemoved, budget, captured)
  | some row =>
    match row.refusal now recencyWindow with
    | some reason => return (.skipped reason, budget, captured)
    | none => return attemptWithBudget budget expectedResponseBytes now resolver captured

/-! ## Selection -/

structure ReResolutionSelection where
  admitted : List Uuid
  skipped : List (Uuid × ReResolutionSkipReason)
  deriving DecidableEq, Repr

/-- What the retry policy says about an observation. -/
def PriorResolutionState.refusal : PriorResolutionState → Option ReResolutionSkipReason
  | .resolved | .resolverFailed | .temporarilyUnavailable => none
  | .privateOrInaccessible | .deleted => some .privacyTerminal
  | .unsupported | .permanentlyUnavailable => some .unsupported

def ReResolutionCandidate.refusal (candidate : ReResolutionCandidate) (now recencyWindow : Int) :
    Option ReResolutionSkipReason :=
  if candidate.locallyRemoved then some .locallyRemoved
  else if candidate.capturedAt < now - recencyWindow then some .tooOld
  else if now < candidate.nextResolutionAt then some .notDue
  else candidate.priorState.refusal

def candidateBefore (a b : ReResolutionCandidate) : Prop :=
  toLex (a.nextResolutionAt, a.captureId) ≤ toLex (b.nextResolutionAt, b.captureId)

instance : DecidableRel candidateBefore := fun a b =>
  inferInstanceAs (Decidable (toLex (a.nextResolutionAt, a.captureId) ≤
    toLex (b.nextResolutionAt, b.captureId)))

/-- The loop of `select_candidates`. -/
def selectEach (now recencyWindow : Int) : List ReResolutionCandidate → ReResolutionSelection
  | [] => ⟨[], []⟩
  | candidate :: rest =>
    match candidate.refusal now recencyWindow with
    | some reason =>
      { selectEach now recencyWindow rest with
        skipped := (candidate.captureId, reason) :: (selectEach now recencyWindow rest).skipped }
    | none =>
      { selectEach now recencyWindow rest with
        admitted := candidate.captureId :: (selectEach now recencyWindow rest).admitted }

/-- Selects retryable captures without making a provider request. -/
def selectCandidates (candidates : List ReResolutionCandidate) (now recencyWindow : Int) :
    ReResolutionSelection :=
  selectEach now recencyWindow (candidates.insertionSort candidateBefore)

/-! ## What the two decide -/

section Selection

variable {now recencyWindow : Int}

theorem mem_selectEach {captureId : Uuid} {candidates : List ReResolutionCandidate} :
    captureId ∈ (selectEach now recencyWindow candidates).admitted ↔
      ∃ c ∈ candidates, c.captureId = captureId ∧ c.refusal now recencyWindow = none := by
  induction candidates with
  | nil => simp [selectEach]
  | cons candidate rest ih =>
    unfold selectEach
    cases h : candidate.refusal now recencyWindow with
    | some reason => simp [ih, h]
    | none =>
      simp only [List.mem_cons, ih, exists_eq_or_imp, h, and_true]
      constructor
      · rintro (rfl | hrest)
        · exact .inl rfl
        · exact .inr hrest
      · rintro (rfl | hrest)
        · exact .inl rfl
        · exact .inr hrest

/-- A capture is admitted exactly when one of its candidates is not refused, whatever else is
selected. -/
theorem mem_selectCandidates {captureId : Uuid} {candidates : List ReResolutionCandidate} :
    captureId ∈ (selectCandidates candidates now recencyWindow).admitted ↔
      ∃ c ∈ candidates, c.captureId = captureId ∧ c.refusal now recencyWindow = none := by
  unfold selectCandidates
  rw [mem_selectEach]
  simp only [List.mem_insertionSort]

end Selection

end InstagramArchive

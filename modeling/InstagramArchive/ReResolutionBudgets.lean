import InstagramArchive.ReResolution

/-!
# The finite budget of a run

A request is admitted by six guards and every counter is raised before the resolver is called, so
a sequence of calls, whatever its byte estimates and instants, stays within every ceiling.
-/

namespace InstagramArchive

open Machine

/-- One call of `attempt_with_budget`. -/
structure BudgetedCall (ρ : Type) where
  expectedResponseBytes : U64
  now : Instant
  resolver : ρ → ρ

/-- The calls on one budget, in order; every one with what it answered. -/
def attemptEach {ρ : Type} : ReResolutionBudget → ρ → List (BudgetedCall ρ) →
    List (BudgetedCall ρ × ReResolutionAttemptOutcome) × ReResolutionBudget × ρ
  | budget, captured, [] => ([], budget, captured)
  | budget, captured, call :: rest =>
    match attemptWithBudget budget call.expectedResponseBytes call.now call.resolver captured with
    | (outcome, budget', captured') =>
      match attemptEach budget' captured' rest with
      | (answered, last) => ((call, outcome) :: answered, last)

/-- No counter is above its ceiling. -/
structure ReResolutionBudget.Within (b : ReResolutionBudget) : Prop where
  items : b.itemsAdmitted.toNat ≤ b.maxItems.toNat
  requests : b.requestsReserved.toNat ≤ b.maxRequests.toNat
  bytes : b.responseBytes.toNat ≤ b.maxResponseBytes.toNat
  concurrency : b.inFlight.toNat ≤ b.maxConcurrency.toNat

/-- Every counter admits one request of `bytes` at `now`. -/
structure ReResolutionBudget.HasRoom (b : ReResolutionBudget) (bytes : U64) (now : Instant) :
    Prop where
  items : b.itemsAdmitted.toNat < b.maxItems.toNat
  requests : b.requestsReserved.toNat < b.maxRequests.toNat
  bytes : b.responseBytes.toNat + bytes.toNat ≤ b.maxResponseBytes.toNat
  deadline : now < b.deadlineAt
  concurrency : b.inFlight.toNat < b.maxConcurrency.toNat
  endpoint : ∃ n, b.endpointRemaining = some n ∧ 0 < n.toNat

/-- The ceilings and the deadline, which no call writes. -/
structure ReResolutionBudget.SameCeilings (b b' : ReResolutionBudget) : Prop where
  items : b'.maxItems = b.maxItems
  requests : b'.maxRequests = b.maxRequests
  bytes : b'.maxResponseBytes = b.maxResponseBytes
  concurrency : b'.maxConcurrency = b.maxConcurrency
  deadline : b'.deadlineAt = b.deadlineAt

/-- The counters of `b'` are those of `b` with one request of `bytes` more, as numbers: no
addition saturated and no subtraction went below zero. -/
structure ReResolutionBudget.Charged (bytes : U64) (b b' : ReResolutionBudget) : Prop where
  items : b'.itemsAdmitted.toNat = b.itemsAdmitted.toNat + 1
  requests : b'.requestsReserved.toNat = b.requestsReserved.toNat + 1
  bytes : b'.responseBytes.toNat = b.responseBytes.toNat + bytes.toNat
  endpoint : ∃ n m, b.endpointRemaining = some n ∧ b'.endpointRemaining = some m ∧
    n.toNat = m.toNat + 1

/-- What one call does to the budget and to what its resolver captured. -/
def AttemptKeeps {ρ : Type} (b : ReResolutionBudget) (captured : ρ) (call : BudgetedCall ρ) :
    ReResolutionAttemptOutcome × ReResolutionBudget × ρ → Prop
  | (.skipped _, b', captured') => b' = b ∧ captured' = captured
  | (.started, b', captured') =>
    let during := b.reserve call.expectedResponseBytes
    during.inFlight.toNat = b.inFlight.toNat + 1 ∧ during.Within ∧ b.SameCeilings during ∧
      b.Charged call.expectedResponseBytes during ∧
      b'.inFlight = b.inFlight ∧ b'.Within ∧ b.SameCeilings b' ∧
      b.Charged call.expectedResponseBytes b' ∧ captured' = call.resolver captured

/-- The calls that were started. -/
def startedCalls {ρ : Type} (answered : List (BudgetedCall ρ × ReResolutionAttemptOutcome)) :
    List (BudgetedCall ρ) :=
  (answered.filter fun a => a.2 = .started).map Prod.fst

section Calls

variable {b : ReResolutionBudget} {bytes : U64} {now : Instant}

theorem ReResolutionBudget.SameCeilings.trans {b' b'' : ReResolutionBudget}
    (h : b.SameCeilings b') (h' : b'.SameCeilings b'') : b.SameCeilings b'' where
  items := h'.items.trans h.items
  requests := h'.requests.trans h.requests
  bytes := h'.bytes.trans h.bytes
  concurrency := h'.concurrency.trans h.concurrency
  deadline := h'.deadline.trans h.deadline

theorem counter_refused_iff {c ceiling : U32} :
    ¬ (ceiling = 0 ∨ ceiling ≤ c) ↔ c.toNat < ceiling.toNat := by
  rw [not_or, BitVec.not_le, BitVec.lt_def]
  constructor
  · exact fun h => h.2
  · intro h
    refine ⟨?_, h⟩
    rintro rfl
    exact absurd h (Nat.not_lt_zero _)

theorem bytes_refused_iff {leased bytes ceiling : U64} :
    ¬ ((checkedAdd leased bytes).all fun sum => ceiling < sum) = true ↔
      leased.toNat + bytes.toNat ≤ ceiling.toNat := by
  cases hsum : checkedAdd leased bytes with
  | none =>
    have hceiling := ceiling.isLt
    have hover := checkedAdd_eq_none.mp hsum
    simp only [Option.all_none, not_true_eq_false, false_iff]
    omega
  | some sum =>
    rw [Option.all_some, decide_eq_true_eq, BitVec.not_lt, BitVec.le_def,
      checkedAdd_eq_some.mp hsum]

theorem endpoint_refused_iff {endpoint : Option U32} :
    ¬ (endpoint.all fun remaining => remaining = 0) = true ↔
      ∃ n, endpoint = some n ∧ 0 < n.toNat := by
  cases endpoint with
  | none => simp
  | some n =>
    rw [Option.all_some, decide_eq_true_eq]
    constructor
    · exact fun h => ⟨n, rfl, Nat.pos_of_ne_zero fun h0 => h (BitVec.eq_of_toNat_eq h0)⟩
    · rintro ⟨_, hn, hpos⟩ rfl
      cases hn
      exact absurd hpos (Nat.lt_irrefl 0)

/-- A request is admitted exactly when every counter has room. -/
theorem ReResolutionBudget.refusal_eq_none : b.refusal bytes now = none ↔ b.HasRoom bytes now := by
  constructor
  · intro h
    unfold ReResolutionBudget.refusal at h
    split at h
    · cases h
    split at h
    · cases h
    split at h
    · cases h
    split at h
    · cases h
    split at h
    · cases h
    split at h
    · cases h
    rename_i hitems hrequests hbytes hdeadline hconcurrency hendpoint
    exact ⟨counter_refused_iff.mp hitems, counter_refused_iff.mp hrequests,
      bytes_refused_iff.mp hbytes, not_le.mp hdeadline, counter_refused_iff.mp hconcurrency,
      endpoint_refused_iff.mp hendpoint⟩
  · intro h
    unfold ReResolutionBudget.refusal
    rw [if_neg (counter_refused_iff.mpr h.items), if_neg (counter_refused_iff.mpr h.requests),
      if_neg (bytes_refused_iff.mpr h.bytes), if_neg (not_le.mpr h.deadline),
      if_neg (counter_refused_iff.mpr h.concurrency), if_neg (endpoint_refused_iff.mpr h.endpoint)]

/-- A counter below its ceiling is raised by one, not saturated. -/
theorem toNat_saturatingAdd_one {c ceiling : U32} (h : c.toNat < ceiling.toNat) :
    (saturatingAdd c 1).toNat = c.toNat + 1 := by
  have hone : (1 : U32).toNat = 1 := rfl
  have hceiling := ceiling.isLt
  rw [toNat_saturatingAdd (by omega), hone]

theorem toNat_sub_one {n : U32} (h : 0 < n.toNat) : n.toNat = (n - 1).toNat + 1 := by
  have hone : (1 : U32).toNat = 1 := rfl
  rw [BitVec.toNat_sub_of_le (BitVec.le_def.mpr (by omega)), hone]
  omega

/-- One request keeps every guard, raises every counter by its own share and gives its place
back. -/
theorem attemptWithBudget_keeps {ρ : Type} (hb : b.Within) (captured : ρ) (call : BudgetedCall ρ) :
    AttemptKeeps b captured call
      (attemptWithBudget b call.expectedResponseBytes call.now call.resolver captured) := by
  unfold attemptWithBudget
  cases h : b.refusal call.expectedResponseBytes call.now with
  | some reason => exact ⟨rfl, rfl⟩
  | none =>
    obtain ⟨hitems, hrequests, hbytes, -, hconcurrency, n, hn, hpos⟩ :=
      ReResolutionBudget.refusal_eq_none.mp h
    have hitems' := toNat_saturatingAdd_one hitems
    have hrequests' := toNat_saturatingAdd_one hrequests
    have hconcurrency' := toNat_saturatingAdd_one hconcurrency
    have hbytes' : (saturatingAdd b.responseBytes call.expectedResponseBytes).toNat =
        b.responseBytes.toNat + call.expectedResponseBytes.toNat := by
      have hmax := b.maxResponseBytes.isLt
      exact toNat_saturatingAdd (by omega)
    have hback : saturatingSub (saturatingAdd b.inFlight 1) 1 = b.inFlight := by
      apply BitVec.eq_of_toNat_eq
      have hone : (1 : U32).toNat = 1 := rfl
      rw [toNat_saturatingSub, hconcurrency', hone]
      omega
    have hsame : b.SameCeilings (b.reserve call.expectedResponseBytes) := ⟨rfl, rfl, rfl, rfl, rfl⟩
    have hcharged : b.Charged call.expectedResponseBytes (b.reserve call.expectedResponseBytes) :=
      ⟨hitems', hrequests', hbytes', n, n - 1, hn, by simp [ReResolutionBudget.reserve, hn],
        toNat_sub_one hpos⟩
    have hduring : (b.reserve call.expectedResponseBytes).Within := by
      constructor
      · simp only [ReResolutionBudget.reserve]
        omega
      · simp only [ReResolutionBudget.reserve]
        omega
      · simp only [ReResolutionBudget.reserve]
        omega
      · simp only [ReResolutionBudget.reserve]
        omega
    have hafter : (b.reserve call.expectedResponseBytes).release.Within :=
      { items := hduring.items
        requests := hduring.requests
        bytes := hduring.bytes
        concurrency := by
          simp only [ReResolutionBudget.reserve, ReResolutionBudget.release, hback]
          exact hb.concurrency }
    exact ⟨hconcurrency', hduring, hsame, hcharged, hback, hafter,
      ⟨rfl, rfl, rfl, rfl, rfl⟩, ⟨hcharged.items, hcharged.requests, hcharged.bytes,
        hcharged.endpoint⟩, rfl⟩

end Calls

/-! ## A sequence of calls -/

section Runs

variable {ρ : Type}

/-- What a sequence of calls leaves behind: the counters count what was started. -/
structure Spent (b b' : ReResolutionBudget) (started : List (BudgetedCall ρ)) : Prop where
  within : b'.Within
  ceilings : b.SameCeilings b'
  inFlight : b'.inFlight = b.inFlight
  items : b'.itemsAdmitted.toNat = b.itemsAdmitted.toNat + started.length
  requests : b'.requestsReserved.toNat = b.requestsReserved.toNat + started.length
  bytes : b'.responseBytes.toNat =
    b.responseBytes.toNat + (started.map fun call => call.expectedResponseBytes.toNat).sum
  unknown : b.endpointRemaining = none → b' = b ∧ started = []
  known : ∀ n, b.endpointRemaining = some n → ∃ m, b'.endpointRemaining = some m ∧
    n.toNat = m.toNat + started.length

theorem Spent.refl {b : ReResolutionBudget} (hb : b.Within) :
    Spent b b ([] : List (BudgetedCall ρ)) where
  within := hb
  ceilings := ⟨rfl, rfl, rfl, rfl, rfl⟩
  inFlight := rfl
  items := rfl
  requests := rfl
  bytes := rfl
  unknown := fun _ => ⟨rfl, rfl⟩
  known := fun n hn => ⟨n, hn, rfl⟩

/-- One started call, and the calls after it. -/
theorem Spent.cons {b b' b'' : ReResolutionBudget} {call : BudgetedCall ρ}
    {started : List (BudgetedCall ρ)} (hceilings : b.SameCeilings b')
    (hinFlight : b'.inFlight = b.inFlight) (hcharged : b.Charged call.expectedResponseBytes b')
    (h : Spent b' b'' started) : Spent b b'' (call :: started) where
  within := h.within
  ceilings := hceilings.trans h.ceilings
  inFlight := h.inFlight.trans hinFlight
  items := by
    have hone := hcharged.items
    have hrest := h.items
    rw [List.length_cons]
    omega
  requests := by
    have hone := hcharged.requests
    have hrest := h.requests
    rw [List.length_cons]
    omega
  bytes := by
    rw [h.bytes, hcharged.bytes, List.map_cons, List.sum_cons]
    omega
  unknown := by
    intro hnone
    obtain ⟨n, m, hn, -, -⟩ := hcharged.endpoint
    rw [hnone] at hn
    cases hn
  known := by
    intro n hn
    obtain ⟨n', m, hn', hm, hone⟩ := hcharged.endpoint
    obtain ⟨last, hlast, hrest⟩ := h.known m hm
    obtain rfl : n = n' := Option.some.inj (hn.symm.trans hn')
    refine ⟨last, hlast, ?_⟩
    rw [List.length_cons]
    omega

theorem attemptEach_accounted (attempts : List (BudgetedCall ρ)) :
    ∀ {b : ReResolutionBudget} (captured : ρ), b.Within →
      Spent b (attemptEach b captured attempts).2.1
        (startedCalls (attemptEach b captured attempts).1) := by
  induction attempts with
  | nil =>
    intro b captured hb
    exact .refl hb
  | cons call rest ih =>
    intro b captured hb
    have hkeeps := attemptWithBudget_keeps hb captured call
    unfold attemptEach
    match hcall : attemptWithBudget b call.expectedResponseBytes call.now call.resolver captured with
    | (.skipped reason, b', captured') =>
      rw [hcall] at hkeeps
      obtain ⟨rfl, rfl⟩ := hkeeps
      exact ih captured' hb
    | (.started, b', captured') =>
      rw [hcall] at hkeeps
      obtain ⟨-, -, -, -, hinFlight, hb', hceilings, hcharged, -⟩ := hkeeps
      exact .cons hceilings hinFlight hcharged (ih captured' hb')

theorem attemptEach_append (before after : List (BudgetedCall ρ)) :
    ∀ (b : ReResolutionBudget) (captured : ρ),
      attemptEach b captured (before ++ after) =
        ((attemptEach b captured before).1 ++
          (attemptEach (attemptEach b captured before).2.1
            (attemptEach b captured before).2.2 after).1,
        (attemptEach (attemptEach b captured before).2.1
          (attemptEach b captured before).2.2 after).2) := by
  induction before with
  | nil =>
    intro b captured
    rfl
  | cons call rest ih =>
    intro b captured
    simp only [List.cons_append, attemptEach, ih]

/-- Started at counters within their ceilings, every call of every sequence keeps them there,
gives its place in flight back, charges exactly its own estimate, and leaves everything alone when
it is skipped; no more calls are started than the items, the requests and the known endpoint
allowance that remained. -/
theorem budgets_never_overdrawn (b : ReResolutionBudget) (captured : ρ) (hb : b.Within)
    (attempts : List (BudgetedCall ρ)) :
    (∀ before call after, attempts = before ++ call :: after →
      let (earlier, at', captured') := attemptEach b captured before
      let result := attemptWithBudget at' call.expectedResponseBytes call.now call.resolver captured'
      at'.Within ∧ AttemptKeeps at' captured' call result ∧
        ∃ later, (attemptEach b captured attempts).1 = earlier ++ (call, result.1) :: later) ∧
    let (answered, last, _) := attemptEach b captured attempts
    last.Within ∧ last.inFlight = b.inFlight ∧
      (startedCalls answered).length ≤ b.maxItems.toNat - b.itemsAdmitted.toNat ∧
      (startedCalls answered).length ≤ b.maxRequests.toNat - b.requestsReserved.toNat ∧
      (∀ n, b.endpointRemaining = some n → (startedCalls answered).length ≤ n.toNat) ∧
      (b.endpointRemaining = none → startedCalls answered = []) ∧
      last.responseBytes.toNat = b.responseBytes.toNat +
        ((startedCalls answered).map fun call => call.expectedResponseBytes.toNat).sum := by
  constructor
  · intro before call after hsplit
    have hbefore := (attemptEach_accounted before captured hb).within
    refine ⟨hbefore, attemptWithBudget_keeps hbefore _ call, ?_⟩
    rw [hsplit, attemptEach_append]
    exact ⟨_, rfl⟩
  · have h := attemptEach_accounted attempts captured hb
    have hitems := h.items
    have hrequests := h.requests
    have hmaxItems := h.within.items
    have hmaxRequests := h.within.requests
    rw [h.ceilings.items] at hmaxItems
    rw [h.ceilings.requests] at hmaxRequests
    refine ⟨h.within, h.inFlight, by omega, by omega, ?_, fun hnone => (h.unknown hnone).2, h.bytes⟩
    intro n hn
    obtain ⟨m, -, hm⟩ := h.known n hn
    omega

/-- Room for one request at a time. -/
def oneAtATime : ReResolutionBudget where
  maxItems := 3
  itemsAdmitted := 0
  maxRequests := 3
  requestsReserved := 1
  maxResponseBytes := 100
  responseBytes := 0
  maxConcurrency := 1
  inFlight := 0
  deadlineAt := seconds 300
  endpointRemaining := some 5

theorem budgets_never_overdrawn_oneAtATime :
    let attempts : List (BudgetedCall Nat) :=
      [⟨60, 1, (· + 1)⟩, ⟨BitVec.allOnes 64, 2, (· + 1)⟩, ⟨40, 3, (· + 1)⟩, ⟨0, 4, (· + 1)⟩]
    (startedCalls (attemptEach oneAtATime 0 attempts).1).length = 2 ∧
      (attemptEach oneAtATime 0 attempts).2.2 = 2 ∧
      (attemptEach oneAtATime 0 attempts).2.1.responseBytes.toNat =
        oneAtATime.responseBytes.toNat + ((startedCalls (attemptEach oneAtATime 0 attempts).1).map
          fun call => call.expectedResponseBytes.toNat).sum :=
  ⟨by decide, by decide, (budgets_never_overdrawn oneAtATime 0
    ⟨by decide, by decide, by decide, by decide⟩ _).2.2.2.2.2.2.2⟩

/-- While the only admitted request runs, its place is counted: the number in flight is the
ceiling, not below it. -/
theorem request_fills_concurrency :
    oneAtATime.Within ∧ (attemptWithBudget oneAtATime 60 1 (· + 1) 0).1 = .started ∧
      ¬ (oneAtATime.reserve 60).inFlight < (oneAtATime.reserve 60).maxConcurrency :=
  ⟨⟨by decide, by decide, by decide, by decide⟩, by decide, by decide⟩

end Runs

end InstagramArchive

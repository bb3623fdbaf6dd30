import InstagramArchive.CommandCapture

/-!
# Analysis completions

Only the durable fact that a captured revision completed analysis is stored. The inbox
claim and the link share one transaction.
-/

namespace InstagramArchive

open Relational Relational.Tx Permalink

inductive AnalysisCompletionOutcome where
  | linked
  | duplicate
  | skipped
  deriving DecidableEq, Repr

inductive AnalysisCompletionError where
  | invalidEnvelope
  | invalidPayload
  | invalidTimestamp
  | persistence (error : SqlError)
  deriving DecidableEq, Repr

instance : OfSql AnalysisCompletionError := ⟨.persistence⟩

/-- The typed completion payload. `completedAt` is `none` when the wire form is no
RFC 3339 instant. -/
structure SocialSourceAnalysisCompleted where
  owner : Uuid
  socialSourceId : Uuid
  contentDigest : ContentDigest
  completedAt : Option Instant
  deriving DecidableEq, Repr

/-- One event delivery; `payload` is `none` when it does not hold a completion. -/
structure AnalysisEnvelope where
  eventId : Uuid
  payload : Option SocialSourceAnalysisCompleted
  deriving DecidableEq, Repr

/-- One broker delivery, `none` when the bytes are no envelope. -/
abbrev AnalysisDelivery := Option AnalysisEnvelope

/-- A validated completion. -/
structure AnalysisCompletion where
  eventId : Uuid
  owner : Uuid
  socialSourceId : Uuid
  contentDigest : ContentDigest
  completedAt : Instant
  deriving DecidableEq, Repr

def decodeAnalysisCompleted (delivery : AnalysisDelivery) :
    Except AnalysisCompletionError AnalysisCompletion :=
  match delivery with
  | none => .error .invalidEnvelope
  | some envelope => match envelope.payload with
    | none => .error .invalidPayload
    | some completion => match completion.completedAt with
      | none => .error .invalidTimestamp
      | some completedAt => .ok
          { eventId := envelope.eventId
            owner := completion.owner
            socialSourceId := completion.socialSourceId
            contentDigest := completion.contentDigest
            completedAt }

/-- The preserved, live captures of an owner. -/
def linkCandidates (owner : Uuid) (db : Db) : List Capture :=
  db.captures.rows.filter fun c =>
    c.userRef = owner && c.mediaId.isSome && c.status ≠ .tombstoned

def insertLink (row : CaptureAnalysisLink) : ArchiveTx AnalysisCompletionError Bool :=
  insertUnless "capture_analysis_links_pkey" Db.captureAnalysisLinks
    (fun db t => { db with captureAnalysisLinks := t }) (fun _ => none)
    (fun db => (db.captureAnalysisLinks.lookup (row.captureId, row.contentDigest)).isSome) row

/-- The digest a completion is matched against: a persistence failure aborts, any
other failure to build the snapshot skips the completion. -/
def matchDigest (lib : Externals) (captureId : Uuid) :
    ArchiveTx AnalysisCompletionError (Option ContentDigest) := do
  match ← attempt (currentContentDigest lib captureId) with
  | .ok digest => return some digest
  | .error (.persistence error) => Tx.throw (.persistence error)
  | .error _ => return none

/-- Links the completion to the live capture of its source, while the content it was
run on is still current. -/
def linkMatchingCapture (lib : Externals) (completion : AnalysisCompletion) :
    ArchiveTx AnalysisCompletionError AnalysisCompletionOutcome := do
  let removed ← query fun db =>
    (db.localSourceRemovals.lookup (completion.owner, completion.socialSourceId)).isSome
  if removed then return .skipped
  else
    let candidates ← query (linkCandidates completion.owner)
    match candidates.find? fun c =>
        sourceIdentity lib completion.owner c.canonicalUrl = completion.socialSourceId with
    | none => return .skipped
    | some c =>
      match ← matchDigest lib c.captureId with
      | none => return .skipped
      | some current =>
        if completion.contentDigest ≠ current then return .skipped
        else
          let _ ← insertLink ⟨c.captureId, current.hex, completion.completedAt⟩
          return .linked

/-- The handling of a completion this consumer claimed for the first time. -/
def handleCompletion (lib : Externals) (completion : AnalysisCompletion) :
    ArchiveTx AnalysisCompletionError AnalysisCompletionOutcome := do
  let outcome ← linkMatchingCapture lib completion
  markInboxOutcome .analysis completion.eventId (if outcome = .linked then .processed else .skipped)
  commit
  return outcome

/-- Consumes one analysis completion delivery. -/
def ingestAnalysisCompleted (lib : Externals) (delivery : AnalysisDelivery) :
    ArchiveTx AnalysisCompletionError AnalysisCompletionOutcome := do
  let completion ← ofExcept (decodeAnalysisCompleted delivery)
  let claimed ← claimInbox .analysis completion.eventId
  if claimed then handleCompletion lib completion
  else
    commit
    return .duplicate

/-! ## What a completion leaves in the database -/

variable {lib : Externals} {env : Env} {db db' : Db}

theorem matchDigest_yields {captureId : Uuid} {digest : Option ContentDigest}
    (h : (matchDigest lib captureId).Yields env db digest db') : db = db' := by
  obtain ⟨r, m, h1, h⟩ := h.bind
  rcases h1.attempt with ⟨digest, rfl, hd⟩ | ⟨e, rfl, rfl, -⟩
  · obtain ⟨snapshot, _, h2, hd⟩ := hd.bind
    obtain ⟨-, rfl⟩ := buildSnapshot_yields h2
    obtain ⟨-, rfl⟩ := yields_pure.mp hd
    exact (yields_pure.mp h).2
  · cases e with
    | persistence error => exact h.throw.elim
    | nothingToPublish id => exact (yields_pure.mp h).2
    | invalidStoredPermalink id => exact (yields_pure.mp h).2
    | contractViolation id message => exact (yields_pure.mp h).2

/-- **What a completion does.** At most a link is stored. -/
theorem linkMatchingCapture_yields {completion : AnalysisCompletion}
    {out : AnalysisCompletionOutcome}
    (h : (linkMatchingCapture lib completion).Yields env db out db') :
    out ≠ .duplicate ∧ ∃ t, db' = { db with captureAnalysisLinks := t } := by
  obtain ⟨removed, _, h1, h⟩ := h.bind
  obtain ⟨-, rfl⟩ := h1.query
  split at h
  · obtain ⟨rfl, rfl⟩ := yields_pure.mp h
    exact ⟨by simp, _, rfl⟩
  obtain ⟨candidates, _, h2, h⟩ := h.bind
  obtain ⟨-, rfl⟩ := h2.query
  split at h
  · obtain ⟨rfl, rfl⟩ := yields_pure.mp h
    exact ⟨by simp, _, rfl⟩
  obtain ⟨digest, _, h3, h⟩ := h.bind
  obtain rfl := matchDigest_yields h3
  split at h
  · obtain ⟨rfl, rfl⟩ := yields_pure.mp h
    exact ⟨by simp, _, rfl⟩
  split at h
  · obtain ⟨rfl, rfl⟩ := yields_pure.mp h
    exact ⟨by simp, _, rfl⟩
  obtain ⟨inserted, m, h4, h⟩ := h.bind
  obtain ⟨rfl, rfl⟩ := yields_pure.mp h
  rcases h4.insertUnless with ⟨-, -, rfl⟩ | ⟨-, -, -, t, -, rfl⟩
  · exact ⟨by simp, _, rfl⟩
  · exact ⟨by simp, t, rfl⟩

theorem handleCompletion_yields {completion : AnalysisCompletion} {out : AnalysisCompletionOutcome}
    (h : (handleCompletion lib completion).Yields env db out db') :
    out ≠ .duplicate ∧ ∃ outcome t, db' = setInboxOutcome .analysis completion.eventId outcome
      { db with captureAnalysisLinks := t } := by
  obtain ⟨outcome, m, h1, h⟩ := h.bind
  obtain ⟨hne, t, rfl⟩ := linkMatchingCapture_yields h1
  obtain ⟨_, _, h2, h⟩ := h.bind
  obtain rfl := h2.execute
  obtain ⟨_, _, h3, h⟩ := h.bind
  obtain rfl := h3.commit
  obtain ⟨rfl, rfl⟩ := yields_pure.mp h
  exact ⟨hne, _, t, rfl⟩

theorem ingestAnalysisCompleted_yields {delivery : AnalysisDelivery}
    {out : AnalysisCompletionOutcome}
    (h : (ingestAnalysisCompleted lib delivery).Yields env db out db') :
    ∃ completion, decodeAnalysisCompleted delivery = .ok completion ∧
      ((out = .duplicate ∧ db' = db ∧
          (db.inboxEvents.lookup (.analysis, completion.eventId)).isSome = true) ∨
        ((db.inboxEvents.lookup (.analysis, completion.eventId)).isSome = false ∧
          ∃ t, db.inboxEvents.insert? ⟨.analysis, completion.eventId, env.now, .processed⟩ =
              some t ∧
            (handleCompletion lib completion).Yields env { db with inboxEvents := t } out db')) := by
  obtain ⟨completion, _, h1, h⟩ := h.bind
  obtain ⟨hcompletion, rfl⟩ := h1.ofExcept
  refine ⟨completion, hcompletion, ?_⟩
  obtain ⟨claimed, m, h2, h⟩ := h.bind
  rcases claimInbox_yields h2 with ⟨hknown, rfl, rfl⟩ | ⟨hfresh, rfl, t, ht, rfl⟩
  · obtain ⟨_, _, h3, h⟩ := h.bind
    obtain rfl := h3.commit
    obtain ⟨rfl, rfl⟩ := yields_pure.mp h
    exact Or.inl ⟨rfl, rfl, hknown⟩
  · exact Or.inr ⟨hfresh, t, ht, h⟩

end InstagramArchive

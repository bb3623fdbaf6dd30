import InstagramArchive.Republishing
import InstagramArchive.ServiceWrites

/-!
# Which completions are linked

A completion is linked exactly when it describes what a live capture of its source has at that
moment and no removal of the source is recorded. A removal is never withdrawn: the source stays
removed when its permalink is captured again.
-/

namespace InstagramArchive

open Relational Relational.Tx Permalink

/-- The digest of what a capture has now. -/
def currentDigest (lib : Externals) (captureId : Uuid) (db : Db) : Option ContentDigest :=
  (snapshotAt lib db captureId .captured).map SocialSourceSnapshot.contentDigest

/-- The completion describes what this capture has, and its source was never removed. -/
structure Links (lib : Externals) (completion : AnalysisCompletion) (db : Db) (c : Capture) :
    Prop where
  stored : c ∈ db.captures
  owner : c.userRef = completion.owner
  preserved : c.mediaId.isSome = true
  live : c.status ≠ .tombstoned
  source : sourceIdentity lib completion.owner c.canonicalUrl = completion.socialSourceId
  current : currentDigest lib c.captureId db = some completion.contentDigest
  kept : db.localSourceRemovals.lookup (completion.owner, completion.socialSourceId) = none

/-- No owner has two captures of one permalink. -/
def UniqueCaptures (db : Db) : Prop :=
  (db.captures.rows.map fun c => (c.userRef, c.canonicalUrl)).Nodup

/-! ## Captures stay apart -/

section Captures

variable {lib : Externals} {env : Env} {db db' : Db}

theorem CapturesKept.identities (h : CapturesKept db db') :
    (db'.captures.rows.map fun c => (c.userRef, c.canonicalUrl)) =
      db.captures.rows.map fun c => (c.userRef, c.canonicalUrl) := by
  obtain ⟨f, hf, hrows⟩ := h.captures
  rw [hrows, List.map_map]
  refine List.map_congr_left fun c _ => ?_
  exact congrArg (fun p : Provenance => (p.userRef, p.canonicalUrl)) (hf c).provenance

theorem Evolution.uniqueCaptures {call : Call} (h : Evolution lib db call db')
    (hdb : UniqueCaptures db) : UniqueCaptures db' := by
  unfold UniqueCaptures
  cases h with
  | kept h => exact h.identities ▸ hdb
  | created request permalink method captureId createdAt mid hcall hp hnew hrows hmedia h =>
    rw [h.identities, hrows, List.map_append]
    refine List.nodup_append.mpr ⟨hdb, List.nodup_singleton _, ?_⟩
    intro key hkey key' hkey' heq
    obtain ⟨c, hc, rfl⟩ := List.mem_map.mp hkey
    rw [List.map_singleton, List.mem_singleton] at hkey'
    rw [hkey'] at heq
    exact findCapture_eq_none hnew c hc ⟨congrArg Prod.fst heq, congrArg Prod.snd heq⟩
  | linked captureId permalink body normalized resolvedAt mediaId hcall hn h =>
    rw [h.captures]
    have hcol : (concludeResolved captureId mediaId db).captures.rows.map
        (fun c => (c.userRef, c.canonicalUrl)) =
          db.captures.rows.map fun c => (c.userRef, c.canonicalUrl) :=
      Table.map_update _ _ _ _ fun _ _ => rfl
    exact hcol ▸ hdb
  | overwritten observer hlive hcaptures hmedia =>
    rw [hcaptures]
    have hcol : (setStatus observer.captureId (fun _ => true) .unavailable db).captures.rows.map
        (fun c => (c.userRef, c.canonicalUrl)) =
          db.captures.rows.map fun c => (c.userRef, c.canonicalUrl) :=
      Table.map_update _ _ _ _ fun _ _ => rfl
    exact hcol ▸ hdb

theorem Erasure.captures {request : DeletionRequest} (h : Erasure lib request db db') :
    db'.captures.rows.Sublist db.captures.rows := by
  cases h with
  | capture captureId _ => exact List.filter_sublist
  | removal h => rw [h.eq]
  | _ => exact .refl _

theorem Deletes.captures {request : DeletionRequest} (h : Deletes lib env request db db') :
    db'.captures.rows.Sublist db.captures.rows := by
  have hpreorder : IsPreorder Db fun a b => b.captures.rows.Sublist a.captures.rows :=
    { refl := fun _ => .refl _, trans := fun _ _ _ h h' => h'.trans h }
  exact h.rel (fun _ _ _ => .refl _) fun _ _ herasure => herasure.captures

theorem UniqueCaptures.sublist (h : UniqueCaptures db)
    (hrows : db'.captures.rows.Sublist db.captures.rows) : UniqueCaptures db' :=
  List.Nodup.sublist (hrows.map _) h

theorem Effect.uniqueCaptures {call : Call} (h : Effect lib env db call db')
    (hdb : UniqueCaptures db) : UniqueCaptures db' := by
  by_cases hdelete : ∃ request, call = .delete request
  · obtain ⟨request, rfl⟩ := hdelete
    cases h with
    | idle => exact hdb
    | store hcall _ _ => exact hcall.elim
    | fail hcall _ _ => exact hcall.elim
    | delete h =>
      rcases applyDeletion_yields h with ⟨-, rfl⟩ | ⟨-, -, -, hdeletes⟩
      · exact hdb
      · exact hdb.sublist (Deletes.captures hdeletes)
  · exact (h.evolution fun request hcall => hdelete ⟨request, hcall⟩).uniqueCaptures hdb

theorem ServiceEffect.captures {ε α : Type} {x : Tx Db ε α} (h : ServiceEffect lib env db x db') :
    db'.captures.rows.Sublist db.captures.rows := by
  cases h with
  | lane h => rw [h.captures]
  | parsed _ h =>
    obtain ⟨_, -, _, _, _, _, rfl, -⟩ := DataExport.persistParsed_yields h
    exact .refl _
  | reconciled _ h =>
    rcases DataExport.reconcile_yields h with ⟨rfl, -⟩ | ⟨_, _, -, hreconciles, -, _, _, _, _, -, -,
      rfl⟩
    · exact .refl _
    · obtain ⟨_, _, _, _, _, rfl⟩ := hreconciles.same
      exact .refl _
  | tasks h =>
    obtain ⟨_, _, rfl⟩ := h
    exact .refl _
  | deleted h => exact (applyNewDeletion_yields h).2.2.captures

theorem uniqueCaptures_run (lib : Externals) (actions : List ServiceAction) :
    UniqueCaptures (run (serviceStep lib) {} actions).db := by
  refine service_invariant lib (fun _ _ => True) UniqueCaptures ?_ ?_
    (guarded_of_forall _ fun _ _ => trivial) List.nodup_nil
  · exact fun env db call db' heffect hdb => heffect.uniqueCaptures hdb
  · intro s a env ε α x v db' hsound _ hruns hy hdb
    exact hdb.sublist ((hsound.runs hruns).effect hy).captures

theorem UniqueCaptures.eq (h : UniqueCaptures db) {c c' : Capture} (hc : c ∈ db.captures)
    (hc' : c' ∈ db.captures) (howner : c.userRef = c'.userRef)
    (hurl : c.canonicalUrl = c'.canonicalUrl) : c = c' :=
  List.inj_on_of_nodup_map h hc hc' (Prod.ext howner hurl)

end Captures

/-! ## One delivery -/

section Delivery

variable {lib : Externals} {env : Env} {db db' : Db}

theorem buildSnapshot_fails {captureId : Uuid} {kind : FactKind} {e : PublishError}
    (h : (buildSnapshot lib captureId kind).Fails env db e) :
    (∃ q, e = .persistence q) ∨ snapshotAt lib db captureId kind = none := by
  unfold snapshotAt
  rcases h.bind with h | ⟨capture, _, h1, h⟩
  · rcases h.fetchOne with rfl | ⟨q, rfl⟩
    · exact .inl ⟨_, rfl⟩
    · exact .inl ⟨q, rfl⟩
  obtain ⟨hcapture, rfl⟩ := h1.fetchOne
  rcases h.bind with h | ⟨permalink, _, h1, h⟩
  · have herror := h.ofExcept
    unfold storedPermalink at herror
    cases hp : canonicalize capture.canonicalUrl with
    | ok p =>
      rw [hp] at herror
      cases herror
    | error e => simp [hcapture, hp, Except.toOption]
  obtain ⟨hpermalink, rfl⟩ := h1.ofExcept
  rcases h.bind with h | ⟨row, _, h1, h⟩
  · rcases Fails.bind h with h | ⟨row, _, h1, h⟩
    · obtain ⟨q, rfl⟩ := h.statement
      exact .inl ⟨q, rfl⟩
    · obtain ⟨rfl, rfl⟩ := h1.query
      cases hrow : currentRow db captureId with
      | none => simp [hcapture]
      | some row =>
        rw [hrow] at h
        exact (Fails.pure h).elim
  obtain ⟨hrow, rfl⟩ := h1.fetchOne
  rcases h.bind with h | ⟨text, _, h1, h⟩
  · have herror := h.ofExcept
    simp [hcapture, hrow, herror, Except.toOption]
  obtain ⟨htext, rfl⟩ := h1.ofExcept
  rcases h.bind with h | ⟨_, _, h1, h⟩
  · have herror := h.ofExcept
    simp [hcapture, mapError_ok hpermalink, hrow, htext, herror, Except.toOption]
  · exact (Fails.pure h).elim

/-- The digest a completion is matched against is the current one. -/
theorem matchDigest_reads {captureId : Uuid} {digest : Option ContentDigest}
    (h : (matchDigest lib captureId).Yields env db digest db') :
    digest = currentDigest lib captureId db ∧ db = db' := by
  refine ⟨?_, matchDigest_yields h⟩
  obtain ⟨r, m, h1, h⟩ := h.bind
  unfold currentDigest
  rcases h1.attempt with ⟨d, rfl, hd⟩ | ⟨e, rfl, rfl, he⟩
  · obtain ⟨snapshot, _, h2, hd⟩ := hd.bind
    obtain ⟨hsnapshot, rfl⟩ := buildSnapshot_yields h2
    obtain ⟨rfl, rfl⟩ := yields_pure.mp hd
    obtain ⟨rfl, -⟩ := yields_pure.mp h
    rw [hsnapshot]
    rfl
  · have hfails : (∃ q, e = .persistence q) ∨ snapshotAt lib db captureId .captured = none := by
      rcases he.bind with he | ⟨snapshot, _, -, he⟩
      · exact buildSnapshot_fails he
      · exact (Fails.pure he).elim
    rcases hfails with ⟨q, rfl⟩ | hnone
    · exact h.throw.elim
    · rw [hnone]
      cases e with
      | persistence error => exact h.throw.elim
      | nothingToPublish id => exact (yields_pure.mp h).1
      | invalidStoredPermalink id => exact (yields_pure.mp h).1
      | contractViolation id message => exact (yields_pure.mp h).1

/-- The link of a completion to a capture. -/
def linkRow (completion : AnalysisCompletion) (captureId : Uuid) : CaptureAnalysisLink :=
  ⟨captureId, completion.contentDigest.hex, completion.completedAt⟩

/-- What a handled completion stores. -/
inductive Linked (lib : Externals) (completion : AnalysisCompletion) (db : Db) :
    AnalysisCompletionOutcome → Table CaptureAnalysisLink CaptureAnalysisLink.key → Prop
  | linked {c : Capture} {links : Table CaptureAnalysisLink CaptureAnalysisLink.key}
      (hc : Links lib completion db c)
      (hstored : (links.lookup (c.captureId, completion.contentDigest.hex)).isSome = true)
      (hlinks : ∀ l ∈ links, l ∈ db.captureAnalysisLinks ∨ l = linkRow completion c.captureId) :
      Linked lib completion db .linked links
  | skipped (h : ∀ c, ¬ Links lib completion db c) :
      Linked lib completion db .skipped db.captureAnalysisLinks

theorem mem_linkCandidates {owner : Uuid} {c : Capture} :
    c ∈ linkCandidates owner db ↔
      c ∈ db.captures ∧ c.userRef = owner ∧ c.mediaId.isSome = true ∧ c.status ≠ .tombstoned := by
  unfold linkCandidates
  rw [List.mem_filter, Table.mem_rows]
  simp only [Bool.and_eq_true, decide_eq_true_eq, and_assoc]

/-- **Linking a completion.** With permalinks told apart by their identities, the capture it finds
is the only one it can be linked to. -/
theorem linkMatchingCapture_links (hfree : lib.CollisionFree) (hunique : UniqueCaptures db)
    {completion : AnalysisCompletion} {out : AnalysisCompletionOutcome}
    (h : (linkMatchingCapture lib completion).Yields env db out db') :
    ∃ links, db' = { db with captureAnalysisLinks := links } ∧
      Linked lib completion db out links := by
  obtain ⟨removed, _, h1, h⟩ := h.bind
  obtain ⟨hremoved, rfl⟩ := h1.query
  split at h
  · rename_i hyes
    obtain ⟨rfl, rfl⟩ := yields_pure.mp h
    refine ⟨_, rfl, .skipped fun c hc => ?_⟩
    rw [hremoved, hc.kept] at hyes
    cases hyes
  rename_i hno
  have hkept : db.localSourceRemovals.lookup (completion.owner, completion.socialSourceId) =
      none := by
    rw [hremoved] at hno
    simpa using hno
  obtain ⟨candidates, _, h2, h⟩ := h.bind
  obtain ⟨hcandidates, rfl⟩ := h2.query
  split at h
  · rename_i hfind
    obtain ⟨rfl, rfl⟩ := yields_pure.mp h
    refine ⟨_, rfl, .skipped fun c hc => ?_⟩
    have hmem : c ∈ candidates := by
      rw [hcandidates]
      exact mem_linkCandidates.mpr ⟨hc.stored, hc.owner, hc.preserved, hc.live⟩
    exact List.find?_eq_none.mp hfind c hmem (by simpa using hc.source)
  rename_i c hfind
  have hmem := List.mem_of_find?_eq_some hfind
  rw [hcandidates] at hmem
  obtain ⟨hstored, howner, hpreserved, hlive⟩ := mem_linkCandidates.mp hmem
  have hsource : sourceIdentity lib completion.owner c.canonicalUrl = completion.socialSourceId := by
    simpa using List.find?_some hfind
  -- a capture with the same identity is this one
  have honly : ∀ c', Links lib completion db c' → c' = c := by
    intro c' hc'
    refine hunique.eq hc'.stored hstored (hc'.owner.trans howner.symm) ?_
    have hidentity := hfree (hc'.source.trans hsource.symm)
    simpa using hidentity
  obtain ⟨digest, _, h3, h⟩ := h.bind
  obtain ⟨hdigest, rfl⟩ := matchDigest_reads h3
  split at h
  · obtain ⟨rfl, rfl⟩ := yields_pure.mp h
    refine ⟨_, rfl, .skipped fun c' hc' => ?_⟩
    have hcurrent := hc'.current
    rw [honly c' hc', ← hdigest] at hcurrent
    cases hcurrent
  rename_i current
  split at h
  · rename_i hstale
    obtain ⟨rfl, rfl⟩ := yields_pure.mp h
    refine ⟨_, rfl, .skipped fun c' hc' => ?_⟩
    have hcurrent := hc'.current
    rw [honly c' hc', ← hdigest] at hcurrent
    exact hstale (Option.some.inj hcurrent).symm
  rename_i hsame
  have hsame : completion.contentDigest = current := by simpa using hsame
  subst hsame
  obtain ⟨inserted, m, h4, h⟩ := h.bind
  obtain ⟨rfl, rfl⟩ := yields_pure.mp h
  have hlinks : Links lib completion db c :=
    ⟨hstored, howner, hpreserved, hlive, hsource, hdigest.symm, hkept⟩
  rcases h4.insertUnless with ⟨hthere, -, rfl⟩ | ⟨-, -, -, t, ht, rfl⟩
  · exact ⟨_, rfl, .linked hlinks hthere fun l hl => .inl hl⟩
  · refine ⟨t, rfl, .linked hlinks ?_ fun l hl => (Table.mem_of_insert? ht l).mp hl⟩
    rw [Table.lookup_of_insert? ht]
    simp [CaptureAnalysisLink.key]

/-- A first delivery is answered by what the store has before. -/
theorem ingestAnalysisCompleted_links (hfree : lib.CollisionFree) (hunique : UniqueCaptures db)
    {delivery : AnalysisDelivery} {completion : AnalysisCompletion}
    {out : AnalysisCompletionOutcome} (hdecode : decodeAnalysisCompleted delivery = .ok completion)
    (hfirst : db.inboxEvents.lookup (.analysis, completion.eventId) = none)
    (h : (ingestAnalysisCompleted lib delivery).Yields env db out db') :
    Linked lib completion db out db'.captureAnalysisLinks := by
  obtain ⟨completion', hdecode', ⟨-, -, hknown⟩ | ⟨-, t, -, hh⟩⟩ := ingestAnalysisCompleted_yields h
  · rw [hdecode] at hdecode'
    cases hdecode'
    rw [hfirst] at hknown
    cases hknown
  · rw [hdecode] at hdecode'
    cases hdecode'
    obtain ⟨outcome, m, h1, h⟩ := hh.bind
    have hclaimed : UniqueCaptures { db with inboxEvents := t } := hunique
    obtain ⟨links, rfl, hlinked⟩ := linkMatchingCapture_links hfree hclaimed h1
    obtain ⟨_, _, h2, h⟩ := h.bind
    obtain rfl := h2.execute
    obtain ⟨_, _, h3, h⟩ := h.bind
    obtain rfl := h3.commit
    obtain ⟨rfl, rfl⟩ := yields_pure.mp h
    cases hlinked with
    | linked hc hstored hlinks =>
      exact .linked ⟨hc.stored, hc.owner, hc.preserved, hc.live, hc.source, hc.current, hc.kept⟩
        hstored hlinks
    | skipped hnone =>
      exact .skipped fun c hc => hnone c
        ⟨hc.stored, hc.owner, hc.preserved, hc.live, hc.source, hc.current, hc.kept⟩

end Delivery

/-! ## Everything else stores no link -/

/-- Links are kept or removed. -/
def LinksKept (db db' : Db) : Prop := ∀ l ∈ db'.captureAnalysisLinks, l ∈ db.captureAnalysisLinks

section Frames

variable {lib : Externals} {env : Env} {db db' : Db}

theorem LinksKept.of_eq (h : db'.captureAnalysisLinks = db.captureAnalysisLinks) :
    LinksKept db db' := by
  intro l hl
  rwa [h] at hl

instance : IsPreorder Db LinksKept where
  refl _ := .of_eq rfl
  trans _ _ _ h h' l hl := h l (h' l hl)

theorem Publishes.links {kind : FactKind} {captureId : Uuid}
    (h : Publishes lib kind captureId db db') :
    db'.captureAnalysisLinks = db.captureAnalysisLinks := by
  obtain ⟨_, _, _, -, happ⟩ := h
  rw [happ.eq]

theorem recordFailedResolution_links {captureId : Uuid} {observed : AvailabilityObservationKind}
    {resolvedAt : Instant} {out : ResolutionOutcome}
    (h : (recordFailedResolution lib captureId observed resolvedAt).Yields env db out db') :
    db'.captureAnalysisLinks = db.captureAnalysisLinks := by
  obtain ⟨observations, mid, rfl, ⟨mediaId, -, -, hfact⟩ | ⟨-, rfl⟩⟩ :=
    recordFailedResolution_yields h
  · exact hfact.links
  · rfl

theorem reportPending_links {captureId : Uuid} {now : Instant} {n : Nat}
    (h : (reportPending lib captureId now).Yields env db n db') :
    db'.captureAnalysisLinks = db.captureAnalysisLinks := by
  obtain ⟨c, -, ⟨-, rfl⟩ | ⟨conclusion, -, hr⟩⟩ := reportPending_yields h
  · rfl
  · rw [hr.1]
    rfl

theorem submitCaptureInTransaction_links {request : CaptureRequest}
    {submission : CaptureSubmission}
    (h : (submitCaptureInTransaction request).Yields env db submission db') :
    db'.captureAnalysisLinks = db.captureAnalysisLinks := by
  obtain ⟨_, _, -, -, ⟨_, _, -, -, rfl, -⟩ | ⟨_, -, rfl, -⟩⟩ := submitCaptureInTransaction_yields h
  · rfl
  · rfl

theorem ingestBrowserCaptureCommand_links {delivery : CommandDelivery}
    {out : BrowserCaptureIngested}
    (h : (ingestBrowserCaptureCommand lib delivery).Yields env db out db') :
    db'.captureAnalysisLinks = db.captureAnalysisLinks := by
  obtain ⟨command, -, ⟨-, rfl, -⟩ | ⟨-, t, -, hh⟩⟩ := ingestBrowserCaptureCommand_yields h
  · rfl
  rcases handleCommand_yields hh with ⟨e, -, hr⟩ | ⟨submission, m, m', -, hs, hrec, rfl⟩
  · obtain ⟨-, eventId, occurredAt, m, happ, rfl⟩ := rejectCommand_yields hr
    change m.captureAnalysisLinks = _
    rw [happ.eq]
  · have hm : m.captureAnalysisLinks = db.captureAnalysisLinks :=
      (submitCaptureInTransaction_links hs).trans rfl
    rcases recordOperation_yields hrec with ⟨-, rfl⟩ | ⟨-, ops, eventId, occurredAt, -, happ⟩
    · exact hm
    · change m'.captureAnalysisLinks = _
      rw [happ.eq]
      exact hm

theorem Deletes.linksKept {request : DeletionRequest} (h : Deletes lib env request db db') :
    LinksKept db db' := by
  refine h.rel (fun _ _ _ => .of_eq rfl) fun a b herasure => ?_
  cases herasure with
  | removal h => exact .of_eq (by rw [h.eq])
  | clearCapture captureId _ => exact fun l hl => ((Table.mem_delete _ _ l).mp hl).1
  | _ => exact .of_eq rfl

/-- A call other than the delivery of a completion stores no link. -/
theorem Effect.linksKept {call : Call} (h : Effect lib env db call db')
    (hcall : ∀ delivery, call ≠ .analysis delivery) : LinksKept db db' := by
  cases h with
  | idle => exact .of_eq rfl
  | submit h => exact .of_eq (submitCaptureInTransaction_links h)
  | command h => exact .of_eq (ingestBrowserCaptureCommand_links h)
  | analysis h => exact (hcall _ rfl).elim
  | claim h =>
    exact .of_eq (claimEach_invariant (fun m => m.captureAnalysisLinks = db.captureAnalysisLinks)
      (fun _ _ _ hm => hm) (fun _ _ _ _ hr hm => (reportPending_links hr).trans hm) h rfl)
  | reschedule => exact .of_eq rfl
  | store _ _ h =>
    obtain ⟨mid, hstores, hfact⟩ := storeResolution_yields h
    have hmid : mid.captureAnalysisLinks = db.captureAnalysisLinks := by rw [hstores.frame]
    split at hfact
    · exact .of_eq (hfact.links.trans hmid)
    · rw [hfact]
      exact .of_eq hmid
  | fail _ _ h => exact .of_eq (recordFailedResolution_links h)
  | unmapped h => exact .of_eq (recordFailedResolution_links h)
  | report h => exact .of_eq (reportPending_links h)
  | unavailable h =>
    obtain ⟨m, t, rfl, rfl⟩ := writeUnavailable_yields h
    split
    · exact .of_eq rfl
    · exact .of_eq rfl
  | tombstone h =>
    obtain ⟨c, -, ⟨-, rfl, -⟩ | ⟨-, permalink, eventId, deletions, removals, m, -, -, happ, rfl⟩⟩ :=
      tombstoneCapture_yields h
    · exact .of_eq rfl
    · refine .of_eq ?_
      change m.captureAnalysisLinks = _
      rw [happ.eq]
  | mediaFact h => exact .of_eq (by rw [h.eq])
  | book h => exact .of_eq rfl
  | acknowledge => exact .of_eq rfl
  | delete h =>
    rcases applyDeletion_yields h with ⟨-, rfl⟩ | ⟨-, -, -, hdeletes⟩
    · exact .of_eq rfl
    · exact Deletes.linksKept hdeletes

theorem ServiceEffect.linksKept {ε α : Type} {x : Tx Db ε α} (h : ServiceEffect lib env db x db') :
    LinksKept db db' := by
  cases h with
  | lane h => exact .of_eq h.links
  | parsed _ h =>
    obtain ⟨_, -, _, _, _, _, rfl, -⟩ := DataExport.persistParsed_yields h
    exact .of_eq rfl
  | reconciled _ h =>
    rcases DataExport.reconcile_yields h with ⟨rfl, -⟩ | ⟨_, _, -, hreconciles, -, _, _, _, _, -, -,
      rfl⟩
    · exact .of_eq rfl
    · obtain ⟨_, _, _, _, _, rfl⟩ := hreconciles.same
      exact .of_eq rfl
  | tasks h =>
    obtain ⟨_, _, rfl⟩ := h
    exact .of_eq rfl
  | deleted h => exact (applyNewDeletion_yields h).2.2.linksKept

end Frames

/-! ## Runs -/

/-- The first delivery of a completion, and what it commits. -/
structure Delivers (lib : Externals) (env : Env) (db : Db) (delivery : AnalysisDelivery)
    (completion : AnalysisCompletion) (out : AnalysisCompletionOutcome) (db' : Db) : Prop where
  decode : decodeAnalysisCompleted delivery = .ok completion
  first : db.inboxEvents.lookup (.analysis, completion.eventId) = none
  exec : (ingestAnalysisCompleted lib delivery).exec env db = (.ok out, db')

section Runs

variable {lib : Externals}

theorem Delivers.linked {env : Env} {db db' : Db} {delivery : AnalysisDelivery}
    {completion : AnalysisCompletion} {out : AnalysisCompletionOutcome}
    (h : Delivers lib env db delivery completion out db') (hfree : lib.CollisionFree)
    (hunique : UniqueCaptures db) : Linked lib completion db out db'.captureAnalysisLinks := by
  rcases exec_cases (ingestAnalysisCompleted lib delivery) env db with ⟨out', m, he, hy⟩ | ⟨e, he⟩
  · rw [h.exec] at he
    cases he
    exact ingestAnalysisCompleted_links hfree hunique h.decode h.first hy
  · rw [h.exec] at he
    cases he

/-- A delivery that is not the first one, or aborts, stores no link. -/
theorem delivery_links (lib : Externals) (env : Env) (db : Db) (delivery : AnalysisDelivery) :
    ((Call.analysis delivery).perform lib env db).captureAnalysisLinks = db.captureAnalysisLinks ∨
      ∃ completion out, Delivers lib env db delivery completion out
        ((Call.analysis delivery).perform lib env db) := by
  rcases exec_cases (ingestAnalysisCompleted lib delivery) env db with ⟨out, m, he, hy⟩ | ⟨e, he⟩
  · have hperform : (Call.analysis delivery).perform lib env db = m := congrArg Prod.snd he
    rw [hperform]
    obtain ⟨completion, hdecode, ⟨-, rfl, -⟩ | ⟨hfirst, -⟩⟩ := ingestAnalysisCompleted_yields hy
    · exact .inl rfl
    · exact .inr ⟨completion, out, hdecode, by simpa using hfirst, he⟩
  · exact .inl (congrArg (fun r => r.2.captureAnalysisLinks) he)

/-- **Analysis links are exactly the live, current ones.** At every moment a first delivery links
exactly when its completion describes a live capture of a source without a removal, and no other
step stores a link. -/
theorem analysis_links_exact (lib : Externals) (hfree : lib.CollisionFree)
    (actions : List ServiceAction) :
    (∀ env delivery completion out db',
      Delivers lib env (run (serviceStep lib) {} actions).db delivery completion out db' →
        (out = .linked ↔ ∃ c, Links lib completion (run (serviceStep lib) {} actions).db c) ∧
        (∀ c, Links lib completion (run (serviceStep lib) {} actions).db c →
          (db'.captureAnalysisLinks.lookup (c.captureId, completion.contentDigest.hex)).isSome) ∧
        (out ≠ .linked → db'.captureAnalysisLinks =
          (run (serviceStep lib) {} actions).db.captureAnalysisLinks)) ∧
      ∀ a, ∀ l ∈ (serviceStep lib (run (serviceStep lib) {} actions) a).db.captureAnalysisLinks,
        l ∉ (run (serviceStep lib) {} actions).db.captureAnalysisLinks →
          ∃ env delivery completion out c, a = .archive (.analysis env delivery) ∧
            Delivers lib env (run (serviceStep lib) {} actions).db delivery completion out
              (serviceStep lib (run (serviceStep lib) {} actions) a).db ∧
            Links lib completion (run (serviceStep lib) {} actions).db c ∧
            l = linkRow completion c.captureId := by
  have hunique := uniqueCaptures_run lib actions
  have hsound : (run (serviceStep lib) {} actions).Sound lib :=
    run_invariant (serviceStep lib) (fun _ _ => True) (fun s => s.Sound lib)
      (fun s a _ h => serviceStep_sound a h) (guarded_of_forall _ fun _ _ => trivial)
      fun job hjob => absurd hjob (by simp)
  generalize run (serviceStep lib) {} actions = s at hunique hsound
  refine ⟨fun env delivery completion out db' hd => ?_, fun a l hl hnew => ?_⟩
  · have hlinked := hd.linked hfree hunique
    generalize db'.captureAnalysisLinks = links at hlinked
    cases hlinked with
    | linked hc hstored hlinks =>
      refine ⟨⟨fun _ => ⟨_, hc⟩, fun _ => rfl⟩, fun c' hc' => ?_, fun h => (h rfl).elim⟩
      have hsame := hunique.eq hc'.stored hc.stored (hc'.owner.trans hc.owner.symm)
        (by simpa using hfree (hc'.source.trans hc.source.symm))
      rwa [hsame]
    | skipped hnone =>
      refine ⟨⟨nofun, ?_⟩, fun c hc => (hnone c hc).elim, fun _ => rfl⟩
      rintro ⟨c, hc⟩
      exact (hnone c hc).elim
  · rcases serviceStep_cases lib s a with h | ⟨action, env, call, rfl, hcall, heffect⟩ |
      ⟨env, ε, α, x, v, hruns, hy⟩
    · rw [h] at hl
      exact (hnew hl).elim
    · by_cases hanalysis : ∃ delivery, call = .analysis delivery
      · obtain ⟨delivery, rfl⟩ := hanalysis
        have haction : action = .analysis env delivery := by
          cases action <;>
            simp_all [System.call, Option.bind_eq_some_iff, Option.map_eq_some_iff]
        subst haction
        rcases delivery_links lib env s.db delivery with hsame | ⟨completion, out, hd⟩
        · change l ∈ ((Call.analysis delivery).perform lib env s.db).captureAnalysisLinks at hl
          rw [hsame] at hl
          exact (hnew hl).elim
        · have hlinked := hd.linked hfree hunique
          change l ∈ ((Call.analysis delivery).perform lib env s.db).captureAnalysisLinks at hl
          generalize hlinks : ((Call.analysis delivery).perform lib env s.db).captureAnalysisLinks =
            links at hlinked hl
          cases hlinked with
          | linked hc hstored hrows =>
            rcases hrows l hl with hold | rfl
            · exact (hnew hold).elim
            · exact ⟨env, delivery, completion, _, _, rfl, hd, hc, rfl⟩
          | skipped hnone => exact (hnew hl).elim
      · exact (hnew (heffect.linksKept (fun d hd => hanalysis ⟨d, hd⟩) l hl)).elim
    · exact (hnew (((hsound.runs hruns).effect hy).linksKept l hl)).elim

/-! ### A permalink captured again -/

/-- Analysis of what the first answer of `fetchedRun` stores is complete. -/
def fetchedCompletion (eventId : Uuid) : AnalysisCompletion :=
  { eventId
    owner := 1
    socialSourceId := sourceIdentity reference 1 fetchedPermalink.url
    contentDigest := contentDigest reference fetchedPermalink (some "X") .available
    completedAt := 50 }

def fetchedDelivery (eventId : Uuid) : AnalysisDelivery :=
  some ⟨eventId, some ⟨1, sourceIdentity reference 1 fetchedPermalink.url,
    contentDigest reference fetchedPermalink (some "X") .available, some 50⟩⟩

/-- The completion of a first capture is linked. -/
theorem analysis_links_exact_firstAnswer :
    (((ingestAnalysisCompleted reference (fetchedDelivery 9)).exec (quietEnv 40 400)
      (run (serviceStep reference) {}
        ((fetchedRun ++ [firstAnswer]).map .archive)).db).1.toOption = some .linked) ∧
      ∃ c, Links reference (fetchedCompletion 9)
        (run (serviceStep reference) {} ((fetchedRun ++ [firstAnswer]).map .archive)).db c := by
  have hanswer : ((ingestAnalysisCompleted reference (fetchedDelivery 9)).exec (quietEnv 40 400)
      (run (serviceStep reference) {}
        ((fetchedRun ++ [firstAnswer]).map .archive)).db).1.toOption = some .linked := by
    decide +kernel
  refine ⟨hanswer, ?_⟩
  have hexact := (analysis_links_exact reference reference_collisionFree
    ((fetchedRun ++ [firstAnswer]).map .archive)).1 (quietEnv 40 400) (fetchedDelivery 9)
    (fetchedCompletion 9)
  generalize hrun : (ingestAnalysisCompleted reference (fetchedDelivery 9)).exec (quietEnv 40 400)
    (run (serviceStep reference) {} ((fetchedRun ++ [firstAnswer]).map .archive)).db = r at hanswer
  obtain ⟨result, db'⟩ := r
  cases result with
  | error e => cases hanswer
  | ok out =>
    cases hanswer
    exact (hexact .linked db' ⟨rfl, by decide +kernel, hrun⟩).1.mp rfl

/-- The capture is resolved and deleted. -/
def deletedCapture : List ServiceAction :=
  (fetchedRun ++ [firstAnswer, .delete (quietEnv 40 400) ⟨8, 1, .capture 100⟩]).map .archive

/-- The permalink is captured again, and resolved with what it had before. -/
def recapture : List ServiceAction :=
  [.archive (.submit (quietEnv 50 500)
      ⟨1, "http://instagr.am/p/A", 5, .iosShareExtension, none, none⟩),
    .archive (.beginFetch (quietEnv 60 600) 500 60),
    .archive (.applyFetch (quietEnv 70 700) 0 (titledPayload "X"))]

/-- The new capture is live and current, and nothing was removed since it was created: its
completion is skipped. -/
theorem recapture_not_linked :
    (run (serviceStep reference) {} deletedCapture).db.captures.rows = [] ∧
      (run (serviceStep reference) {} (deletedCapture ++ recapture)).db.localSourceRemovals.rows =
        (run (serviceStep reference) {} deletedCapture).db.localSourceRemovals.rows ∧
      (run (serviceStep reference) {} (deletedCapture ++ recapture)).db.captures.rows.map
        (fun c => (c.captureId, c.userRef, c.canonicalUrl, c.mediaId.isSome, c.status)) =
          [(500, 1, fetchedPermalink.url, true, .resolved)] ∧
      currentDigest reference 500
        (run (serviceStep reference) {} (deletedCapture ++ recapture)).db =
          some (fetchedCompletion 9).contentDigest ∧
      ((run (serviceStep reference) {} (deletedCapture ++ recapture)).db.inboxEvents.lookup
        (.analysis, 9)) = none ∧
      ((ingestAnalysisCompleted reference (fetchedDelivery 9)).exec (quietEnv 80 800)
        (run (serviceStep reference) {} (deletedCapture ++ recapture)).db).1.toOption =
          some .skipped := by
  refine ⟨?_, ?_, ?_, ?_, ?_, ?_⟩
  · decide +kernel
  · decide +kernel
  · decide +kernel
  · decide +kernel
  · decide +kernel
  · decide +kernel

end Runs

end InstagramArchive

import InstagramArchive.Reference

/-!
# Capture identity and provenance

A capture is created by one submission and then only moved: its status, its schedule and
its link to a media row change, its identity and provenance never do. Everything in
flight names a stored capture by its identifier together with its stored permalink, so a
resolution always finds the media row the capture is linked to already.
-/

namespace InstagramArchive

open Relational Relational.Tx Permalink

/-- What a capture keeps for good. -/
structure Provenance where
  captureId : Uuid
  userRef : Uuid
  canonicalUrl : String
  acquisitionMethod : AcquisitionMethod
  savedAuthority : SavedAuthority
  clientSource : ClientSource
  note : Option String
  clientIdempotencyKey : Option String
  capturedAt : Instant
  createdAt : Instant

def Capture.provenance (c : Capture) : Provenance :=
  { captureId := c.captureId
    userRef := c.userRef
    canonicalUrl := c.canonicalUrl
    acquisitionMethod := c.acquisitionMethod
    savedAuthority := c.savedAuthority
    clientSource := c.clientSource
    note := c.note
    clientIdempotencyKey := c.clientIdempotencyKey
    capturedAt := c.capturedAt
    createdAt := c.createdAt }

/-- The identifiers of the media rows with their permalinks. -/
def mediaKeys (db : Db) : List (Uuid × String) := db.media.rows.map fun m => (m.mediaId, m.permalink)

/-! ## What a call does to captures and media rows -/

/-- A capture moved in status and schedule only: none becomes failed and a tombstoned one
stays tombstoned. -/
structure Capture.MovesTo (c c' : Capture) : Prop where
  provenance : c'.provenance = c.provenance
  mediaId : c'.mediaId = c.mediaId
  failed : c'.status = .failed → c.status = .failed
  tombstoned : c.status = .tombstoned → c'.status = .tombstoned

/-- The captures only moved, and the media rows kept their keys. -/
structure CapturesKept (db db' : Db) : Prop where
  captures : ∃ f : Capture → Capture, (∀ c : Capture, c.MovesTo (f c)) ∧
    db'.captures.rows = db.captures.rows.map f
  media : mediaKeys db' = mediaKeys db

/-- One capture is linked to the media row of `url`, which is found or created. -/
structure CaptureLinked (captureId : Uuid) (url : String) (mediaId : Uuid) (db db' : Db) :
    Prop where
  captures : db'.captures.rows = (concludeResolved captureId mediaId db).captures.rows
  media : (mediaKeys db' = mediaKeys db ∧ (mediaId, url) ∈ mediaKeys db) ∨
    (mediaKeys db' = mediaKeys db ++ [(mediaId, url)] ∧ ∀ key ∈ mediaKeys db, key.2 ≠ url)

/-- The call takes in a submission. -/
def Call.Intake : Call → Prop
  | .submit _ | .command _ => True
  | _ => False

/-- What a call does to captures and media rows. -/
inductive Evolution (lib : Externals) (db : Db) : Call → Db → Prop
  | kept {call : Call} {db' : Db} (h : CapturesKept db db') : Evolution lib db call db'
  | created {call : Call} {db' : Db} (request : CaptureRequest) (permalink : CanonicalPermalink)
      (method : AcquisitionMethod) (captureId : Uuid) (createdAt : Instant) (mid : Db)
      (hcall : call.Intake) (hp : canonicalize request.url = .ok permalink)
      (hnew : findCapture db request.userRef permalink.url = none)
      (hrows : mid.captures.rows =
        db.captures.rows ++ [newCapture request permalink method captureId createdAt])
      (hmedia : mediaKeys mid = mediaKeys db) (h : CapturesKept mid db') : Evolution lib db call db'
  | linked {call : Call} {db' : Db} (captureId : Uuid) (permalink : CanonicalPermalink)
      (body : String) (normalized : NormalizedMedia) (resolvedAt : Instant) (mediaId : Uuid)
      (hcall : call.Applies captureId permalink (.payload body) resolvedAt)
      (hn : normalize lib body permalink.kind = some normalized)
      (h : CaptureLinked captureId permalink.url mediaId db db') : Evolution lib db call db'
  /-- A fallback recording that read a live status overwrites whatever is stored. -/
  | overwritten {db' : Db} (observer : Observer) (hlive : observer.status.live = true)
      (hcaptures : db'.captures.rows =
        (setStatus observer.captureId (fun _ => true) .unavailable db).captures.rows)
      (hmedia : mediaKeys db' = mediaKeys db) : Evolution lib db (.unavailable observer) db'

section Effects

variable {lib : Externals} {env : Env} {db db' : Db}

theorem Capture.MovesTo.refl (c : Capture) : c.MovesTo c := ⟨rfl, rfl, id, id⟩

theorem CapturesKept.of_eq (hc : db'.captures = db.captures) (hm : mediaKeys db' = mediaKeys db) :
    CapturesKept db db' :=
  ⟨⟨id, .refl, by rw [hc, List.map_id]⟩, hm⟩

theorem CapturesKept.refl (db : Db) : CapturesKept db db := .of_eq rfl rfl

theorem CapturesKept.trans {a b c : Db} (h : CapturesKept a b) (h' : CapturesKept b c) :
    CapturesKept a c := by
  obtain ⟨f, hf, hrows⟩ := h.captures
  obtain ⟨g, hg, hrows'⟩ := h'.captures
  refine ⟨⟨g ∘ f, ?_, ?_⟩, h'.media.trans h.media⟩
  · intro x
    exact
      { provenance := (hg (f x)).provenance.trans (hf x).provenance
        mediaId := (hg (f x)).mediaId.trans (hf x).mediaId
        failed := fun h => (hf x).failed ((hg (f x)).failed h)
        tombstoned := fun h => (hg (f x)).tombstoned ((hf x).tombstoned h) }
  · rw [hrows', hrows, List.map_map]

theorem CapturesKept.after {m : Db} (h : CapturesKept m db') (hc : m.captures = db.captures)
    (hm : mediaKeys m = mediaKeys db) : CapturesKept db db' :=
  (CapturesKept.of_eq hc hm).trans h

theorem CapturesKept.of_update {p : Capture → Bool} {g : Capture → Capture}
    {hg : ∀ c, (g c).captureId = c.captureId}
    (hmoves : ∀ c : Capture, p c = true → c.MovesTo (g c)) :
    CapturesKept db { db with captures := db.captures.update p g hg } := by
  refine ⟨⟨fun c => if p c then g c else c, ?_, rfl⟩, rfl⟩
  intro c
  by_cases hp : p c
  · simpa [hp] using hmoves c hp
  · simpa [hp] using Capture.MovesTo.refl c

theorem setStatus_capturesKept (captureId : Uuid) {p : CaptureStatus → Bool}
    {status : CaptureStatus} (db : Db) (hfailed : status ≠ .failed)
    (htombstoned : p .tombstoned = true → status = .tombstoned) :
    CapturesKept db (setStatus captureId p status db) := by
  apply CapturesKept.of_update
  intro c hp
  simp only [Bool.and_eq_true] at hp
  exact ⟨rfl, rfl, fun h => (hfailed h).elim, fun h => htombstoned (h ▸ hp.2)⟩

theorem Publishes.capturesKept {kind : FactKind} {captureId : Uuid}
    (h : Publishes lib kind captureId db db') : CapturesKept db db' := by
  obtain ⟨snapshot, eventId, occurredAt, -, happ⟩ := h
  rw [happ.eq]
  exact .of_eq rfl rfl

theorem Appends.capturesKept {row : OutboxEvent} (h : Appends db row db') :
    CapturesKept db db' := by
  rw [h.eq]
  exact .of_eq rfl rfl

theorem recordFailedResolution_capturesKept {captureId : Uuid}
    {observed : AvailabilityObservationKind} {resolvedAt : Instant} {out : ResolutionOutcome}
    (h : (recordFailedResolution lib captureId observed resolvedAt).Yields env db out db') :
    CapturesKept db db' := by
  obtain ⟨observations, mid, rfl, hcases⟩ := recordFailedResolution_yields h
  have hmid : CapturesKept db (setStatus captureId CaptureStatus.live .unavailable
      { db with availabilityObservations := observations }) :=
    (setStatus_capturesKept captureId _ (by decide) (by decide)).after rfl rfl
  rcases hcases with ⟨mediaId, -, -, hfact⟩ | ⟨-, rfl⟩
  · exact hmid.trans (hfact.capturesKept.after rfl (Table.map_update _ _ _ _ fun _ _ => rfl))
  · exact hmid

theorem reportPending_capturesKept {captureId : Uuid} {now : Instant} {n : Nat}
    (h : (reportPending lib captureId now).Yields env db n db') : CapturesKept db db' := by
  obtain ⟨c, -, ⟨-, rfl⟩ | ⟨conclusion, -, hr⟩⟩ := reportPending_yields h
  · exact .refl _
  · rw [hr.1]
    exact .of_eq rfl rfl

theorem claimEach_capturesKept {now : Instant} {batch : List Capture} {out : List Leased × Nat}
    (h : (claimEach lib now batch).Yields env db out db') : CapturesKept db db' :=
  claimEach_invariant (CapturesKept db)
    (fun _ _ _ hm => hm.trans (.of_update fun _ _ => ⟨rfl, rfl, id, id⟩))
    (fun _ _ _ _ hr hm => hm.trans (reportPending_capturesKept hr)) h (.refl db)

/-- A submission keeps the captures or adds the one it creates. -/
theorem submitCaptureInTransaction_evolution {request : CaptureRequest}
    {submission : CaptureSubmission} {call : Call} {m : Db} (hcall : call.Intake)
    (h : (submitCaptureInTransaction request).Yields env db submission m)
    (hkept : CapturesKept m db') : Evolution lib db call db' := by
  obtain ⟨permalink, method, hp, -, ⟨captureId, t, hnone, ht, rfl, -⟩ | ⟨c, -, rfl, -⟩⟩ :=
    submitCaptureInTransaction_yields h
  · exact .created request permalink method captureId env.now { db with captures := t } hcall hp hnone
      (Table.insert?_eq_some ht).1 rfl hkept
  · exact .kept hkept

theorem recordOperation_capturesKept {command : BrowserCaptureCommand} {captureId : Uuid} {u : Unit}
    (h : (recordOperation lib command captureId).Yields env db u db') : CapturesKept db db' := by
  have hreopen : ∀ m : Db, CapturesKept m (reopenCapture captureId env.now m) := by
    intro m
    apply CapturesKept.of_update
    intro c hp
    simp only [Bool.and_eq_true] at hp
    refine ⟨rfl, rfl, fun h => ?_, fun h => ?_⟩
    · cases h
    · rw [h] at hp
      cases hp.2
  rcases recordOperation_yields h with ⟨-, rfl⟩ | ⟨-, ops, eventId, occurredAt, -, happ⟩
  · exact hreopen db
  · exact ((hreopen { db with captureOperations := ops }).trans happ.capturesKept).after rfl rfl

theorem ingestBrowserCaptureCommand_evolution {delivery : CommandDelivery}
    {out : BrowserCaptureIngested}
    (h : (ingestBrowserCaptureCommand lib delivery).Yields env db out db') :
    Evolution lib db (.command delivery) db' := by
  obtain ⟨command, -, ⟨-, rfl, -⟩ | ⟨-, t, -, hh⟩⟩ := ingestBrowserCaptureCommand_yields h
  · exact .kept (.refl _)
  rcases handleCommand_yields hh with ⟨e, -, hr⟩ | ⟨submission, m, m', -, hs, hrec, rfl⟩
  · obtain ⟨-, eventId, occurredAt, m, happ, rfl⟩ := rejectCommand_yields hr
    have hm : CapturesKept db m := happ.capturesKept.after rfl rfl
    exact .kept (hm.trans (.of_eq rfl rfl))
  · have hkept : CapturesKept m
        (setInboxOutcome .browserCapture command.commandId .processed m') :=
      (recordOperation_capturesKept hrec).trans (.of_eq rfl rfl)
    obtain ⟨permalink, method, hp, -, ⟨captureId, u, hnone, hu, rfl, -⟩ | ⟨c, -, rfl, -⟩⟩ :=
      submitCaptureInTransaction_yields hs
    · exact .created command.request permalink method captureId env.now
        { db with inboxEvents := t, captures := u } trivial hp hnone
        (Table.insert?_eq_some hu).1 rfl hkept
    · exact .kept (hkept.after rfl rfl)

theorem Upserts.media {permalink : CanonicalPermalink} {normalized : NormalizedMedia}
    {resolvedAt : Instant} {mediaId : Uuid}
    (h : Upserts permalink normalized resolvedAt db mediaId db') :
    (mediaKeys db' = mediaKeys db ∧ (mediaId, permalink.url) ∈ mediaKeys db) ∨
      (mediaKeys db' = mediaKeys db ++ [(mediaId, permalink.url)] ∧
        ∀ key ∈ mediaKeys db, key.2 ≠ permalink.url) := by
  rcases h with ⟨m, hm, rfl, rfl⟩ | ⟨hnone, createdAt, t, ht, rfl⟩
  · left
    obtain ⟨hmem, hpermalink⟩ := findMedia_eq_some hm
    refine ⟨Table.map_update _ _ _ _ fun _ _ => rfl, ?_⟩
    exact List.mem_map.mpr ⟨m, hmem, by rw [hpermalink]⟩
  · right
    refine ⟨?_, ?_⟩
    · unfold mediaKeys
      rw [(Table.insert?_eq_some ht).1, List.map_append]
      rfl
    · intro key hkey
      obtain ⟨m, hm, rfl⟩ := List.mem_map.mp hkey
      exact findMedia_eq_none hnone m hm

theorem storeResolution_linked {captureId : Uuid} {permalink : CanonicalPermalink}
    {normalized : NormalizedMedia} {body : String} {resolvedAt : Instant} {stored : StoredResolution}
    (h : (storeResolution lib captureId permalink normalized body resolvedAt).Yields env db
      stored db') : CaptureLinked captureId permalink.url stored.mediaId db db' := by
  obtain ⟨mid, ⟨raws, upserted, revisions, observations, -, hup, -, hmid⟩, hfact⟩ :=
    storeResolution_yields h
  have hup' := hup.media
  have hkeys : mediaKeys mid = mediaKeys upserted := by
    rw [hmid]
    exact Table.map_update _ _ _ _ fun _ _ => rfl
  have hcaps : mid.captures.rows = (concludeResolved captureId stored.mediaId db).captures.rows := by
    rw [hmid, hup.frame]
    rfl
  have hdb' : db'.captures = mid.captures ∧ mediaKeys db' = mediaKeys mid := by
    split at hfact
    · obtain ⟨_, _, _, -, happ⟩ := hfact
      rw [happ.eq]
      exact ⟨rfl, rfl⟩
    · rw [hfact]
      exact ⟨rfl, rfl⟩
  refine ⟨by rw [hdb'.1, hcaps], ?_⟩
  rw [hdb'.2, hkeys]
  exact hup'

/-- **What a call does to captures and media rows**, unless it deletes. -/
theorem Effect.evolution {call : Call} (h : Effect lib env db call db')
    (hdelete : ∀ request, call ≠ .delete request) : Evolution lib db call db' := by
  cases h with
  | idle => exact .kept (.refl _)
  | submit h => exact submitCaptureInTransaction_evolution trivial h (.refl _)
  | command h => exact ingestBrowserCaptureCommand_evolution h
  | analysis h =>
    obtain ⟨completion, -, ⟨-, rfl, -⟩ | ⟨-, t, -, hh⟩⟩ := ingestAnalysisCompleted_yields h
    · exact .kept (.refl _)
    · obtain ⟨-, outcome, links, rfl⟩ := handleCompletion_yields hh
      exact .kept (.of_eq rfl rfl)
  | claim h => exact .kept (claimEach_capturesKept h)
  | reschedule => exact .kept (.of_update fun _ _ => ⟨rfl, rfl, id, id⟩)
  | store hcall hn h => exact .linked _ _ _ _ _ _ hcall hn (storeResolution_linked h)
  | fail hcall ho h => exact .kept (recordFailedResolution_capturesKept h)
  | unmapped h => exact .kept (recordFailedResolution_capturesKept h)
  | report h => exact .kept (reportPending_capturesKept h)
  | unavailable h =>
    obtain ⟨m, t, rfl, rfl⟩ := writeUnavailable_yields h
    split
    · rename_i hlive
      exact .overwritten _ hlive rfl rfl
    · exact .kept (.of_eq rfl rfl)
  | tombstone h =>
    obtain ⟨c, -, ⟨-, rfl, -⟩ | ⟨-, permalink, eventId, deletions, removals, m, -, -, happ, rfl⟩⟩ :=
      tombstoneCapture_yields h
    · exact .kept (.refl _)
    · have hm : CapturesKept db m := happ.capturesKept.after rfl rfl
      exact .kept (hm.trans
        ((setStatus_capturesKept _ _ (by decide) fun _ => rfl).after rfl rfl))
  | mediaFact h => exact .kept h.capturesKept
  | book h => exact .kept (.of_eq rfl rfl)
  | acknowledge => exact .kept (.of_eq rfl rfl)
  | delete h => exact (hdelete _ rfl).elim

end Effects

/-! ## The invariant -/

/-- The database stores a capture under this identifier and permalink. -/
def Holds (db : Db) (captureId : Uuid) (url : String) : Prop :=
  ∃ c ∈ db.captures, c.captureId = captureId ∧ c.canonicalUrl = url

/-- The identities of captures and media rows, and the links between them. -/
structure CapturesSound (db : Db) : Prop where
  identities : (db.captures.rows.map fun c => (c.userRef, c.canonicalUrl)).Nodup
  canonical : ∀ c ∈ db.captures, ∃ p, canonicalize c.canonicalUrl = .ok p ∧ p.url = c.canonicalUrl
  permalinks : ((mediaKeys db).map Prod.snd).Nodup
  linked : ∀ c ∈ db.captures, ∀ id, c.mediaId = some id → (id, c.canonicalUrl) ∈ mediaKeys db
  notFailed : ∀ c ∈ db.captures, c.status ≠ .failed

/-- Whatever outcome the call applies, it applies it to a stored capture under its own
permalink. -/
def Call.Grounded (db : Db) (call : Call) : Prop :=
  ∀ captureId permalink outcome resolvedAt, call.Applies captureId permalink outcome resolvedAt →
    Holds db captureId permalink.url ∧ canonicalize permalink.url = .ok permalink

section Invariant

variable {lib : Externals} {db db' : Db}

theorem capturesSound_empty : CapturesSound {} where
  identities := List.nodup_nil
  canonical := by intro c hc; cases hc
  permalinks := List.nodup_nil
  linked := by intro c hc; cases hc
  notFailed := by intro c hc; cases hc

theorem Provenance.url_eq {c c' : Capture} (h : c'.provenance = c.provenance) :
    c'.canonicalUrl = c.canonicalUrl :=
  congrArg Provenance.canonicalUrl h

theorem Provenance.id_eq {c c' : Capture} (h : c'.provenance = c.provenance) :
    c'.captureId = c.captureId :=
  congrArg Provenance.captureId h

theorem Provenance.owner_eq {c c' : Capture} (h : c'.provenance = c.provenance) :
    c'.userRef = c.userRef :=
  congrArg Provenance.userRef h

theorem CapturesSound.kept (h : CapturesSound db) (hk : CapturesKept db db') :
    CapturesSound db' := by
  obtain ⟨f, hf, hrows⟩ := hk.captures
  have hmem : ∀ c' ∈ db'.captures, ∃ c ∈ db.captures, c' = f c := by
    intro c' hc'
    rw [Table.mem_rows, hrows] at hc'
    obtain ⟨c, hc, rfl⟩ := List.mem_map.mp hc'
    exact ⟨c, hc, rfl⟩
  refine ⟨?_, ?_, ?_, ?_, ?_⟩
  · rw [hrows, List.map_map]
    have hcol : ((fun c : Capture => (c.userRef, c.canonicalUrl)) ∘ f) =
        fun c => (c.userRef, c.canonicalUrl) := by
      funext c
      exact congrArg (fun p : Provenance => (p.userRef, p.canonicalUrl)) (hf c).provenance
    rw [hcol]
    exact h.identities
  · intro c' hc'
    obtain ⟨c, hc, rfl⟩ := hmem c' hc'
    rw [Provenance.url_eq (hf c).provenance]
    exact h.canonical c hc
  · rw [hk.media]
    exact h.permalinks
  · intro c' hc' id hid
    obtain ⟨c, hc, rfl⟩ := hmem c' hc'
    rw [(hf c).mediaId] at hid
    rw [hk.media, Provenance.url_eq (hf c).provenance]
    exact h.linked c hc id hid
  · intro c' hc' hfailed
    obtain ⟨c, hc, rfl⟩ := hmem c' hc'
    exact h.notFailed c hc ((hf c).failed hfailed)

theorem CapturesSound.created {request : CaptureRequest} {permalink : CanonicalPermalink}
    {method : AcquisitionMethod} {captureId : Uuid} {createdAt : Instant} (h : CapturesSound db)
    (hp : canonicalize request.url = .ok permalink)
    (hnew : findCapture db request.userRef permalink.url = none)
    (hrows : db'.captures.rows =
      db.captures.rows ++ [newCapture request permalink method captureId createdAt])
    (hmedia : mediaKeys db' = mediaKeys db) : CapturesSound db' := by
  have hmem : ∀ c ∈ db'.captures, c ∈ db.captures ∨
      c = newCapture request permalink method captureId createdAt := by
    intro c hc
    rw [Table.mem_rows, hrows] at hc
    rcases List.mem_append.mp hc with hc | hc
    · exact Or.inl hc
    · exact Or.inr (List.mem_singleton.mp hc)
  refine ⟨?_, ?_, ?_, ?_, ?_⟩
  · rw [hrows, List.map_append]
    refine List.nodup_append.mpr ⟨h.identities, List.nodup_singleton _, ?_⟩
    intro key hkey key' hkey' heq
    obtain ⟨c, hc, rfl⟩ := List.mem_map.mp hkey
    rw [List.map_singleton, List.mem_singleton] at hkey'
    rw [hkey'] at heq
    exact findCapture_eq_none hnew c hc ⟨congrArg Prod.fst heq, congrArg Prod.snd heq⟩
  · intro c hc
    rcases hmem c hc with hc | rfl
    · exact h.canonical c hc
    · exact ⟨permalink, canonicalize_url hp, rfl⟩
  · rw [hmedia]
    exact h.permalinks
  · intro c hc id hid
    rcases hmem c hc with hc | rfl
    · rw [hmedia]
      exact h.linked c hc id hid
    · cases hid
  · intro c hc
    rcases hmem c hc with hc | rfl
    · exact h.notFailed c hc
    · exact nofun

theorem Holds.url_eq {captureId : Uuid} {url : String} {c : Capture} (h : Holds db captureId url)
    (hc : c ∈ db.captures) (hid : c.captureId = captureId) : c.canonicalUrl = url := by
  obtain ⟨x, hx, hxid, rfl⟩ := h
  have hxc : x = c := Table.eq_of_key_eq hx hc (hxid.trans hid.symm)
  rw [hxc]

theorem CaptureLinked.mem {captureId mediaId : Uuid} {url : String}
    (h : CaptureLinked captureId url mediaId db db') : (mediaId, url) ∈ mediaKeys db' := by
  rcases h.media with ⟨hkeys, hmem⟩ | ⟨hkeys, -⟩
  · rw [hkeys]
    exact hmem
  · rw [hkeys]
    simp

theorem CaptureLinked.mono {captureId mediaId : Uuid} {url : String}
    (h : CaptureLinked captureId url mediaId db db') {key : Uuid × String}
    (hkey : key ∈ mediaKeys db) : key ∈ mediaKeys db' := by
  rcases h.media with ⟨hkeys, -⟩ | ⟨hkeys, -⟩
  · rw [hkeys]
    exact hkey
  · rw [hkeys]
    exact List.mem_append_left _ hkey

/-- The media row of a permalink is one row before and after. -/
theorem CaptureLinked.unique {captureId mediaId id : Uuid} {url : String}
    (h : CaptureLinked captureId url mediaId db db') (hs : CapturesSound db)
    (hid : (id, url) ∈ mediaKeys db) : id = mediaId := by
  rcases h.media with ⟨-, hmem⟩ | ⟨-, hnone⟩
  · exact congrArg Prod.fst (List.inj_on_of_nodup_map hs.permalinks hid hmem rfl)
  · exact (hnone _ hid rfl).elim

theorem CapturesSound.link {captureId mediaId : Uuid} {url : String} (h : CapturesSound db)
    (hl : CaptureLinked captureId url mediaId db db') (hholds : Holds db captureId url) :
    CapturesSound db' := by
  have hmem : ∀ c' ∈ db'.captures, ∃ c ∈ db.captures, c'.canonicalUrl = c.canonicalUrl ∧
      (c'.status = c.status ∨ c'.status = .resolved) ∧
      (c'.mediaId = c.mediaId ∨ (c.captureId = captureId ∧ c'.mediaId = some mediaId)) := by
    intro c' hc'
    rw [Table.mem_rows, hl.captures] at hc'
    obtain ⟨c, hc, rfl⟩ := Table.exists_of_mem_update hc'
    refine ⟨c, hc, ?_⟩
    split
    · rename_i hp
      simp only [Bool.and_eq_true, decide_eq_true_eq] at hp
      exact ⟨rfl, Or.inr rfl, Or.inr ⟨hp.1, rfl⟩⟩
    · exact ⟨rfl, Or.inl rfl, Or.inl rfl⟩
  refine ⟨?_, ?_, ?_, ?_, ?_⟩
  · rw [hl.captures]
    have hcol := Table.map_update (fun c : Capture => (c.userRef, c.canonicalUrl)) db.captures.rows
      (fun c => c.captureId = captureId && c.status ≠ .failed)
      (fun c => { c with status := .resolved, mediaId := some mediaId }) fun _ _ => rfl
    exact hcol ▸ h.identities
  · intro c' hc'
    obtain ⟨c, hc, hurl, -⟩ := hmem c' hc'
    rw [hurl]
    exact h.canonical c hc
  · rcases hl.media with ⟨hkeys, -⟩ | ⟨hkeys, hnone⟩
    · rw [hkeys]
      exact h.permalinks
    · rw [hkeys, List.map_append]
      refine List.nodup_append.mpr ⟨h.permalinks, List.nodup_singleton _, ?_⟩
      intro key hkey key' hkey' heq
      obtain ⟨k, hk, rfl⟩ := List.mem_map.mp hkey
      rw [List.map_singleton, List.mem_singleton] at hkey'
      exact hnone k hk (heq.trans hkey')
  · intro c' hc' id hid
    obtain ⟨c, hc, hurl, -, hsame | ⟨hcid, hnew⟩⟩ := hmem c' hc'
    · rw [hurl]
      exact hl.mono (h.linked c hc id (hsame ▸ hid))
    · rw [hnew] at hid
      cases hid
      rw [hurl, hholds.url_eq hc hcid]
      exact hl.mem
  · intro c' hc' hfailed
    obtain ⟨c, hc, -, hstatus, -⟩ := hmem c' hc'
    rcases hstatus with hstatus | hstatus
    · exact h.notFailed c hc (hstatus ▸ hfailed)
    · rw [hstatus] at hfailed
      cases hfailed

/-- An overwritten status touches nothing else. -/
theorem CapturesSound.overwritten {captureId : Uuid} {status : CaptureStatus} (h : CapturesSound db)
    (hstatus : status ≠ .failed)
    (hcaptures : db'.captures.rows =
      (setStatus captureId (fun _ => true) status db).captures.rows)
    (hmedia : mediaKeys db' = mediaKeys db) : CapturesSound db' := by
  have hmem : ∀ c' ∈ db'.captures, ∃ c ∈ db.captures, c'.canonicalUrl = c.canonicalUrl ∧
      c'.mediaId = c.mediaId ∧ (c'.status = c.status ∨ c'.status = status) := by
    intro c' hc'
    rw [Table.mem_rows, hcaptures] at hc'
    obtain ⟨c, hc, rfl⟩ := Table.exists_of_mem_update hc'
    refine ⟨c, hc, ?_⟩
    split
    · exact ⟨rfl, rfl, Or.inr rfl⟩
    · exact ⟨rfl, rfl, Or.inl rfl⟩
  refine ⟨?_, ?_, ?_, ?_, ?_⟩
  · rw [hcaptures]
    have hcol := Table.map_update (fun c : Capture => (c.userRef, c.canonicalUrl)) db.captures.rows
      (fun c => c.captureId = captureId && true) (fun c => { c with status }) fun _ _ => rfl
    exact hcol ▸ h.identities
  · intro c' hc'
    obtain ⟨c, hc, hurl, -⟩ := hmem c' hc'
    rw [hurl]
    exact h.canonical c hc
  · rw [hmedia]
    exact h.permalinks
  · intro c' hc' id hid
    obtain ⟨c, hc, hurl, hmediaId, -⟩ := hmem c' hc'
    rw [hmedia, hurl]
    exact h.linked c hc id (hmediaId ▸ hid)
  · intro c' hc' hfailed
    obtain ⟨c, hc, -, -, hst | hst⟩ := hmem c' hc'
    · exact h.notFailed c hc (hst ▸ hfailed)
    · exact hstatus (hst ▸ hfailed)

theorem CapturesSound.evolution {call : Call} (h : CapturesSound db) (hg : call.Grounded db)
    (he : Evolution lib db call db') : CapturesSound db' := by
  cases he with
  | kept hk => exact h.kept hk
  | created request permalink method captureId createdAt mid hcall hp hnew hrows hmedia hk =>
    exact (h.created hp hnew hrows hmedia).kept hk
  | linked captureId permalink body normalized resolvedAt mediaId hcall hn hl =>
    exact h.link hl (hg _ _ _ _ hcall).1
  | overwritten observer hlive hcaptures hmedia =>
    exact h.overwritten (by decide) hcaptures hmedia

/-- What a later state still knows about a capture. -/
structure Capture.Continues (c c' : Capture) : Prop where
  provenance : c'.provenance = c.provenance
  media : ∀ id, c.mediaId = some id → c'.mediaId = some id

theorem CapturesKept.continues (h : CapturesKept db db') {c : Capture} (hc : c ∈ db.captures) :
    ∃ c' ∈ db'.captures, c.Continues c' := by
  obtain ⟨f, hf, hrows⟩ := h.captures
  refine ⟨f c, ?_, (hf c).provenance, fun id hid => (hf c).mediaId.trans hid⟩
  rw [Table.mem_rows, hrows]
  exact List.mem_map_of_mem hc

/-- **A call keeps every capture's provenance and its media link.** -/
theorem Evolution.continues {call : Call} (he : Evolution lib db call db') (h : CapturesSound db)
    (hg : call.Grounded db) {c : Capture} (hc : c ∈ db.captures) :
    ∃ c' ∈ db'.captures, c.Continues c' := by
  cases he with
  | kept hk => exact hk.continues hc
  | created request permalink method captureId createdAt mid hcall hp hnew hrows hmedia hk =>
    apply hk.continues
    rw [Table.mem_rows, hrows]
    exact List.mem_append_left _ hc
  | linked captureId permalink body normalized resolvedAt mediaId hcall hn hl =>
    have hmem := Table.mem_update_of_mem db.captures
      (fun c => c.captureId = captureId && c.status ≠ .failed)
      (fun c => { c with status := .resolved, mediaId := some mediaId }) (fun _ => rfl) hc
    refine ⟨_, by rw [Table.mem_rows, hl.captures]; exact hmem, ?_, ?_⟩
    · split <;> rfl
    · intro id hid
      split
      · rename_i hp
        simp only [Bool.and_eq_true, decide_eq_true_eq] at hp
        have hkey := h.linked c hc id hid
        rw [(hg _ _ _ _ hcall).1.url_eq hc hp.1] at hkey
        rw [hl.unique h hkey]
      · exact hid
  | overwritten observer hlive hcaptures hmedia =>
    have hmem := Table.mem_update_of_mem db.captures
      (fun c => c.captureId = observer.captureId && true)
      (fun c => { c with status := .unavailable }) (fun _ => rfl) hc
    refine ⟨_, by rw [Table.mem_rows, hcaptures]; exact hmem, ?_, ?_⟩
    · split <;> rfl
    · intro id hid
      split <;> exact hid

theorem Holds.continues {captureId : Uuid} {url : String} (h : Holds db captureId url)
    (hcont : ∀ c ∈ db.captures, ∃ c' ∈ db'.captures, c.Continues c') :
    Holds db' captureId url := by
  obtain ⟨c, hc, rfl, rfl⟩ := h
  obtain ⟨c', hc', hcc⟩ := hcont c hc
  exact ⟨c', hc', Provenance.id_eq hcc.provenance, Provenance.url_eq hcc.provenance⟩

end Invariant

/-! ## Everything in flight -/

/-- The database is sound, and every lease and every fetch names a stored capture under its
permalink. -/
structure System.Sound (s : System) : Prop where
  captures : CapturesSound s.db
  leases : ∀ w ∈ s.workers, ∀ l ∈ w.leased, Holds s.db l.captureId l.canonicalUrl
  fetches : ∀ f ∈ s.fetches, Holds s.db f.captureId f.permalink.url ∧
    canonicalize f.permalink.url = .ok f.permalink

/-- Nothing is deleted. -/
def Action.Keeps : Action → Prop
  | .delete .. => False
  | _ => True

section Steps

variable {lib : Externals} {s : System} {a : Action}

theorem CapturesSound.permalink_url {db : Db} (h : CapturesSound db) {captureId : Uuid}
    {url : String} {permalink : CanonicalPermalink} (hholds : Holds db captureId url)
    (hp : canonicalize url = .ok permalink) : permalink.url = url := by
  obtain ⟨c, hc, -, rfl⟩ := hholds
  obtain ⟨p, hcanonical, hurl⟩ := h.canonical c hc
  rw [hcanonical] at hp
  cases hp
  exact hurl

theorem System.Sound.grounded (h : s.Sound) {env : Env} {call : Call}
    (hc : s.call a = some (env, call)) : call.Grounded s.db := by
  intro captureId permalink outcome resolvedAt happ
  cases a with
  | resolve env' i answer =>
    obtain ⟨w, hw, hc⟩ := Option.bind_eq_some_iff.mp hc
    obtain ⟨lease, hlease, hc⟩ := Option.map_eq_some_iff.mp hc
    cases hc
    obtain ⟨rfl, hp, -, -⟩ := happ
    have hmem : lease ∈ w.leased := by
      unfold Worker.next at hlease
      split at hlease
      · exact List.mem_of_head? hlease
      · cases hlease
    have hholds := h.leases w (List.mem_of_getElem? hw) lease hmem
    refine ⟨?_, canonicalize_url hp⟩
    rw [h.captures.permalink_url hholds hp]
    exact hholds
  | applyFetch env' i answer =>
    obtain ⟨f, hf, hc⟩ := Option.map_eq_some_iff.mp hc
    cases hc
    obtain ⟨rfl, -⟩ := happ
    exact h.fetches _ (List.mem_of_getElem? hf)
  | report env' i =>
    obtain ⟨w, -, hc⟩ := Option.bind_eq_some_iff.mp hc
    obtain ⟨id, -, hc⟩ := Option.map_eq_some_iff.mp hc
    cases hc
    exact happ.elim
  | finishUnavailable env' i =>
    obtain ⟨o, -, hc⟩ := Option.map_eq_some_iff.mp hc
    cases hc
    exact happ.elim
  | book env' i =>
    obtain ⟨p, -, hc⟩ := Option.map_eq_some_iff.mp hc
    cases hc
    exact happ.elim
  | submit | command | analysis | claim | tombstone | mediaFact | acknowledge | delete =>
    cases hc
    exact happ.elim
  | beginFetch | beginUnavailable | beginPass | deliver | resendDue => cases hc

/-- A step leases what was leased before or a stored capture. -/
theorem step_leased (lib : Externals) (s : System) (a : Action) :
    ∀ w ∈ (step lib s a).workers, ∀ l ∈ w.leased,
      (∃ w₀ ∈ s.workers, l ∈ w₀.leased) ∨ Holds s.db l.captureId l.canonicalUrl := by
  intro w hw l hl
  -- a worker that only advanced holds a tail of its leases
  have hset : ∀ (i : Nat) (w₀ w' : Worker), s.workers[i]? = some w₀ →
      (∀ x ∈ w'.leased, x ∈ w₀.leased) → w ∈ s.workers.set i w' →
      ∃ w₁ ∈ s.workers, l ∈ w₁.leased := by
    intro i w₀ w' hget hsub hmem
    rcases List.mem_or_eq_of_mem_set hmem with hmem | rfl
    · exact ⟨w, hmem, hl⟩
    · exact ⟨w₀, List.mem_of_getElem? hget, hsub l hl⟩
  cases a with
  | claim env now policy locked =>
    simp only [step] at hw
    split at hw
    · rename_i leased summary db' hexec
      rcases List.mem_append.mp hw with hw | hw
      · exact Or.inl ⟨w, hw, hl⟩
      · rw [List.mem_singleton.mp hw] at hl
        obtain ⟨reported, hclaim⟩ := claim_yields (exec_ok hexec)
        obtain ⟨c, hc, rfl⟩ := claimEach_leased hclaim l hl
        exact Or.inr ⟨c, mem_of_mem_claimBatch hc, rfl, rfl⟩
    · exact Or.inl ⟨w, hw, hl⟩
  | resolve env i outcome =>
    left
    simp only [step] at hw
    cases hget : s.workers[i]? with
    | none => rw [hget] at hw; exact ⟨w, hw, hl⟩
    | some w₀ =>
      rw [hget] at hw
      cases hnext : w₀.next with
      | none => simp only [hnext] at hw; exact ⟨w, hw, hl⟩
      | some lease =>
        simp only [hnext] at hw
        refine hset i w₀ _ hget ?_ hw
        intro x hx
        unfold Worker.resolved at hx
        split at hx <;> exact List.mem_of_mem_tail hx
  | report env i =>
    left
    simp only [step] at hw
    cases hget : s.workers[i]? with
    | none => rw [hget] at hw; exact ⟨w, hw, hl⟩
    | some w₀ =>
      rw [hget] at hw
      cases hconcluding : w₀.concluding with
      | none => simp only [hconcluding] at hw; exact ⟨w, hw, hl⟩
      | some id =>
        simp only [hconcluding] at hw
        refine hset i w₀ _ hget ?_ hw
        intro x hx
        unfold Worker.reportedBy at hx
        split at hx <;> exact hx
  | submit | command | analysis | tombstone | mediaFact | acknowledge | delete =>
    exact Or.inl ⟨w, hw, hl⟩
  | beginFetch | applyFetch | beginUnavailable | finishUnavailable | beginPass | deliver | book
  | resendDue =>
    left
    simp only [step] at hw
    split at hw <;> exact ⟨w, hw, hl⟩

/-- A step fetches what was fetched before or the stored permalink of a capture. -/
theorem step_fetches (lib : Externals) (s : System) (a : Action) :
    ∀ f ∈ (step lib s a).fetches, f ∈ s.fetches ∨
      ∃ c ∈ s.db.captures, c.captureId = f.captureId ∧
        canonicalize c.canonicalUrl = .ok f.permalink := by
  intro f hf
  cases a with
  | beginFetch env captureId resolvedAt =>
    simp only [step] at hf
    split at hf
    · rename_i permalink hexec
      rcases List.mem_append.mp hf with hf | hf
      · exact Or.inl hf
      · rw [List.mem_singleton.mp hf]
        right
        rcases exec_cases (storedCapturePermalink captureId) env s.db with
          ⟨p, db', he, hy⟩ | ⟨e, he⟩
        · rw [he] at hexec
          cases hexec
          obtain ⟨c, _, h1, h⟩ := hy.bind
          obtain ⟨hc, rfl⟩ := h1.fetchOne
          obtain ⟨hp, -⟩ := h.ofExcept
          obtain ⟨hmem, hid⟩ := Table.lookup_eq_some.mp hc
          exact ⟨c, hmem, hid, mapError_ok hp⟩
        · rw [he] at hexec
          cases hexec
    · exact Or.inl hf
  | applyFetch env i outcome =>
    left
    simp only [step] at hf
    split at hf
    · exact hf
    · exact List.mem_of_mem_eraseIdx hf
  | submit | command | analysis | tombstone | mediaFact | acknowledge | delete => exact Or.inl hf
  | claim | beginUnavailable | finishUnavailable | beginPass | deliver | book | resendDue =>
    left
    simp only [step] at hf
    split at hf <;> exact hf
  | resolve | report =>
    left
    simp only [step] at hf
    split at hf
    · exact hf
    · split at hf <;> exact hf

theorem System.Sound.step_captures (lib : Externals) (h : s.Sound) (ha : a.Keeps) :
    CapturesSound (step lib s a).db ∧
      ∀ c ∈ s.db.captures, ∃ c' ∈ (step lib s a).db.captures, c.Continues c' := by
  rcases step_effect lib s a with ⟨-, he⟩ | ⟨env, call, hcall, he⟩
  · rw [he]
    exact ⟨h.captures, fun c hc => ⟨c, hc, rfl, fun _ hid => hid⟩⟩
  · have hevolution : Evolution lib s.db call (step lib s a).db := by
      apply he.evolution
      rintro request rfl
      obtain rfl := System.call_delete hcall
      exact ha
    have hg := h.grounded hcall
    exact ⟨h.captures.evolution hg hevolution, fun c hc => hevolution.continues h.captures hg hc⟩

theorem System.Sound.step (h : s.Sound) (ha : a.Keeps) : (step lib s a).Sound := by
  obtain ⟨hcaptures, hcont⟩ := h.step_captures lib ha
  refine ⟨hcaptures, ?_, ?_⟩
  · intro w hw l hl
    rcases step_leased lib s a w hw l hl with ⟨w₀, hw₀, hl₀⟩ | hholds
    · exact (h.leases w₀ hw₀ l hl₀).continues hcont
    · exact hholds.continues hcont
  · intro f hf
    rcases step_fetches lib s a f hf with hf | ⟨c, hc, hid, hp⟩
    · exact ⟨(h.fetches f hf).1.continues hcont, (h.fetches f hf).2⟩
    · refine ⟨?_, canonicalize_url hp⟩
      have hholds : Holds s.db f.captureId c.canonicalUrl := ⟨c, hc, hid, rfl⟩
      rw [h.captures.permalink_url hholds hp]
      exact hholds.continues hcont

theorem sound_initial : ({} : System).Sound where
  captures := capturesSound_empty
  leases := by intro w hw; cases hw
  fetches := by intro f hf; cases hf

theorem sound_run {actions : List Action} (ha : ∀ a ∈ actions, a.Keeps) :
    (run (InstagramArchive.step lib) {} actions).Sound :=
  run_invariant (InstagramArchive.step lib) (fun _ a => a.Keeps) System.Sound
    (fun _ _ ha h => h.step ha) (guarded_of_forall (InstagramArchive.step lib) ha) sound_initial

/-- A run from a sound state continues every capture. -/
theorem System.Sound.run_continues (lib : Externals) {t : System} {rest : List Action} (ht : t.Sound)
    (ha : ∀ a ∈ rest, a.Keeps) {c : Capture} (hc : c ∈ t.db.captures) :
    ∃ c' ∈ (run (InstagramArchive.step lib) t rest).db.captures, c.Continues c' := by
  induction rest generalizing t c with
  | nil => exact ⟨c, hc, rfl, fun _ hid => hid⟩
  | cons a rest ih =>
    have hkeeps : a.Keeps := ha a (by simp)
    obtain ⟨y, hy, hcy⟩ := (ht.step_captures lib hkeeps).2 c hc
    obtain ⟨z, hz, hyz⟩ := ih (ht.step hkeeps) (fun b hb => ha b (by simp [hb])) hy
    exact ⟨z, hz, hyz.provenance.trans hcy.provenance,
      fun id hid => hyz.media id (hcy.media id hid)⟩

end Steps

/-! ## The submission that created a capture -/

/-- The submission an action carries and what its transaction answered. -/
def Action.submission (lib : Externals) (db : Db) :
    Action → Option (CaptureRequest × CaptureSubmission)
  | .submit env request =>
    match ((submitCapture request).exec env db).1 with
    | .ok submission => some (request, submission)
    | .error _ => none
  | .command env delivery =>
    match decodeBrowserCaptureCommand delivery,
      ((ingestBrowserCaptureCommand lib delivery).exec env db).1 with
    | .ok decoded, .ok (.preserved answer) => some (decoded.request, answer)
    | _, _ => none
  | _ => none

/-- The capture holds what the submission said, under the identifier it was answered. -/
structure CreatedBy (request : CaptureRequest) (record : CaptureRecord) (c : Capture) : Prop where
  captureId : c.captureId = record.captureId
  userRef : c.userRef = request.userRef
  canonicalUrl : ∃ p, canonicalize request.url = .ok p ∧ c.canonicalUrl = p.url
  capturedAt : c.capturedAt = request.capturedAt
  note : c.note = request.note
  clientSource : c.clientSource = request.clientSource
  acquisitionMethod : request.clientSource.acquisitionMethod = some c.acquisitionMethod
  savedAuthority : c.savedAuthority = explicitAuthority
  clientIdempotencyKey : c.clientIdempotencyKey = request.clientIdempotencyKey

section Origin

variable {lib : Externals} {env : Env} {db db' : Db}

theorem createdBy_newCapture {request : CaptureRequest} {permalink : CanonicalPermalink}
    {method : AcquisitionMethod} (captureId : Uuid) (createdAt : Instant)
    (hp : canonicalize request.url = .ok permalink)
    (hm : request.clientSource.acquisitionMethod = some method) :
    CreatedBy request (captureRecord (newCapture request permalink method captureId createdAt))
      (newCapture request permalink method captureId createdAt) :=
  ⟨rfl, rfl, ⟨permalink, hp, rfl⟩, rfl, rfl, rfl, hm, rfl, rfl⟩

theorem CreatedBy.congr {request : CaptureRequest} {record : CaptureRecord} {c c' : Capture}
    (h : CreatedBy request record c) (heq : c'.provenance = c.provenance) :
    CreatedBy request record c' := by
  have hfield : ∀ {α : Type} (f : Provenance → α), f c'.provenance = f c.provenance :=
    fun f => congrArg f heq
  exact
    { captureId := (hfield Provenance.captureId).trans h.captureId
      userRef := (hfield Provenance.userRef).trans h.userRef
      canonicalUrl := by
        obtain ⟨p, hp, hurl⟩ := h.canonicalUrl
        exact ⟨p, hp, (hfield Provenance.canonicalUrl).trans hurl⟩
      capturedAt := (hfield Provenance.capturedAt).trans h.capturedAt
      note := (hfield Provenance.note).trans h.note
      clientSource := (hfield Provenance.clientSource).trans h.clientSource
      acquisitionMethod :=
        h.acquisitionMethod.trans (congrArg some (hfield Provenance.acquisitionMethod).symm)
      savedAuthority := (hfield Provenance.savedAuthority).trans h.savedAuthority
      clientIdempotencyKey :=
        (hfield Provenance.clientIdempotencyKey).trans h.clientIdempotencyKey }

theorem CapturesKept.origin (h : CapturesKept db db') {c' : Capture} (hc' : c' ∈ db'.captures) :
    ∃ c ∈ db.captures, c'.provenance = c.provenance := by
  obtain ⟨f, hf, hrows⟩ := h.captures
  rw [Table.mem_rows, hrows] at hc'
  obtain ⟨c, hc, rfl⟩ := List.mem_map.mp hc'
  exact ⟨c, hc, (hf c).provenance⟩

theorem CaptureLinked.origin {captureId mediaId : Uuid} {url : String}
    (h : CaptureLinked captureId url mediaId db db') {c' : Capture} (hc' : c' ∈ db'.captures) :
    ∃ c ∈ db.captures, c'.provenance = c.provenance := by
  rw [Table.mem_rows, h.captures] at hc'
  obtain ⟨c, hc, rfl⟩ := Table.exists_of_mem_update hc'
  refine ⟨c, hc, ?_⟩
  split <;> rfl

/-- After a submission every capture was there before or is the one it created. -/
theorem submitCaptureInTransaction_origin {request : CaptureRequest}
    {submission : CaptureSubmission}
    (h : (submitCaptureInTransaction request).Yields env db submission db') {c' : Capture}
    (hc' : c' ∈ db'.captures) :
    c' ∈ db.captures ∨ ∃ record, submission = .created record ∧ CreatedBy request record c' := by
  obtain ⟨permalink, method, hp, hm, ⟨captureId, t, -, ht, rfl, rfl⟩ | ⟨c, -, rfl, -⟩⟩ :=
    submitCaptureInTransaction_yields h
  · rcases (Table.mem_of_insert? ht c').mp hc' with hold | rfl
    · exact Or.inl hold
    · exact Or.inr ⟨_, rfl, createdBy_newCapture captureId env.now hp hm⟩
  · exact Or.inl hc'

theorem submit_origin (lib : Externals) {request : CaptureRequest} {c' : Capture}
    (hc' : c' ∈ ((Call.submit request).perform lib env db).captures) :
    c' ∈ db.captures ∨ ∃ record, (Action.submit env request).submission lib db =
      some (request, .created record) ∧ CreatedBy request record c' := by
  simp only [Call.perform] at hc'
  simp only [Action.submission]
  rcases exec_cases (submitCapture request) env db with ⟨submission, db', he, hy⟩ | ⟨e, he⟩
  · rw [he] at hc' ⊢
    rcases submitCaptureInTransaction_origin (submitCapture_yields hy) hc' with
      hold | ⟨record, rfl, hcreated⟩
    · exact Or.inl hold
    · exact Or.inr ⟨record, rfl, hcreated⟩
  · rw [he] at hc'
    exact Or.inl hc'

theorem command_origin {delivery : CommandDelivery} {c' : Capture}
    (hc' : c' ∈ ((Call.command delivery).perform lib env db).captures) :
    (∃ c ∈ db.captures, c'.provenance = c.provenance) ∨
      ∃ request record, (Action.command env delivery).submission lib db =
        some (request, .created record) ∧ CreatedBy request record c' := by
  simp only [Call.perform] at hc'
  simp only [Action.submission]
  rcases exec_cases (ingestBrowserCaptureCommand lib delivery) env db with
    ⟨out, db', he, hy⟩ | ⟨e, he⟩
  · rw [he] at hc' ⊢
    obtain ⟨command, hcommand, ⟨-, rfl, -⟩ | ⟨-, t, -, hh⟩⟩ := ingestBrowserCaptureCommand_yields hy
    · exact Or.inl ⟨c', hc', rfl⟩
    rcases handleCommand_yields hh with ⟨e, -, hr⟩ | ⟨submission, m, m', rfl, hs, hrec, rfl⟩
    · obtain ⟨-, eventId, occurredAt, m, happ, rfl⟩ := rejectCommand_yields hr
      exact Or.inl (happ.capturesKept.origin hc')
    · obtain ⟨x, hx, hprov⟩ := (recordOperation_capturesKept hrec).origin hc'
      rcases submitCaptureInTransaction_origin hs hx with hold | ⟨record, rfl, hcreated⟩
      · exact Or.inl ⟨x, hold, hprov⟩
      · rw [hcommand]
        exact Or.inr ⟨command.request, record, rfl, hcreated.congr hprov⟩
  · rw [he] at hc'
    exact Or.inl ⟨c', hc', rfl⟩

/-- A capture after a step was there before or is the one the step's submission created. -/
theorem step_origin {s : System} {a : Action} (ha : a.Keeps) {c' : Capture}
    (hc' : c' ∈ (step lib s a).db.captures) :
    (∃ c ∈ s.db.captures, c'.provenance = c.provenance) ∨
      ∃ request record, a.submission lib s.db = some (request, .created record) ∧
        CreatedBy request record c' := by
  rcases step_effect lib s a with ⟨-, he⟩ | ⟨env, call, hcall, he⟩
  · rw [he] at hc'
    exact Or.inl ⟨c', hc', rfl⟩
  have hdelete : ∀ request, call ≠ .delete request := by
    rintro request rfl
    obtain rfl := System.call_delete hcall
    exact ha
  cases he.evolution hdelete with
  | kept hk => exact Or.inl (hk.origin hc')
  | linked captureId permalink body normalized resolvedAt mediaId happ hn hl =>
    exact Or.inl (hl.origin hc')
  | overwritten observer hlive hcaptures hmedia =>
    rw [Table.mem_rows, hcaptures] at hc'
    obtain ⟨c, hc, rfl⟩ := Table.exists_of_mem_update hc'
    refine Or.inl ⟨c, hc, ?_⟩
    split <;> rfl
  | created request permalink method captureId createdAt mid hintake =>
    cases call with
    | submit request =>
      obtain rfl := System.call_submit hcall
      rcases submit_origin lib hc' with hold | hnew
      · exact Or.inl ⟨c', hold, rfl⟩
      · exact Or.inr ⟨request, hnew⟩
    | command delivery =>
      obtain rfl := System.call_command hcall
      exact command_origin hc'
    | _ => exact hintake.elim

end Origin

/-- **Identity and provenance are immutable.** After every run without deletions there is
at most one capture for an owner and a canonical URL, and the URL is a fixed point of
`canonicalize`; a capture holds what the submission that created it said, under the
identifier that submission was answered; and whatever it held in an earlier state of the
run it still holds, its media link included. -/
theorem captures_immutable (lib : Externals) (actions : List Action)
    (ha : ∀ a ∈ actions, a.Keeps) :
    let s := run (step lib) {} actions
    (s.db.captures.rows.map fun c => (c.userRef, c.canonicalUrl)).Nodup ∧
    (∀ c ∈ s.db.captures,
      (∃ p, canonicalize c.canonicalUrl = .ok p ∧ p.url = c.canonicalUrl) ∧
      ∃ before a after request record, actions = before ++ a :: after ∧
        a.submission lib (run (step lib) {} before).db = some (request, .created record) ∧
        CreatedBy request record c) ∧
    ∀ before after, actions = before ++ after →
      ∀ c ∈ (run (step lib) {} before).db.captures, ∃ c' ∈ s.db.captures, c.Continues c' := by
  intro s
  have hs : s.Sound := sound_run ha
  refine ⟨hs.captures.identities, ?_, ?_⟩
  · intro c hc
    refine ⟨hs.captures.canonical c hc, ?_⟩
    obtain ⟨before, a, after, hsplit, hnone, x, hx, hprov⟩ :=
      run_first_occurrence (step lib) (fun s => ∃ x ∈ s.db.captures, c.provenance = x.provenance)
        (by rintro ⟨x, hx, -⟩; exact Table.not_mem_empty x hx) ⟨c, hc, rfl⟩
    rcases step_origin (ha a (by simp [hsplit])) hx with ⟨y, hy, hxy⟩ | ⟨request, record, hsub, hcr⟩
    · exact (hnone ⟨y, hy, hprov.trans hxy⟩).elim
    · exact ⟨before, a, after, request, record, hsplit, hsub, hcr.congr hprov⟩
  · rintro before after rfl c hc
    have hbefore : (run (step lib) {} before).Sound := sound_run fun a h => ha a (by simp [h])
    have hafter : ∀ a ∈ after, a.Keeps := fun a h => ha a (by simp [h])
    have h := System.Sound.run_continues lib hbefore hafter hc
    rwa [← run_append] at h

/-- A share, then a browser command for another spelling of the same permalink. -/
def respelledRun : List Action :=
  [.submit (quietEnv 10 100) ⟨1, "http://instagr.am/p/A", 5, .iosShareExtension, some "keep", none⟩,
    .command (quietEnv 20 200) (browserDelivery 1 2 7 "https://www.instagram.com/p/A/?igsh=x"),
    .claim (quietEnv 30 300) 30 ⟨3, 10⟩ [],
    .resolve (quietEnv 40 400) 0 (titledPayload "Kept")]

theorem captures_immutable_respelledRun :
    (run (step reference) {} respelledRun).db.captures.rows.map
        (fun c => (c.note, c.clientSource, c.mediaId.isSome)) =
      [(some "keep", .iosShareExtension, true)] ∧
    ∀ c ∈ (run (step reference) {} (respelledRun.take 1)).db.captures,
      ∃ c' ∈ (run (step reference) {} respelledRun).db.captures, c.Continues c' := by
  have hkeeps : ∀ a ∈ respelledRun, a.Keeps := by simp [respelledRun, Action.Keeps]
  have h := captures_immutable reference respelledRun hkeeps
  exact ⟨by decide +kernel, h.2.2 _ _ (List.take_append_drop 1 respelledRun).symm⟩

end InstagramArchive

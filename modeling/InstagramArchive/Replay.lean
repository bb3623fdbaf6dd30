import InstagramArchive.Republishing

/-!
# Replayed outcomes

A payload that was stored a moment ago owes no fact. A deletion of a linked capture owes
one each time it is recorded, and a payload that was overwritten in the shared media row
in between owes one even when this capture said the same last. Over whole runs the facts
of a capture differ from one to the next as long as each published step has news.
-/

namespace InstagramArchive

open Relational Relational.Tx Permalink

section Twice

variable {lib : Externals} {env env' : Env} {db db₁ db₂ : Db} {captureId : Uuid}
  {permalink : CanonicalPermalink}

theorem publishedFacts_congr {db' : Db} (h : db'.outboxEvents = db.outboxEvents) (id : Uuid) :
    publishedFacts id db' = publishedFacts id db := by
  unfold publishedFacts
  rw [h]

/-- A stored payload leaves a fact of the capture and its own projection behind. -/
theorem storeResolution_owes_nothing {normalized : NormalizedMedia} {body : String}
    {resolvedAt : Instant} {stored : StoredResolution}
    (h : (storeResolution lib captureId permalink normalized body resolvedAt).Yields env db
      stored db₁) : owesFact captureId permalink normalized db₁ = false := by
  obtain ⟨mid, hstores, hfact⟩ := storeResolution_yields h
  obtain ⟨m, hm⟩ := hstores.projected
  have hmid : mid.outboxEvents = db.outboxEvents := by rw [hstores.frame]
  have hprior : priorProjection permalink db₁ = some (normalized.mediaType, normalized.caption) := by
    rw [← hm.priorProjection]
    split at hfact
    · obtain ⟨_, _, _, -, happ⟩ := hfact
      rw [happ.eq]
      rfl
    · rw [hfact]
  have hhas : captureHasFact captureId db₁ = true := by
    rw [captureHasFact_iff]
    split at hfact
    · obtain ⟨snapshot, eventId, occurredAt, -, happ⟩ := hfact
      rw [publishedFacts_factRow (happ.outboxLog rfl)]
      simp
    · rename_i howes
      rw [hfact, publishedFacts_congr hmid, ← captureHasFact_iff]
      simp only [owesFact, Bool.or_eq_true, Bool.not_eq_true', not_or, Bool.not_eq_false] at howes
      exact howes.1
  unfold owesFact
  rw [hhas, hprior]
  simp [normalizedChanged]

theorem recordFailedResolution_linkedMedia {observed : AvailabilityObservationKind}
    {resolvedAt : Instant} {out : ResolutionOutcome}
    (h : (recordFailedResolution lib captureId observed resolvedAt).Yields env db out db₁) :
    linkedMedia captureId db₁ = linkedMedia captureId db := by
  obtain ⟨observations, mid, hmid, hcases⟩ := recordFailedResolution_yields h
  have hlink : linkedMedia captureId mid = linkedMedia captureId db := by
    rw [hmid]
    exact linkedMedia_setStatus ..
  rcases hcases with ⟨mediaId, -, -, _, _, _, -, happ⟩ | ⟨-, rfl⟩
  · rw [← hlink, happ.eq]
    rfl
  · exact hlink

/-- A failed attempt publishes exactly an observed deletion of a linked capture. -/
theorem recordFailedResolution_silent_iff {observed : AvailabilityObservationKind}
    {resolvedAt : Instant} {out : ResolutionOutcome}
    (h : (recordFailedResolution lib captureId observed resolvedAt).Yields env db out db₁) :
    (∀ id, publishedFacts id db₁ = publishedFacts id db) ↔
      ¬ (observed = .deleted ∧ (linkedMedia captureId db).isSome = true) := by
  obtain ⟨observations, mid, rfl, ⟨mediaId, ho, hlinked, hfact⟩ | ⟨hnone, rfl⟩⟩ :=
    recordFailedResolution_yields h
  · refine iff_of_false ?_ (not_not_intro ⟨ho, by rw [hlinked]; rfl⟩)
    intro hsame
    obtain ⟨snapshot, eventId, occurredAt, -, happ⟩ := hfact
    have hgrown := publishedFacts_factRow (happ.outboxLog rfl)
    rw [hsame captureId] at hgrown
    have hlen := congrArg List.length hgrown
    rw [List.length_append, List.length_singleton] at hlen
    have hbase : (publishedFacts captureId (setUpstreamDeleted mediaId resolvedAt
        (setStatus captureId CaptureStatus.live .unavailable
          { db with availabilityObservations := observations }))).length =
        (publishedFacts captureId db).length := rfl
    omega
  · refine iff_of_true (fun id => rfl) ?_
    rintro ⟨ho, hlinked⟩
    rw [hnone ho] at hlinked
    cases hlinked

/-- **One outcome twice.** The second application publishes exactly a deletion of a linked
capture. -/
theorem applySurfaceOutcome_twice {outcome : SurfaceOutcome} {resolvedAt resolvedAt' : Instant}
    {out out' : ResolutionOutcome}
    (h : (applySurfaceOutcome lib captureId permalink outcome resolvedAt).Yields env db out db₁)
    (h' : (applySurfaceOutcome lib captureId permalink outcome resolvedAt').Yields env' db₁
      out' db₂) :
    (∀ id, publishedFacts id db₂ = publishedFacts id db₁) ↔
      ¬ (outcome = .deleted ∧ (linkedMedia captureId db).isSome = true) := by
  rcases applySurfaceOutcome_yields h with
    ⟨body, normalized, stored, rfl, hn, -, hs⟩ | ⟨observed, ho, hnone, hf⟩
  · refine iff_of_true ?_ (by rintro ⟨hd, -⟩; cases hd)
    rcases applySurfaceOutcome_yields h' with
      ⟨body', normalized', stored', hbody, hn', -, hs'⟩ | ⟨observed, -, hnone, -⟩
    · cases hbody
      rw [hn] at hn'
      cases hn'
      obtain ⟨mid, hstores, hfact⟩ := storeResolution_yields hs'
      rw [storeResolution_owes_nothing hs, if_neg (by simp)] at hfact
      rw [hfact]
      exact publishedFacts_congr (by rw [hstores.frame])
    · rw [hnone body rfl] at hn
      cases hn
  · rcases applySurfaceOutcome_yields h' with
      ⟨body', normalized', stored', rfl, hn', -, -⟩ | ⟨observed', ho', -, hf'⟩
    · rw [hnone body' rfl] at hn'
      cases hn'
    · rw [recordFailedResolution_silent_iff hf', recordFailedResolution_linkedMedia hf, ho']

end Twice

/-! ## Consecutive facts -/

/-- The digest a fact carries. -/
def EventPayload.digest? (payload : EventPayload) : Option ContentDigest :=
  payload.snapshot?.map SocialSourceSnapshot.contentDigest

/-- No two consecutive facts of a capture carry the same digest. -/
def FactsDiffer (db : Db) : Prop :=
  ∀ id, (publishedFacts id db).IsChain fun a b => a.digest? ≠ b.digest?

/-! ## The newest fact states the media row -/

/-- `PostText::parse` refuses a text or keeps it. -/
def Externals.KeepsText (lib : Externals) : Prop :=
  ∀ text post, lib.parsePostText text = some post → post = text

/-- What the media rows hold, and that the newest fact of every capture states the caption its
media row holds. -/
structure RowsStated (lib : Externals) (db : Db) : Prop where
  plain : ∀ url m, findMedia db url = some m → m.caption ≠ some ""
  typed : ∀ url m permalink, findMedia db url = some m → canonicalize url = .ok permalink →
    m.mediaType = kindMediaType permalink.kind
  stated : ∀ id fact, newestFact id db = some fact → ∃ c, db.captures.lookup id = some c ∧
    ∃ m, findMedia db c.canonicalUrl = some m ∧ snapshotText lib id m.caption = .ok fact.text

/-- No payload changes the caption of a media row under which another capture has published,
and no deletion is recorded for a capture whose newest fact is a deletion. -/
def Call.RespectsFacts (lib : Externals) (db : Db) (call : Call) : Prop :=
  ∀ captureId permalink outcome resolvedAt, call.Applies captureId permalink outcome resolvedAt →
    (∀ body normalized m, outcome = .payload body →
      normalize lib body permalink.kind = some normalized → findMedia db permalink.url = some m →
      m.caption ≠ normalized.caption →
      ∀ c ∈ db.captures, c.canonicalUrl = permalink.url → c.captureId ≠ captureId →
        publishedFacts c.captureId db = []) ∧
    (outcome = .deleted → ∀ fact, newestFact captureId db = some fact →
      fact.upstreamAvailability ≠ .deletedUpstream)

def Action.RespectsFacts (lib : Externals) (s : System) (a : Action) : Prop :=
  ∀ env call, s.call a = some (env, call) → call.RespectsFacts lib s.db

section Rows

variable {lib : Externals} {env : Env} {db db' mid : Db} {captureId : Uuid}
  {permalink : CanonicalPermalink}

theorem normalize_plain {body : String} {kind : PermalinkKind} {normalized : NormalizedMedia}
    (h : normalize lib body kind = some normalized) :
    normalized.mediaType = kindMediaType kind ∧ normalized.caption ≠ some "" := by
  obtain ⟨title, -, rfl⟩ := Option.map_eq_some_iff.mp h
  refine ⟨rfl, fun hempty => ?_⟩
  obtain ⟨-, hne⟩ := Option.filter_eq_some_iff.mp hempty
  simp at hne

/-- Two captions that are not empty read back to the same text only if they are the same. -/
theorem snapshotText_injective (hkeeps : lib.KeepsText) {a b text : Option String}
    (ha : a ≠ some "") (hb : b ≠ some "") (h : snapshotText lib captureId a = .ok text)
    (h' : snapshotText lib captureId b = .ok text) : a = b := by
  have hread : ∀ x : Option String, x ≠ some "" → snapshotText lib captureId x = .ok text →
      x = text := by
    intro x hx hread
    cases x with
    | none => exact Except.ok.inj hread
    | some body =>
      have hnonempty : body.isEmpty = false := by
        by_contra hempty
        exact hx (by simpa using hempty)
      simp only [snapshotText, hnonempty, Bool.false_eq_true, if_false] at hread
      split at hread
      · rename_i post hpost
        rw [← Except.ok.inj hread, hkeeps body post hpost]
      · cases hread
  rw [hread a ha h, hread b hb h']

/-- An update of one media row that keeps its permalink, read by permalink. -/
theorem findMedia_update {mediaId : Uuid} {f : Media → Media}
    (hf : ∀ m, (f m).mediaId = m.mediaId)
    (h : db'.media = db.media.update (fun m => m.mediaId = mediaId) f hf)
    (hurl : ∀ m, (f m).permalink = m.permalink) (url : String) :
    findMedia db' url = (findMedia db url).map fun m => if m.mediaId = mediaId then f m else m := by
  have hfound := Table.find?_update db.media.rows (fun m => m.mediaId = mediaId)
    (fun m => m.permalink = url) f fun m => by rw [hurl]
  simp only [decide_eq_true_eq] at hfound
  unfold findMedia
  rw [h, Table.rows_update]
  simpa only [decide_eq_true_eq] using hfound

/-- The upsert of one permalink leaves the media rows of the others alone, which have other
identifiers than the row it writes. -/
theorem Upserts.findMedia_other {normalized : NormalizedMedia} {resolvedAt : Instant}
    {mediaId : Uuid} {url : String} (h : Upserts permalink normalized resolvedAt db mediaId db')
    (hne : url ≠ permalink.url) :
    findMedia db' url = findMedia db url ∧ ∀ x, findMedia db url = some x → x.mediaId ≠ mediaId := by
  rcases h with ⟨m, hm, rfl, rfl⟩ | ⟨-, createdAt, t, ht, rfl⟩
  · obtain ⟨hmem, hpermalink⟩ := findMedia_eq_some hm
    have hother : ∀ x, findMedia db url = some x → x.mediaId ≠ m.mediaId := by
      intro x hx heq
      obtain ⟨hxmem, hxurl⟩ := findMedia_eq_some hx
      have hxm : x = m := Table.eq_of_key_eq hxmem hmem heq
      exact hne (hxurl.symm.trans ((congrArg Media.permalink hxm).trans hpermalink))
    refine ⟨?_, hother⟩
    have hproject : findMedia (projectMedia m.mediaId normalized resolvedAt db) url =
        (findMedia db url).map fun x => if x.mediaId = m.mediaId then
          { x with mediaType := normalized.mediaType, caption := normalized.caption,
                   upstreamStatus := .available, updatedAt := resolvedAt } else x :=
      findMedia_update (by intro; rfl) rfl (by intro; rfl) url
    rw [hproject]
    cases hx : findMedia db url with
    | none => rfl
    | some x => rw [Option.map_some, if_neg (hother x hx)]
  · obtain ⟨hrows, hfresh⟩ := Table.insert?_eq_some ht
    refine ⟨?_, fun x hx => hfresh x (findMedia_eq_some hx).1⟩
    unfold findMedia
    simp only [hrows, List.find?_append, newMedia]
    simp [hne.symm]

/-- A stored payload leaves the media rows of other permalinks alone. -/
theorem Stores.findMedia_other {normalized : NormalizedMedia} {body : String}
    {resolvedAt : Instant} {stored : StoredResolution} {url : String}
    (h : Stores lib captureId permalink normalized body resolvedAt db stored mid)
    (hne : url ≠ permalink.url) : findMedia mid url = findMedia db url := by
  obtain ⟨raws, upserted, revisions, observations, -, hup, -, rfl⟩ := h
  obtain ⟨hsame, hother⟩ := hup.findMedia_other hne
  have hrevision : findMedia (concludeResolved captureId stored.mediaId
      { setCurrentRevision stored.mediaId stored.revisionId
          { upserted with mediaRevisions := revisions } with
        availabilityObservations := observations }) url =
      (findMedia upserted url).map fun m => if m.mediaId = stored.mediaId then
        { m with currentRevisionId := some stored.revisionId } else m :=
    findMedia_update (by intro; rfl) rfl (by intro; rfl) url
  rw [hrevision, hsame]
  change (findMedia db url).map _ = _
  cases hx : findMedia db url with
  | none => rfl
  | some x => rw [Option.map_some, if_neg (hother x hx)]

theorem newestFact_of_facts {id : Uuid} (h : publishedFacts id db' = publishedFacts id db) :
    newestFact id db' = newestFact id db := by
  unfold newestFact
  rw [h]

/-- A capture that is stored before and after under one identifier. -/
theorem lookup_of_continues {c : Capture}
    (hcont : ∀ c ∈ db.captures, ∃ c' ∈ db'.captures, c.Continues c')
    (hc : db.captures.lookup captureId = some c) :
    ∃ c', db'.captures.lookup captureId = some c' ∧ c'.canonicalUrl = c.canonicalUrl := by
  obtain ⟨hmem, hid⟩ := Table.lookup_eq_some.mp hc
  obtain ⟨c', hc', hcc⟩ := hcont c hmem
  have hid' : c'.captureId = captureId := (Provenance.id_eq hcc.provenance).trans hid
  exact ⟨c', Table.lookup_eq_some.mpr ⟨hc', hid'⟩, Provenance.url_eq hcc.provenance⟩

/-- The media row of a linked capture is the one its permalink finds. -/
theorem CapturesSound.findMedia_linked (h : CapturesSound db) {c : Capture} {mediaId : Uuid}
    {m : Media} (hc : c ∈ db.captures) (hlinked : c.mediaId = some mediaId)
    (hm : db.media.lookup mediaId = some m) : findMedia db c.canonicalUrl = some m := by
  obtain ⟨hmem, hid⟩ := Table.lookup_eq_some.mp hm
  obtain ⟨m', hm', hkey⟩ := List.mem_map.mp (h.linked c hc mediaId hlinked)
  obtain ⟨hid', hurl⟩ := Prod.mk.inj hkey
  have hsame : m' = m := Table.eq_of_key_eq hm' hmem (hid'.trans hid.symm)
  rw [hsame] at hurl
  cases hfound : findMedia db c.canonicalUrl with
  | none => exact absurd hurl (findMedia_eq_none hfound m hmem)
  | some x =>
    obtain ⟨hx, hxurl⟩ := findMedia_eq_some hfound
    have hnodup : (db.media.rows.map Media.permalink).Nodup := by
      have hkeys := h.permalinks
      unfold mediaKeys at hkeys
      rwa [List.map_map] at hkeys
    rw [List.inj_on_of_nodup_map hnodup hx hmem (hxurl.trans hurl.symm)]

/-- A newest fact that was there is stated still, as long as the row of its capture keeps its
caption. -/
theorem RowsStated.carried (h : RowsStated lib db)
    (hcont : ∀ c ∈ db.captures, ∃ c' ∈ db'.captures, c.Continues c') {id : Uuid}
    {fact : SocialSourceSnapshot} (hold : newestFact id db = some fact)
    (hrow : ∀ c m, db.captures.lookup id = some c → findMedia db c.canonicalUrl = some m →
      ∃ m', findMedia db' c.canonicalUrl = some m' ∧ m'.caption = m.caption) :
    ∃ c', db'.captures.lookup id = some c' ∧ ∃ m', findMedia db' c'.canonicalUrl = some m' ∧
      snapshotText lib id m'.caption = .ok fact.text := by
  obtain ⟨c, hc, m, hm, htext⟩ := h.stated id fact hold
  obtain ⟨c', hc', hurl⟩ := lookup_of_continues hcont hc
  obtain ⟨m', hm', hcaption⟩ := hrow c m hc hm
  exact ⟨c', hc', m', by rw [hurl]; exact hm', by rw [hcaption]; exact htext⟩

theorem RowsStated.same (h : RowsStated lib db) (hmedia : db'.media = db.media)
    (hfacts : ∀ id, publishedFacts id db' = publishedFacts id db)
    (hcont : ∀ c ∈ db.captures, ∃ c' ∈ db'.captures, c.Continues c') : RowsStated lib db' := by
  have hfind : ∀ url, findMedia db' url = findMedia db url := by
    intro url
    unfold findMedia
    rw [hmedia]
  constructor
  case plain => exact fun url m hm => h.plain url m ((hfind url).symm.trans hm)
  case typed => exact fun url m p hm => h.typed url m p ((hfind url).symm.trans hm)
  case stated =>
    intro id fact hfact
    rw [newestFact_of_facts (hfacts id)] at hfact
    exact h.carried hcont hfact fun c m _ hm => ⟨m, (hfind _).trans hm, rfl⟩

/-- What a payload owes nothing for is in the media row already. -/
theorem owesFact_eq_false {normalized : NormalizedMedia}
    (h : owesFact captureId permalink normalized db = false) :
    captureHasFact captureId db = true ∧ ∀ m, findMedia db permalink.url = some m →
      m.caption = normalized.caption := by
  simp only [owesFact, Bool.or_eq_false_iff, Bool.not_eq_false'] at h
  refine ⟨h.1, fun m hm => ?_⟩
  have hprior := h.2
  simp only [priorProjection, hm, Option.map_some, normalizedChanged, Option.all_some,
    Bool.or_eq_false_iff, decide_eq_false_iff_not, not_not] at hprior
  exact hprior.2

/-- A stored payload, with the fact it owes. -/
theorem RowsStated.stored (h : RowsStated lib db) {c : Capture} {body : String}
    {normalized : NormalizedMedia} {resolvedAt : Instant} {stored : StoredResolution}
    (hc : db.captures.lookup captureId = some c) (hst : c.status ≠ .failed)
    (hurl : c.canonicalUrl = permalink.url) (hp : canonicalize permalink.url = .ok permalink)
    (hn : normalize lib body permalink.kind = some normalized)
    (hstores : Stores lib captureId permalink normalized body resolvedAt db stored mid)
    (hfact : if owesFact captureId permalink normalized db then
      Publishes lib (owedKind captureId db) captureId mid db' else db' = mid)
    (hcont : ∀ c ∈ db.captures, ∃ c' ∈ db'.captures, c.Continues c')
    (hother : ∀ m, findMedia db permalink.url = some m → m.caption ≠ normalized.caption →
      ∀ c ∈ db.captures, c.canonicalUrl = permalink.url → c.captureId ≠ captureId →
        publishedFacts c.captureId db = []) : RowsStated lib db' := by
  obtain ⟨htype, hplain⟩ := normalize_plain hn
  obtain ⟨m', hm'⟩ := hstores.projected
  have hmid : mid.outboxEvents = db.outboxEvents := by rw [hstores.frame]
  have hfacts : ∀ id, publishedFacts id mid = publishedFacts id db := publishedFacts_congr hmid
  have hmedia : db'.media = mid.media := by
    split at hfact
    · obtain ⟨_, _, _, -, happ⟩ := hfact
      rw [happ.eq]
    · rw [hfact]
  have hrow : findMedia db' permalink.url = some m' := by
    unfold findMedia
    rw [hmedia]
    exact hm'.found
  have helse : ∀ url, url ≠ permalink.url → findMedia db' url = findMedia db url := by
    intro url hne
    rw [← hstores.findMedia_other hne]
    unfold findMedia
    rw [hmedia]
  constructor
  case plain =>
    intro url m hm
    by_cases heq : url = permalink.url
    · rw [heq, hrow] at hm
      cases hm
      rw [hm'.caption]
      exact hplain
    · exact h.plain url m ((helse url heq).symm.trans hm)
  case typed =>
    intro url m p hm hcanonical
    by_cases heq : url = permalink.url
    · rw [heq, hrow] at hm
      cases hm
      rw [heq, hp] at hcanonical
      cases hcanonical
      rw [hm'.mediaType, htype]
    · exact h.typed url m p ((helse url heq).symm.trans hm) hcanonical
  case stated =>
    intro id fact hnewest
    -- the newest fact of another capture, or of this one when nothing was owed
    have hkept : newestFact id db = some fact → (id ≠ captureId ∨
        owesFact captureId permalink normalized db = false) →
        ∃ c', db'.captures.lookup id = some c' ∧ ∃ m, findMedia db' c'.canonicalUrl = some m ∧
          snapshotText lib id m.caption = .ok fact.text := by
      intro hold hcase
      refine h.carried hcont hold fun x m hx hm => ?_
      by_cases heq : x.canonicalUrl = permalink.url
      · refine ⟨m', heq ▸ hrow, hm'.caption.trans (Eq.symm ?_)⟩
        rcases hcase with hne | howes
        · by_contra hchanged
          obtain ⟨hxmem, hxid⟩ := Table.lookup_eq_some.mp hx
          have hnone := hother m (heq ▸ hm) hchanged x hxmem heq (hxid ▸ hne)
          rw [hxid] at hnone
          simp [newestFact, hnone] at hold
        · exact (owesFact_eq_false howes).2 m (heq ▸ hm)
      · exact ⟨m, (helse _ heq).trans hm, rfl⟩
    split at hfact
    · rename_i howes
      obtain ⟨snapshot, eventId, occurredAt, hsnapshot, happ⟩ := hfact
      have hlog := happ.outboxLog rfl
      by_cases hid : captureId = id
      · subst hid
        rw [newestFact_append (publishedFacts_factRow hlog)] at hnewest
        cases hnewest
        obtain ⟨c', hc', hcurl⟩ := lookup_of_continues hcont hc
        have hsaid := (hstores.stated hc hst (hurl ▸ hp) hsnapshot).text
        exact ⟨c', hc', m', by rw [hcurl, hurl, hrow], by rw [hm'.caption]; exact hsaid⟩
      · rw [newestFact_of_facts ((publishedFacts_factRow_of_ne hlog hid).trans (hfacts id))]
          at hnewest
        exact hkept hnewest (Or.inl (Ne.symm hid))
    · rename_i howes
      rw [hfact, newestFact_of_facts (hfacts id)] at hnewest
      exact hkept hnewest (Or.inr (by simpa using howes))

/-- A recorded deletion of a linked capture, with its fact. -/
theorem RowsStated.deleted (h : RowsStated lib db) (hsound : CapturesSound db) {c : Capture}
    {mediaId : Uuid} {resolvedAt : Instant} (hc : db.captures.lookup captureId = some c)
    (hp : canonicalize c.canonicalUrl = .ok permalink)
    (hlinked : linkedMedia captureId db = some mediaId)
    (hcaptures : mid.captures = (setStatus captureId CaptureStatus.live .unavailable db).captures)
    (hmedia : mid.media = (setUpstreamDeleted mediaId resolvedAt db).media)
    (houtbox : mid.outboxEvents = db.outboxEvents)
    (hfact : Publishes lib .updated captureId mid db')
    (hcont : ∀ c ∈ db.captures, ∃ c' ∈ db'.captures, c.Continues c') : RowsStated lib db' := by
  obtain ⟨snapshot, eventId, occurredAt, hsnapshot, happ⟩ := hfact
  have hlog := happ.outboxLog rfl
  have hmedia' : db'.media = (setUpstreamDeleted mediaId resolvedAt db).media := by
    rw [happ.eq]
    exact hmedia
  have hfind : ∀ url, findMedia db' url = (findMedia db url).map fun m =>
      if m.mediaId = mediaId then { m with upstreamStatus := .deleted, updatedAt := resolvedAt }
      else m :=
    fun url => findMedia_update (by intro; rfl) hmedia' (by intro; rfl) url
  have hread : ∀ url m', findMedia db' url = some m' → ∃ m, findMedia db url = some m ∧
      m'.caption = m.caption ∧ m'.mediaType = m.mediaType := by
    intro url m' hm'
    rw [hfind] at hm'
    obtain ⟨m, hm, rfl⟩ := Option.map_eq_some_iff.mp hm'
    refine ⟨m, hm, ?_⟩
    split
    · exact ⟨rfl, rfl⟩
    · exact ⟨rfl, rfl⟩
  have hwritten : ∀ url m, findMedia db url = some m → ∃ m', findMedia db' url = some m' ∧
      m'.caption = m.caption := by
    intro url m hm
    rw [hfind, hm, Option.map_some]
    by_cases heq : m.mediaId = mediaId
    · exact ⟨_, congrArg some (if_pos heq), rfl⟩
    · exact ⟨_, congrArg some (if_neg heq), rfl⟩
  constructor
  case plain =>
    intro url m' hm'
    obtain ⟨m, hm, hcaption, -⟩ := hread url m' hm'
    rw [hcaption]
    exact h.plain url m hm
  case typed =>
    intro url m' p hm' hcanonical
    obtain ⟨m, hm, -, htype⟩ := hread url m' hm'
    rw [htype]
    exact h.typed url m p hm hcanonical
  case stated =>
    intro id fact hnewest
    by_cases hid : captureId = id
    · subst hid
      rw [newestFact_append (publishedFacts_factRow hlog)] at hnewest
      cases hnewest
      obtain ⟨m, hm, hsaid⟩ := deleted_stated hc hp hlinked hcaptures hmedia hsnapshot
      have hmediaId : c.mediaId = some mediaId := by
        unfold linkedMedia at hlinked
        rwa [hc, Option.bind_some] at hlinked
      have hrow := hsound.findMedia_linked (Table.lookup_eq_some.mp hc).1 hmediaId hm
      obtain ⟨m', hm', hcaption⟩ := hwritten _ _ hrow
      obtain ⟨c', hc', hcurl⟩ := lookup_of_continues hcont hc
      exact ⟨c', hc', m', by rw [hcurl]; exact hm', by rw [hcaption]; exact hsaid.text⟩
    · have hfacts := (publishedFacts_factRow_of_ne hlog hid).trans (publishedFacts_congr houtbox id)
      rw [newestFact_of_facts hfacts] at hnewest
      exact h.carried hcont hnewest fun x m _ hm => hwritten _ m hm

/-! ### What a call does to the rows -/

/-- What a call does to the media rows, and what it publishes of captures. -/
inductive RowChange (lib : Externals) (db : Db) (call : Call) : Db → Prop
  | same {db' : Db} (hmedia : db'.media = db.media)
      (hfacts : ∀ id, publishedFacts id db' = publishedFacts id db) : RowChange lib db call db'
  | stored {captureId : Uuid} {permalink : CanonicalPermalink} {body : String}
      {normalized : NormalizedMedia} {resolvedAt : Instant} {stored : StoredResolution}
      {mid db' : Db} (hcall : call.Applies captureId permalink (.payload body) resolvedAt)
      (hn : normalize lib body permalink.kind = some normalized)
      (hstores : Stores lib captureId permalink normalized body resolvedAt db stored mid)
      (hfact : if owesFact captureId permalink normalized db then
        Publishes lib (owedKind captureId db) captureId mid db' else db' = mid) :
      RowChange lib db call db'
  | deleted {captureId : Uuid} {permalink : CanonicalPermalink} {resolvedAt : Instant}
      {mediaId : Uuid} {db' : Db} (mid : Db)
      (hcall : call.Applies captureId permalink .deleted resolvedAt)
      (hlinked : linkedMedia captureId db = some mediaId)
      (hcaptures : mid.captures =
        (setStatus captureId CaptureStatus.live .unavailable db).captures)
      (hmedia : mid.media = (setUpstreamDeleted mediaId resolvedAt db).media)
      (houtbox : mid.outboxEvents = db.outboxEvents)
      (hfact : Publishes lib .updated captureId mid db') : RowChange lib db call db'

theorem RowChange.of_grew {call : Call} (hmedia : db'.media = db.media)
    (h : Grew OutboxEvent.Silent db db') : RowChange lib db call db' := by
  obtain ⟨new, hlog, hnew⟩ := h.outboxLog
  exact .same hmedia fun id => publishedFacts_silent hlog hnew

theorem recordFailedResolution_rowChange {call : Call} {observed : AvailabilityObservationKind}
    {resolvedAt : Instant} {out : ResolutionOutcome}
    (hcall : observed = .deleted →
      ∃ permalink, call.Applies captureId permalink .deleted resolvedAt)
    (h : (recordFailedResolution lib captureId observed resolvedAt).Yields env db out db') :
    RowChange lib db call db' := by
  obtain ⟨observations, mid, rfl, ⟨mediaId, ho, hlinked, hfact⟩ | ⟨-, rfl⟩⟩ :=
    recordFailedResolution_yields h
  · obtain ⟨permalink, happ⟩ := hcall ho
    exact .deleted _ happ hlinked (by rfl) (by rfl) (by rfl) hfact
  · exact .same rfl fun _ => rfl

theorem publishedFacts_of_log (h : outboxLog db' = outboxLog db) (id : Uuid) :
    publishedFacts id db' = publishedFacts id db := by
  rw [publishedFacts_eq_log, publishedFacts_eq_log, h]

theorem Appends.media {row : OutboxEvent} (h : Appends db row db') : db'.media = db.media := by
  rw [h.eq]

theorem reportPending_media {now : Instant} {n : Nat}
    (h : (reportPending lib captureId now).Yields env db n db') : db'.media = db.media := by
  obtain ⟨c, -, ⟨-, rfl⟩ | ⟨conclusion, -, hr⟩⟩ := reportPending_yields h
  · rfl
  · rw [hr.1]
    rfl

theorem ingestBrowserCaptureCommand_media {delivery : CommandDelivery}
    {out : BrowserCaptureIngested}
    (h : (ingestBrowserCaptureCommand lib delivery).Yields env db out db') :
    db'.media = db.media := by
  obtain ⟨command, -, ⟨-, rfl, -⟩ | ⟨-, t, -, hh⟩⟩ := ingestBrowserCaptureCommand_yields h
  · rfl
  rcases handleCommand_yields hh with ⟨e, -, hr⟩ | ⟨submission, m, m', -, hs, hrec, rfl⟩
  · obtain ⟨-, eventId, occurredAt, m, happ, rfl⟩ := rejectCommand_yields hr
    exact happ.media
  · have hm : m.media = db.media := by
      obtain ⟨_, _, -, -, ⟨_, _, -, -, rfl, -⟩ | ⟨_, -, rfl, -⟩⟩ :=
        submitCaptureInTransaction_yields hs
      · rfl
      · rfl
    rcases recordOperation_yields hrec with ⟨-, rfl⟩ | ⟨-, ops, eventId, occurredAt, -, happ⟩
    · exact hm
    · exact happ.media.trans hm

/-- **What a call does to the media rows**, unless it deletes. -/
theorem Effect.rowChange {call : Call} (h : Effect lib env db call db')
    (hdelete : ∀ request, call ≠ .delete request) : RowChange lib db call db' := by
  cases h with
  | idle => exact .same rfl fun _ => rfl
  | submit h =>
    obtain ⟨_, _, -, -, ⟨_, _, -, -, rfl, -⟩ | ⟨_, -, rfl, -⟩⟩ := submitCaptureInTransaction_yields h
    · exact .same rfl fun _ => rfl
    · exact .same rfl fun _ => rfl
  | command h =>
    exact .of_grew (ingestBrowserCaptureCommand_media h) (ingestBrowserCaptureCommand_grewSilently h)
  | analysis h =>
    obtain ⟨completion, -, ⟨-, rfl, -⟩ | ⟨-, t, -, hh⟩⟩ := ingestAnalysisCompleted_yields h
    · exact .same rfl fun _ => rfl
    · obtain ⟨-, outcome, links, rfl⟩ := handleCompletion_yields hh
      exact .same rfl fun _ => rfl
  | claim h =>
    refine .of_grew ?_ (claimEach_grewSilently h)
    exact claimEach_invariant (fun m => m.media = db.media) (fun _ _ _ hm => hm)
      (fun _ _ _ _ hr hm => (reportPending_media hr).trans hm) h rfl
  | reschedule => exact .same rfl fun _ => rfl
  | store hcall hn h =>
    obtain ⟨mid, hstores, hfact⟩ := storeResolution_yields h
    exact .stored hcall hn hstores hfact
  | fail hcall ho h =>
    exact recordFailedResolution_rowChange (fun hd => ⟨_, ho.mp hd ▸ hcall⟩) h
  | unmapped h => exact recordFailedResolution_rowChange (fun ho => by cases ho) h
  | report h => exact .of_grew (reportPending_media h) (reportPending_grewSilently h)
  | unavailable h =>
    obtain ⟨m, t, rfl, rfl⟩ := writeUnavailable_yields h
    split
    · exact .same rfl fun _ => rfl
    · exact .same rfl fun _ => rfl
  | tombstone h =>
    obtain ⟨c, -, ⟨-, rfl, -⟩ | ⟨-, permalink, eventId, deletions, removals, m, -, -, happ, rfl⟩⟩ :=
      tombstoneCapture_yields h
    · exact .same rfl fun _ => rfl
    · exact .of_grew happ.media (happ.grew rfl (removalRow_silent ..))
  | mediaFact h =>
    refine .same h.media fun id => ?_
    rw [publishedFacts_append (h.outboxLog rfl), captureFacts_mediaFactRow]
    simp
  | book h => exact .same rfl fun id => publishedFacts_of_log (updateOutbox_outboxLog h.asAppended) id
  | acknowledge =>
    exact .same rfl fun id =>
      publishedFacts_of_log (updateOutbox_outboxLog (OutboxEvent.asAppended_acknowledged _ _)) id
  | delete h => exact (hdelete _ rfl).elim

/-- **Step lemma.** A step that respects the facts keeps the rows stated. -/
theorem RowsStated.step {s : System} {a : Action} (h : RowsStated lib s.db)
    (hs : s.Published lib) (ha : a.Keeps) (hrespects : a.RespectsFacts lib s) :
    RowsStated lib (step lib s a).db := by
  have hcont := (hs.sound.step_captures lib ha).2
  rcases step_effect lib s a with ⟨-, he⟩ | ⟨env, call, hcall, he⟩
  · rw [he]
    exact h
  have hdelete : ∀ request, call ≠ .delete request := by
    rintro request rfl
    obtain rfl := System.call_delete hcall
    exact ha
  cases he.rowChange hdelete with
  | same hmedia hfacts => exact h.same hmedia hfacts hcont
  | stored happ hn hstores hfact =>
    obtain ⟨⟨c, hc, hid, hurl⟩, hp⟩ := hs.sound.grounded hcall _ _ _ _ happ
    exact h.stored (Table.lookup_eq_some.mpr ⟨hc, hid⟩) (hs.sound.captures.notFailed c hc) hurl hp
      hn hstores hfact hcont
      fun m hm hchanged => (hrespects env call hcall _ _ _ _ happ).1 _ _ m rfl hn hm hchanged
  | deleted mid happ hlinked hcaptures hmedia houtbox hfact =>
    obtain ⟨c, hc, -, hp⟩ := hs.applied hcall happ
    exact h.deleted hs.sound.captures hc hp hlinked hcaptures hmedia houtbox hfact hcont

/-- What a payload owes a fact for is news: the newest fact states the caption of the row. -/
theorem RowsStated.news (h : RowsStated lib db) (hkeeps : lib.KeepsText) {c : Capture}
    {body : String} {normalized : NormalizedMedia} (hc : db.captures.lookup captureId = some c)
    (hurl : c.canonicalUrl = permalink.url) (hp : canonicalize permalink.url = .ok permalink)
    (hn : normalize lib body permalink.kind = some normalized)
    (howes : owesFact captureId permalink normalized db = true) :
    ¬ States lib captureId normalized.caption .available db := by
  rintro ⟨fact, hfact, htext, -⟩
  obtain ⟨x, hx, m, hm, hstated⟩ := h.stated captureId fact hfact
  rw [hc] at hx
  cases hx
  rw [hurl] at hm
  obtain ⟨htype, hplain⟩ := normalize_plain hn
  have hcaption : m.caption = normalized.caption :=
    snapshotText_injective hkeeps (h.plain _ m hm) hplain hstated htext
  have hmtype : m.mediaType = normalized.mediaType := (h.typed _ m _ hm hp).trans htype.symm
  have hhas : captureHasFact captureId db = true := by
    rw [captureHasFact_iff]
    intro hnone
    simp [newestFact, hnone] at hfact
  simp [owesFact, hhas, priorProjection, hm, normalizedChanged, hcaption, hmtype] at howes

end Rows

section News

variable {lib : Externals} {db db' : Db} {captureId : Uuid} {permalink : CanonicalPermalink}
  {c : Capture}

/-- A new fact with news extends a chain of differing facts. -/
theorem FactsDiffer.published (h : FactsDiffer db) (hinj : Function.Injective lib.digestPreimage)
    (hs : FactsSound lib db) (hc : db.captures.lookup captureId = some c)
    (hp : canonicalize c.canonicalUrl = .ok permalink) {caption : Option String}
    {availability : UpstreamAvailability} {snapshot : SocialSourceSnapshot} {kind : FactKind}
    {eventId : Uuid} {occurredAt : Instant}
    (hstated : Says lib captureId permalink caption availability snapshot)
    (hnews : ¬ States lib captureId caption availability db)
    (hlog : outboxLog db' = outboxLog db ++
      [factRow kind captureId snapshot eventId occurredAt]) : FactsDiffer db' := by
  intro id
  by_cases hid : captureId = id
  · subst hid
    rw [publishedFacts_factRow hlog]
    refine List.isChain_append.mpr ⟨h captureId, List.isChain_singleton _, ?_⟩
    intro last hlast new hnew heq
    rw [List.head?_cons, Option.mem_some_iff] at hnew
    subst hnew
    -- equal digests mean that the newest fact states the same content
    have hlast : (publishedFacts captureId db).getLast? = some last := hlast
    obtain ⟨x, -, -, kind', fact, p, rfl, -, -⟩ := hs captureId last (List.mem_of_getLast? hlast)
    have hnewest : newestFact captureId db = some fact := by
      unfold newestFact
      rw [hlast, Option.bind_some, FactKind.snapshot?_payload]
    have hdigest : fact.contentDigest = snapshot.contentDigest := by
      simpa [EventPayload.digest?, FactKind.snapshot?_payload] using heq
    exact hnews ((newest_digest_iff hinj hs hc hp hstated).mp ⟨fact, hnewest, hdigest⟩)
  · rw [publishedFacts_factRow_of_ne hlog hid]
    exact h id

theorem FactsDiffer.same (h : FactsDiffer db)
    (hfacts : ∀ id, publishedFacts id db' = publishedFacts id db) : FactsDiffer db' := by
  intro id
  rw [hfacts]
  exact h id

end News

/-- **Step lemma.** A step that respects the facts publishes news only. -/
theorem FactsDiffer.step {lib : Externals} {s : System} {a : Action} (h : FactsDiffer s.db)
    (hinj : Function.Injective lib.digestPreimage) (hkeeps : lib.KeepsText) (hs : s.Published lib)
    (hrows : RowsStated lib s.db) (ha : a.Keeps) (hrespects : a.RespectsFacts lib s) :
    FactsDiffer (step lib s a).db := by
  rcases step_effect lib s a with ⟨-, he⟩ | ⟨env, call, hcall, he⟩
  · rw [he]
    exact h
  have hdelete : ∀ request, call ≠ .delete request := by
    rintro request rfl
    obtain rfl := System.call_delete hcall
    exact ha
  cases he.logChange hdelete with
  | silent new hlog hnew => exact h.same fun _ => publishedFacts_silent hlog hnew
  | mediaFact eventId hlog =>
    refine h.same fun id => ?_
    rw [publishedFacts_append hlog, captureFacts_mediaFactRow]
    simp
  | stored id permalink body normalized resolvedAt stored mid snapshot eventId occurredAt happ hn
      howes hstores hsnapshot hlog =>
    obtain ⟨⟨c, hcmem, hid, hurl⟩, hgrounded⟩ := hs.sound.grounded hcall _ _ _ _ happ
    obtain ⟨c', hc, hst, hp⟩ := hs.applied hcall happ
    have hcc : c = c' := Option.some.inj ((Table.lookup_eq_some.mpr ⟨hcmem, hid⟩).symm.trans hc)
    exact h.published hinj hs.facts hc hp (hstores.stated hc hst hp hsnapshot)
      (hrows.news hkeeps hc (hcc ▸ hurl) hgrounded hn howes) hlog
  | deleted id permalink resolvedAt mediaId mid snapshot eventId occurredAt happ hlinked hcaptures
      hmedia hsnapshot hlog =>
    obtain ⟨c, hc, -, hp⟩ := hs.applied hcall happ
    obtain ⟨m, hm, hstated⟩ := deleted_stated hc hp hlinked hcaptures hmedia hsnapshot
    have hnews : ¬ States lib id m.caption .deletedUpstream s.db := by
      rintro ⟨fact, hfact, -, hupstream⟩
      exact (hrespects env call hcall _ _ _ _ happ).2 rfl fact hfact hupstream
    exact h.published hinj hs.facts hc hp hstated hnews hlog

/-- **When a replay publishes nothing.** In every reachable state, applying one outcome
twice publishes nothing the second time exactly when it is no deletion of a linked capture.
No two consecutive facts of a capture carry the same digest in every run in which no payload
rewrites a row that another capture has published from, and no deletion follows a deletion. -/
theorem replay_publishes_nothing (lib : Externals)
    (hinj : Function.Injective lib.digestPreimage) (hkeeps : lib.KeepsText) :
    (∀ (actions : List Action)
      captureId permalink outcome resolvedAt resolvedAt' env env' out out' db₁ db₂,
      (applySurfaceOutcome lib captureId permalink outcome resolvedAt).exec env
        (run (step lib) {} actions).db = (.ok out, db₁) →
      (applySurfaceOutcome lib captureId permalink outcome resolvedAt').exec env' db₁ =
        (.ok out', db₂) →
      ((∀ id, publishedFacts id db₂ = publishedFacts id db₁) ↔
        ¬ (outcome = .deleted ∧
          (linkedMedia captureId (run (step lib) {} actions).db).isSome = true))) ∧
    ∀ actions : List Action,
      Guarded (step lib) (fun s a => a.Keeps ∧ a.RespectsFacts lib s) {} actions →
      FactsDiffer (run (step lib) {} actions).db := by
  refine ⟨?_, ?_⟩
  · intro actions captureId permalink outcome resolvedAt resolvedAt' env env' out out' db₁ db₂ h h'
    exact applySurfaceOutcome_twice (exec_ok h) (exec_ok h')
  · intro actions hg
    have hinitial : RowsStated lib {} := by
      constructor
      case plain => exact fun _ _ hm => by cases hm
      case typed => exact fun _ _ _ hm => by cases hm
      case stated => exact fun _ _ hfact => by cases hfact
    have hinv := run_invariant (step lib) _
      (fun s => s.Published lib ∧ RowsStated lib s.db ∧ FactsDiffer s.db)
      (fun s a ha ⟨hs, hrows, hdiffer⟩ => ⟨hs.step ha.1, hrows.step hs ha.1 ha.2,
        hdiffer.step hinj hkeeps hs hrows ha.1 ha.2⟩) hg
      ⟨⟨sound_initial, fun _ _ hin => (List.not_mem_nil hin).elim⟩, hinitial,
        fun _ => List.isChain_nil⟩
    exact hinv.2.2

/-- A fetched payload respects the facts if the row it projects is not shared. -/
theorem applyFetch_payload_respectsFacts {lib : Externals} {s : System} {env : Env} {i : Nat}
    {body : String}
    (hrow : ∀ f ∈ s.fetches[i]?, ∀ normalized ∈ normalize lib body f.permalink.kind,
      ∀ m ∈ findMedia s.db f.permalink.url, m.caption ≠ normalized.caption →
        ∀ c ∈ s.db.captures.rows, c.canonicalUrl = f.permalink.url → c.captureId ≠ f.captureId →
          publishedFacts c.captureId s.db = []) :
    (Action.applyFetch env i (.payload body)).RespectsFacts lib s := by
  intro env' call hcall captureId permalink answer resolvedAt happ
  obtain ⟨f, hf, hpair⟩ := Option.map_eq_some_iff.mp hcall
  obtain ⟨rfl, rfl⟩ := Prod.mk.inj hpair
  obtain ⟨rfl, rfl⟩ := happ
  refine ⟨fun body' normalized m ho hn hm => ?_, nofun⟩
  cases ho
  exact hrow _ hf normalized hn m hm

theorem applyFetch_deleted_respectsFacts {lib : Externals} {s : System} {env : Env} {i : Nat}
    (hfact : ∀ f ∈ s.fetches[i]?, ∀ fact ∈ newestFact f.captureId s.db,
      fact.upstreamAvailability ≠ .deletedUpstream) :
    (Action.applyFetch env i .deleted).RespectsFacts lib s := by
  intro env' call hcall captureId permalink answer resolvedAt happ
  obtain ⟨f, hf, hpair⟩ := Option.map_eq_some_iff.mp hcall
  obtain ⟨rfl, rfl⟩ := Prod.mk.inj hpair
  obtain ⟨rfl, rfl⟩ := happ
  refine ⟨fun body normalized m ho => ?_, fun _ fact hnewest => hfact _ hf fact hnewest⟩
  cases ho

/-- The payload `X` applied once and then again. -/
def storedOnce : Db :=
  ((applySurfaceOutcome reference 100 fetchedPermalink (titledPayload "X") 20).exec
    (quietEnv 30 300) (run (step reference) {} fetchedRun).db).2

def storedTwice : Db :=
  ((applySurfaceOutcome reference 100 fetchedPermalink (titledPayload "X") 40).exec
    (quietEnv 50 500) storedOnce).2

/-- Two owners capture one post. The first capture reads `X` and then `Y`, the second one `Y`, and
then the first one finds the post deleted. -/
def publishedRun : List Action :=
  [.submit (quietEnv 10 100) ⟨1, "http://instagr.am/p/A", 5, .iosShareExtension, none, none⟩,
    .submit (quietEnv 15 150) ⟨2, "http://instagr.am/p/A", 5, .iosShareExtension, none, none⟩,
    .beginFetch (quietEnv 20 200) 100 20, .applyFetch (quietEnv 30 300) 0 (titledPayload "X"),
    .beginFetch (quietEnv 40 400) 100 40, .applyFetch (quietEnv 50 500) 0 (titledPayload "Y"),
    .beginFetch (quietEnv 60 600) 150 60, .applyFetch (quietEnv 70 700) 0 (titledPayload "Y"),
    .beginFetch (quietEnv 80 800) 100 80, .applyFetch (quietEnv 90 900) 0 .deleted]

theorem publishedRun_respects :
    Guarded (step reference) (fun s a => a.Keeps ∧ a.RespectsFacts reference s) {} publishedRun := by
  have hsubmit : ∀ (s : System) env request,
      (Action.submit env request).RespectsFacts reference s := by
    rintro s env request _ _ ⟨⟩ _ _ _ _ ⟨⟩
  have hbegin : ∀ (s : System) env captureId resolvedAt,
      (Action.beginFetch env captureId resolvedAt).RespectsFacts reference s := by
    rintro s env captureId resolvedAt _ _ ⟨⟩
  refine ⟨⟨trivial, hsubmit _ _ _⟩, ⟨trivial, hsubmit _ _ _⟩, ⟨trivial, hbegin _ _ _ _⟩, ⟨trivial, ?firstX⟩,
    ⟨trivial, hbegin _ _ _ _⟩, ⟨trivial, ?thenY⟩, ⟨trivial, hbegin _ _ _ _⟩, ⟨trivial, ?sameY⟩,
    ⟨trivial, hbegin _ _ _ _⟩, ⟨trivial, ?gone⟩, trivial⟩
  case firstX => exact applyFetch_payload_respectsFacts (by decide +kernel)
  case thenY => exact applyFetch_payload_respectsFacts (by decide +kernel)
  case sameY => exact applyFetch_payload_respectsFacts (by decide +kernel)
  case gone => exact applyFetch_deleted_respectsFacts (by decide +kernel)

theorem replay_publishes_nothing_publishedRun :
    (∀ id, publishedFacts id storedTwice = publishedFacts id storedOnce) ∧
      FactsDiffer (run (step reference) {} publishedRun).db ∧
      (publishedFacts 100 (run (step reference) {} publishedRun).db).length = 3 ∧
      (publishedFacts 150 (run (step reference) {} publishedRun).db).length = 1 := by
  have hkeeps : reference.KeepsText := fun text post h => (Option.some.inj h).symm
  have h := replay_publishes_nothing reference reference_digest_injective hkeeps
  have hfirst : (applySurfaceOutcome reference 100 fetchedPermalink (titledPayload "X") 20).exec
      (quietEnv 30 300) (run (step reference) {} fetchedRun).db =
      (.ok (.resolved ⟨304, 307, 300⟩), storedOnce) :=
    Prod.ext (by decide +kernel) rfl
  have hsecond : (applySurfaceOutcome reference 100 fetchedPermalink (titledPayload "X") 40).exec
      (quietEnv 50 500) storedOnce = (.ok (.resolved ⟨304, 506, 500⟩), storedTwice) :=
    Prod.ext (by decide +kernel) rfl
  refine ⟨(h.1 _ _ _ _ _ _ _ _ _ _ _ _ hfirst hsecond).mpr nofun, h.2 _ publishedRun_respects,
    ?_, ?_⟩
  · decide +kernel
  · decide +kernel

/-- The stored post is found deleted once and then again. -/
def deletedOnce : Db :=
  ((applySurfaceOutcome reference 100 fetchedPermalink .deleted 40).exec (quietEnv 50 500)
    storedOnce).2

def deletedTwice : Db :=
  ((applySurfaceOutcome reference 100 fetchedPermalink .deleted 60).exec (quietEnv 70 700)
    deletedOnce).2

/-- Two owners capture one post. The first capture reads `X`, the second one `Y`, and the first
one `X` again. -/
def sharedRun : List Action :=
  [.submit (quietEnv 10 100) ⟨1, "http://instagr.am/p/A", 5, .iosShareExtension, none, none⟩,
    .submit (quietEnv 15 150) ⟨2, "http://instagr.am/p/A", 5, .iosShareExtension, none, none⟩,
    .beginFetch (quietEnv 20 200) 100 20, .applyFetch (quietEnv 30 300) 0 (titledPayload "X"),
    .beginFetch (quietEnv 40 400) 150 40, .applyFetch (quietEnv 50 500) 0 (titledPayload "Y"),
    .beginFetch (quietEnv 60 600) 100 60, .applyFetch (quietEnv 70 700) 0 (titledPayload "X")]

theorem replays_republish :
    ((publishedFacts 100 deletedOnce).length = 2 ∧ (publishedFacts 100 deletedTwice).length = 3 ∧
      (publishedFacts 100 deletedTwice)[1]?.map EventPayload.digest? =
        (publishedFacts 100 deletedTwice)[2]?.map EventPayload.digest?) ∧
    (publishedFacts 100 (run (step reference) {} sharedRun).db).length = 2 ∧
      (publishedFacts 100 (run (step reference) {} sharedRun).db)[0]?.map EventPayload.digest? =
        (publishedFacts 100 (run (step reference) {} sharedRun).db)[1]?.map
          EventPayload.digest? := by
  refine ⟨⟨?_, ?_, ?_⟩, ?_, ?_⟩
  · decide +kernel
  · decide +kernel
  · decide +kernel
  · decide +kernel
  · decide +kernel

end InstagramArchive

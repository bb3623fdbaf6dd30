import InstagramArchive.Facts
import Mathlib.Data.List.Chain

/-!
# When a capture is published again

Whether a stored payload is published is decided by the media row, which all captures of
a permalink share, and not by what this capture said last; a recorded deletion is always
published. `Says` is the content of one fact, and the results compare what a step would
say with what the newest fact of the capture says already.
-/

namespace InstagramArchive

open Relational Relational.Tx Permalink

/-- The snapshot states this caption and availability under this permalink. -/
structure Says (lib : Externals) (captureId : Uuid) (permalink : CanonicalPermalink)
    (caption : Option String) (availability : UpstreamAvailability)
    (snapshot : SocialSourceSnapshot) : Prop where
  text : snapshotText lib captureId caption = .ok snapshot.text
  upstream : snapshot.upstreamAvailability = availability
  digest : snapshot.contentDigest = contentDigest lib permalink snapshot.text availability

/-- The newest fact of the capture states this caption and availability. -/
def States (lib : Externals) (captureId : Uuid) (caption : Option String)
    (upstream : UpstreamAvailability) (db : Db) : Prop :=
  ∃ fact, newestFact captureId db = some fact ∧ snapshotText lib captureId caption = .ok fact.text ∧
    fact.upstreamAvailability = upstream

/-- The payload is a fact of a stored capture, digested under the capture's permalink. -/
def FactOf (lib : Externals) (db : Db) (id : Uuid) (payload : EventPayload) : Prop :=
  ∃ c ∈ db.captures, c.captureId = id ∧
    ∃ kind snapshot permalink, payload = FactKind.payload kind snapshot ∧
      canonicalize c.canonicalUrl = .ok permalink ∧
      snapshot.contentDigest =
        contentDigest lib permalink snapshot.text snapshot.upstreamAvailability

def FactsSound (lib : Externals) (db : Db) : Prop :=
  ∀ id, ∀ payload ∈ publishedFacts id db, FactOf lib db id payload

section Contents

variable {lib : Externals} {env : Env} {db db' mid : Db} {captureId : Uuid}
  {permalink : CanonicalPermalink}

theorem Says.digest_eq {caption : Option String} {upstream : UpstreamAvailability}
    {snapshot snapshot' : SocialSourceSnapshot}
    (h : Says lib captureId permalink caption upstream snapshot)
    (h' : Says lib captureId permalink caption upstream snapshot') :
    snapshot.contentDigest = snapshot'.contentDigest := by
  have htext : snapshot.text = snapshot'.text := by
    have ht := h.text
    rw [h'.text] at ht
    exact (Except.ok.inj ht).symm
  rw [h.digest, h'.digest, htext]

/-! ### The media row of a stored payload -/

/-- The media row of a permalink after a payload was written into it. -/
structure Projected (url : String) (mediaId : Uuid) (normalized : NormalizedMedia) (db : Db)
    (m : Media) : Prop where
  found : findMedia db url = some m
  mediaId : m.mediaId = mediaId
  mediaType : m.mediaType = normalized.mediaType
  caption : m.caption = normalized.caption
  upstream : m.upstreamStatus = .available

theorem Upserts.projected {normalized : NormalizedMedia} {resolvedAt : Instant} {mediaId : Uuid}
    (h : Upserts permalink normalized resolvedAt db mediaId db') :
    ∃ m, Projected permalink.url mediaId normalized db' m := by
  rcases h with ⟨m, hm, rfl, rfl⟩ | ⟨hnone, createdAt, t, ht, rfl⟩
  · refine ⟨{ m with mediaType := normalized.mediaType, caption := normalized.caption,
                     upstreamStatus := .available, updatedAt := resolvedAt }, ?_, rfl, rfl, rfl, rfl⟩
    have hfound := Table.find?_update db.media.rows (fun x => x.mediaId = m.mediaId)
      (fun x => x.permalink = permalink.url)
      (fun x => { x with mediaType := normalized.mediaType, caption := normalized.caption,
                         upstreamStatus := .available, updatedAt := resolvedAt }) fun _ => rfl
    unfold findMedia at hm
    rw [hm, Option.map_some, if_pos (by simp)] at hfound
    exact hfound
  · refine ⟨newMedia mediaId permalink normalized createdAt, ?_, rfl, rfl, rfl, rfl⟩
    unfold findMedia at hnone ⊢
    rw [(Table.insert?_eq_some ht).1, List.find?_append, hnone]
    simp [newMedia]

theorem Stores.projected {normalized : NormalizedMedia} {body : String} {resolvedAt : Instant}
    {stored : StoredResolution}
    (h : Stores lib captureId permalink normalized body resolvedAt db stored mid) :
    ∃ m, Projected permalink.url stored.mediaId normalized mid m := by
  obtain ⟨raws, upserted, revisions, observations, -, hup, -, rfl⟩ := h
  obtain ⟨m, hm⟩ := hup.projected
  refine ⟨{ m with currentRevisionId := some stored.revisionId }, ?_, hm.mediaId, hm.mediaType,
    hm.caption, hm.upstream⟩
  have hfound := Table.find?_update upserted.media.rows (fun x => x.mediaId = stored.mediaId)
    (fun x => x.permalink = permalink.url)
    (fun x => { x with currentRevisionId := some stored.revisionId }) fun _ => rfl
  have hm' := hm.found
  unfold findMedia at hm'
  rw [hm', Option.map_some, if_pos (by simp [hm.mediaId])] at hfound
  exact hfound

theorem Projected.priorProjection {normalized : NormalizedMedia} {mediaId : Uuid} {m : Media}
    (h : Projected permalink.url mediaId normalized db m) :
    priorProjection permalink db = some (normalized.mediaType, normalized.caption) := by
  unfold InstagramArchive.priorProjection
  rw [h.found, Option.map_some, h.mediaType, h.caption]

/-! ### What a step says -/

theorem SnapshotOf.stated {c : Capture} {p : CanonicalPermalink} {m : Media}
    {snapshot : SocialSourceSnapshot} (h : SnapshotOf lib c p m snapshot)
    (hp : canonicalize c.canonicalUrl = .ok permalink) :
    Says lib c.captureId permalink m.caption (upstreamAvailability m.upstreamStatus) snapshot := by
  have hcanonical := h.canonical
  rw [hp] at hcanonical
  cases hcanonical
  exact ⟨h.text, h.upstream, h.upstream ▸ h.digest⟩

/-- A snapshot read after a payload was stored says the payload's caption and `available`. -/
theorem Stores.stated {normalized : NormalizedMedia} {body : String} {resolvedAt : Instant}
    {stored : StoredResolution} {kind : FactKind} {snapshot : SocialSourceSnapshot} {c : Capture}
    (h : Stores lib captureId permalink normalized body resolvedAt db stored mid)
    (hc : db.captures.lookup captureId = some c) (hst : c.status ≠ .failed)
    (hp : canonicalize c.canonicalUrl = .ok permalink)
    (hsnapshot : snapshotAt lib mid captureId kind = some snapshot) :
    Says lib captureId permalink normalized.caption .available snapshot := by
  obtain ⟨x, p, m, mediaId, hx, hmediaId, hm, hof⟩ := snapshotAt_eq_some hsnapshot
  obtain ⟨-, hid⟩ := Table.lookup_eq_some.mp hc
  have hxc : x = { c with status := .resolved, mediaId := some stored.mediaId } := by
    rw [h.captures_eq] at hx
    unfold concludeResolved at hx
    rw [Table.lookup_update, hc, Option.map_some, if_pos (by simp [hid, hst])] at hx
    exact (Option.some.inj hx).symm
  subst hxc
  cases hmediaId
  obtain ⟨m', hm'⟩ := h.projected
  have hlookup : mid.media.lookup stored.mediaId = some m' :=
    Table.lookup_eq_some.mpr ⟨(findMedia_eq_some hm'.found).1, hm'.mediaId⟩
  rw [hlookup] at hm
  cases hm
  have hstated := hof.stated hp
  rw [hm'.caption, hm'.upstream] at hstated
  rw [← hid]
  exact hstated

/-- A snapshot read after a deletion was recorded says the stored caption and
`deletedUpstream`. -/
theorem deleted_stated {resolvedAt : Instant} {mediaId : Uuid} {kind : FactKind}
    {snapshot : SocialSourceSnapshot} {c : Capture} (hc : db.captures.lookup captureId = some c)
    (hp : canonicalize c.canonicalUrl = .ok permalink)
    (hlinked : linkedMedia captureId db = some mediaId)
    (hcaptures : mid.captures = (setStatus captureId CaptureStatus.live .unavailable db).captures)
    (hmedia : mid.media = (setUpstreamDeleted mediaId resolvedAt db).media)
    (hsnapshot : snapshotAt lib mid captureId kind = some snapshot) :
    ∃ m, db.media.lookup mediaId = some m ∧
      Says lib captureId permalink m.caption .deletedUpstream snapshot := by
  obtain ⟨x, p, m, mediaId', hx, hmediaId, hm, hof⟩ := snapshotAt_eq_some hsnapshot
  obtain ⟨-, hid⟩ := Table.lookup_eq_some.mp hc
  have hlink : c.mediaId = some mediaId := by
    unfold linkedMedia at hlinked
    rwa [hc, Option.bind_some] at hlinked
  have hxc : x.captureId = c.captureId ∧ x.canonicalUrl = c.canonicalUrl ∧ x.mediaId = c.mediaId := by
    rw [hcaptures] at hx
    unfold setStatus at hx
    rw [Table.lookup_update, hc, Option.map_some] at hx
    rw [← Option.some.inj hx]
    split
    · exact ⟨rfl, rfl, rfl⟩
    · exact ⟨rfl, rfl, rfl⟩
  obtain ⟨hxid, hxurl, hxmedia⟩ := hxc
  rw [hxmedia, hlink] at hmediaId
  cases hmediaId
  rw [hmedia] at hm
  unfold setUpstreamDeleted at hm
  rw [Table.lookup_update] at hm
  obtain ⟨m₀, hm₀, rfl⟩ := Option.map_eq_some_iff.mp hm
  refine ⟨m₀, hm₀, ?_⟩
  have hstated := hof.stated (hxurl ▸ hp)
  rw [if_pos (by simp [(Table.lookup_eq_some.mp hm₀).2]), hxid, hid] at hstated
  exact hstated

/-- With an injective digest, the newest fact says the same as a snapshot exactly when it
carries the snapshot's digest. -/
theorem newest_digest_iff (hinj : Function.Injective lib.digestPreimage) (hs : FactsSound lib db)
    {c : Capture} (hc : db.captures.lookup captureId = some c)
    (hp : canonicalize c.canonicalUrl = .ok permalink) {caption : Option String}
    {upstream : UpstreamAvailability} {snapshot : SocialSourceSnapshot}
    (hstated : Says lib captureId permalink caption upstream snapshot) :
    (∃ fact, newestFact captureId db = some fact ∧
        fact.contentDigest = snapshot.contentDigest) ↔
      States lib captureId caption upstream db := by
  obtain ⟨hcmem, hcid⟩ := Table.lookup_eq_some.mp hc
  -- the newest fact was digested under the permalink of this capture
  have hdigest : ∀ fact, newestFact captureId db = some fact → fact.contentDigest =
      contentDigest lib permalink fact.text fact.upstreamAvailability := by
    intro fact hfact
    obtain ⟨payload, hlast, hpayload⟩ := Option.bind_eq_some_iff.mp hfact
    obtain ⟨x, hx, hxid, kind, snapshot', p, rfl, hxp, hd⟩ :=
      hs captureId payload (List.mem_of_getLast? hlast)
    rw [FactKind.snapshot?_payload] at hpayload
    cases hpayload
    have hxc : x = c := Table.eq_of_key_eq hx hcmem (hxid.trans hcid.symm)
    rw [hxc, hp] at hxp
    cases hxp
    exact hd
  constructor
  · rintro ⟨fact, hfact, heq⟩
    rw [hdigest fact hfact, hstated.digest] at heq
    obtain ⟨htext, hupstream⟩ := (contentDigest_inj hinj).mp heq
    exact ⟨fact, hfact, htext ▸ hstated.text, hupstream⟩
  · rintro ⟨fact, hfact, htext, hupstream⟩
    refine ⟨fact, hfact, ?_⟩
    have hsaid := hstated.text
    rw [htext] at hsaid
    rw [hdigest fact hfact, hstated.digest, hupstream, Except.ok.inj hsaid]

end Contents

/-! ## Facts are digested under their capture's permalink -/

section Sound

variable {lib : Externals} {db db' : Db}

theorem captureFacts_mediaFactRow (captureId : Uuid) (fact : MediaFact) (eventId : Uuid) :
    captureFacts captureId [mediaFactRow fact eventId] = [] := by
  simp [captureFacts, mediaFactRow]

theorem FactOf.continues {id : Uuid} {payload : EventPayload} (h : FactOf lib db id payload)
    (hcont : ∀ c ∈ db.captures, ∃ c' ∈ db'.captures, c.Continues c') :
    FactOf lib db' id payload := by
  obtain ⟨c, hc, hid, kind, snapshot, permalink, hkind, hp, hd⟩ := h
  obtain ⟨c', hc', hcc⟩ := hcont c hc
  exact ⟨c', hc', (Provenance.id_eq hcc.provenance).trans hid, kind, snapshot, permalink, hkind,
    Provenance.url_eq hcc.provenance ▸ hp, hd⟩

theorem FactsSound.same (h : FactsSound lib db)
    (hfacts : ∀ id, publishedFacts id db' = publishedFacts id db)
    (hcont : ∀ c ∈ db.captures, ∃ c' ∈ db'.captures, c.Continues c') : FactsSound lib db' := by
  intro id payload hpayload
  rw [hfacts] at hpayload
  exact (h id payload hpayload).continues hcont

theorem FactsSound.published {mid : Db} {kind : FactKind} {captureId eventId : Uuid}
    {snapshot : SocialSourceSnapshot} {occurredAt : Instant} (h : FactsSound lib db)
    (hcont : ∀ c ∈ db.captures, ∃ c' ∈ db'.captures, c.Continues c')
    (horigin : ∀ x ∈ mid.captures, ∃ y ∈ db.captures, x.provenance = y.provenance)
    (hsnapshot : snapshotAt lib mid captureId kind = some snapshot)
    (hlog : outboxLog db' = outboxLog db ++
      [factRow kind captureId snapshot eventId occurredAt]) : FactsSound lib db' := by
  have hnew : FactOf lib db captureId (kind.payload snapshot) := by
    obtain ⟨x, permalink, m, mediaId, hx, -, -, hof⟩ := snapshotAt_eq_some hsnapshot
    obtain ⟨hxmem, hxid⟩ := Table.lookup_eq_some.mp hx
    obtain ⟨y, hy, hxy⟩ := horigin x hxmem
    exact ⟨y, hy, (Provenance.id_eq hxy).symm.trans hxid, kind, snapshot, permalink, rfl,
      Provenance.url_eq hxy ▸ hof.canonical, hof.digest⟩
  intro id payload hpayload
  by_cases hid : captureId = id
  · subst hid
    rw [publishedFacts_factRow hlog] at hpayload
    rcases List.mem_append.mp hpayload with hin | hin
    · exact (h captureId payload hin).continues hcont
    · rw [List.mem_singleton.mp hin]
      exact hnew.continues hcont
  · rw [publishedFacts_factRow_of_ne hlog hid] at hpayload
    exact (h id payload hpayload).continues hcont

theorem FactsSound.logChange {call : Call} (h : FactsSound lib db)
    (hl : LogChange lib db call db')
    (hcont : ∀ c ∈ db.captures, ∃ c' ∈ db'.captures, c.Continues c') : FactsSound lib db' := by
  cases hl with
  | silent new hlog hnew => exact h.same (fun _ => publishedFacts_silent hlog hnew) hcont
  | mediaFact eventId hlog =>
    refine h.same (fun id => ?_) hcont
    rw [publishedFacts_append hlog, captureFacts_mediaFactRow]
    simp
  | stored id permalink body normalized resolvedAt stored mid snapshot eventId occurredAt hcall hn
      howes hstores hsnapshot hlog =>
    exact h.published hcont hstores.origin hsnapshot hlog
  | deleted id permalink resolvedAt mediaId mid snapshot eventId occurredAt hcall hlinked hcaptures
      hmedia hsnapshot hlog =>
    exact h.published hcont (origin_of_setStatus hcaptures) hsnapshot hlog

/-- The invariant of the capture lane. -/
structure System.Published (lib : Externals) (s : System) : Prop where
  sound : s.Sound
  facts : FactsSound lib s.db

theorem System.Published.step {s : System} {a : Action} (h : s.Published lib) (ha : a.Keeps) :
    (step lib s a).Published lib := by
  refine ⟨h.sound.step ha, ?_⟩
  have hcont := (h.sound.step_captures lib ha).2
  rcases step_effect lib s a with ⟨-, he⟩ | ⟨env, call, hcall, he⟩
  · rw [he] at hcont ⊢
    exact h.facts
  · refine h.facts.logChange (he.logChange ?_) hcont
    rintro request rfl
    obtain rfl := System.call_delete hcall
    exact ha

theorem published_run {actions : List Action} (ha : ∀ a ∈ actions, a.Keeps) :
    (run (InstagramArchive.step lib) {} actions).Published lib := by
  refine run_invariant (InstagramArchive.step lib) (fun _ a => a.Keeps) (System.Published lib)
    (fun _ _ ha h => h.step ha) (guarded_of_forall (InstagramArchive.step lib) ha)
    ⟨sound_initial, ?_⟩
  exact fun _ _ hin => (List.not_mem_nil hin).elim

end Sound

/-! ## What is published is what is stored -/

section Current

variable {lib : Externals} {env : Env} {db db' : Db} {captureId : Uuid}
  {permalink : CanonicalPermalink} {c : Capture}

theorem currentContentDigest_exec {d : ContentDigest}
    (h : ((currentContentDigest lib captureId).exec env db).1 = .ok d) :
    ∃ snapshot, snapshotAt lib db captureId .captured = some snapshot ∧
      snapshot.contentDigest = d := by
  rcases exec_cases (currentContentDigest lib captureId) env db with ⟨d', db', he, hy⟩ | ⟨e, he⟩
  · rw [he] at h
    cases h
    obtain ⟨snapshot, _, h1, h2⟩ := hy.bind
    obtain ⟨rfl, -⟩ := yields_pure.mp h2
    exact ⟨snapshot, (buildSnapshot_yields h1).1, rfl⟩
  · rw [he] at h
    cases h

theorem Appends.snapshotAt_eq {row : OutboxEvent} (h : Appends db row db') (kind : FactKind) :
    snapshotAt lib db' captureId kind = snapshotAt lib db captureId kind := by
  rw [h.eq]
  rfl

theorem newestFact_congr (h : db'.outboxEvents = db.outboxEvents) :
    newestFact captureId db' = newestFact captureId db := by
  unfold newestFact publishedFacts
  rw [h]

/-- After a stored payload the newest fact is current exactly when the payload owed a fact
or the newest fact said it already. -/
theorem storeResolution_newest_iff {normalized : NormalizedMedia} {body : String}
    {resolvedAt : Instant} {stored : StoredResolution} {snapshot : SocialSourceSnapshot}
    (hinj : Function.Injective lib.digestPreimage) (hs : FactsSound lib db)
    (hc : db.captures.lookup captureId = some c) (hst : c.status ≠ .failed)
    (hp : canonicalize c.canonicalUrl = .ok permalink)
    (h : (storeResolution lib captureId permalink normalized body resolvedAt).Yields env db
      stored db')
    (hcurrent : snapshotAt lib db' captureId .captured = some snapshot) :
    (∃ fact, newestFact captureId db' = some fact ∧
        fact.contentDigest = snapshot.contentDigest) ↔
      (owesFact captureId permalink normalized db = true ∨
        States lib captureId normalized.caption .available db) := by
  obtain ⟨mid, hstores, hfact⟩ := storeResolution_yields h
  have hmid : mid.outboxEvents = db.outboxEvents := by rw [hstores.frame]
  split at hfact
  · rename_i howes
    refine iff_of_true ?_ (Or.inl howes)
    obtain ⟨snapshot', eventId, occurredAt, hsnapshot', happ⟩ := hfact
    rw [happ.snapshotAt_eq] at hcurrent
    have hlog := happ.outboxLog rfl
    refine ⟨snapshot', newestFact_append (publishedFacts_factRow hlog), ?_⟩
    exact (hstores.stated hc hst hp hsnapshot').digest_eq (hstores.stated hc hst hp hcurrent)
  · rename_i howes
    subst hfact
    rw [newestFact_congr hmid, newest_digest_iff hinj hs hc hp (hstores.stated hc hst hp hcurrent)]
    constructor
    · exact Or.inr
    · rintro (h | h)
      · exact (howes h).elim
      · exact h

/-- After a recorded deletion of a linked capture the newest fact is current. -/
theorem recordFailedResolution_newest {resolvedAt : Instant} {out : ResolutionOutcome}
    {snapshot : SocialSourceSnapshot} (hc : db.captures.lookup captureId = some c)
    (hp : canonicalize c.canonicalUrl = .ok permalink)
    (hlinked : (linkedMedia captureId db).isSome = true)
    (h : (recordFailedResolution lib captureId .deleted resolvedAt).Yields env db out db')
    (hcurrent : snapshotAt lib db' captureId .captured = some snapshot) :
    ∃ fact, newestFact captureId db' = some fact ∧
      fact.contentDigest = snapshot.contentDigest := by
  obtain ⟨observations, mid, hmid, ⟨mediaId, -, hmedia, hfact⟩ | ⟨hnone, -⟩⟩ :=
    recordFailedResolution_yields h
  · obtain ⟨snapshot', eventId, occurredAt, hsnapshot', happ⟩ := hfact
    rw [happ.snapshotAt_eq] at hcurrent
    have hcaptures : (setUpstreamDeleted mediaId resolvedAt mid).captures =
        (setStatus captureId CaptureStatus.live .unavailable db).captures := by
      rw [hmid]
      rfl
    have hmediaRows : (setUpstreamDeleted mediaId resolvedAt mid).media =
        (setUpstreamDeleted mediaId resolvedAt db).media := by
      rw [hmid]
      rfl
    obtain ⟨m, hm, hstated⟩ := deleted_stated hc hp hmedia hcaptures hmediaRows hcurrent
    obtain ⟨m', hm', hstated'⟩ := deleted_stated hc hp hmedia hcaptures hmediaRows hsnapshot'
    rw [hm] at hm'
    cases hm'
    have hlog := happ.outboxLog rfl
    exact ⟨snapshot', newestFact_append (publishedFacts_factRow hlog), hstated'.digest_eq hstated⟩
  · rw [hnone rfl] at hlinked
    cases hlinked

end Current

/-- The stored capture an applied outcome is about. -/
theorem System.Published.applied {lib : Externals} {s : System} {a : Action} {env : Env}
    {call : Call} {captureId : Uuid} {permalink : CanonicalPermalink} {outcome : SurfaceOutcome}
    {resolvedAt : Instant} (h : s.Published lib) (hcall : s.call a = some (env, call))
    (happ : call.Applies captureId permalink outcome resolvedAt) :
    ∃ c, s.db.captures.lookup captureId = some c ∧ c.status ≠ .failed ∧
      canonicalize c.canonicalUrl = .ok permalink := by
  obtain ⟨⟨c, hc, hid, hurl⟩, hp⟩ := h.sound.grounded hcall _ _ _ _ happ
  exact ⟨c, Table.lookup_eq_some.mpr ⟨hc, hid⟩, h.sound.captures.notFailed c hc, hurl ▸ hp⟩

/-- **When what is published is what is stored.** After every run without deletions and
for every step that applies a surface outcome and commits: a recorded deletion of a linked
capture leaves the newest fact with the current content digest, and a stored payload does
so exactly when it owed a fact or the newest fact already stated its caption and
`available`. -/
theorem newest_fact_current_iff (lib : Externals) (hinj : Function.Injective lib.digestPreimage)
    (before : List Action) (hb : ∀ a ∈ before, a.Keeps) (a : Action) (env : Env) (call : Call)
    (captureId : Uuid) (permalink : CanonicalPermalink) (outcome : SurfaceOutcome)
    (resolvedAt : Instant) (out : ResolutionOutcome) (env' : Env) (d : ContentDigest)
    (hcall : (run (step lib) {} before).call a = some (env, call))
    (happ : call.Applies captureId permalink outcome resolvedAt)
    (hout : ((applySurfaceOutcome lib captureId permalink outcome resolvedAt).exec env
      (run (step lib) {} before).db).1 = .ok out)
    (hd : ((currentContentDigest lib captureId).exec env'
      (step lib (run (step lib) {} before) a).db).1 = .ok d) :
    let s := run (step lib) {} before
    let s' := step lib s a
    (∀ body normalized, outcome = .payload body →
      normalize lib body permalink.kind = some normalized →
      ((∃ fact, newestFact captureId s'.db = some fact ∧ fact.contentDigest = d) ↔
        (owesFact captureId permalink normalized s.db = true ∨
          States lib captureId normalized.caption .available s.db))) ∧
    (outcome = .deleted → (linkedMedia captureId s.db).isSome = true →
      ∃ fact, newestFact captureId s'.db = some fact ∧ fact.contentDigest = d) := by
  intro s s'
  have hs : s.Published lib := published_run hb
  obtain ⟨c, hc, hst, hp⟩ := hs.applied hcall happ
  obtain ⟨snapshot, hcurrent, rfl⟩ := currentContentDigest_exec hd
  -- the transaction of the step is the one that yields `out`
  have hyields : outcome ≠ .temporarilyUnavailable →
      (applySurfaceOutcome lib captureId permalink outcome resolvedAt).Yields env s.db out s'.db := by
    intro ho
    have hdb : s'.db = call.perform lib env s.db := by
      change (step lib s a).db = _
      rw [step_db, hcall]
    rw [hdb, happ.perform_eq ho]
    rcases exec_cases (applySurfaceOutcome lib captureId permalink outcome resolvedAt) env s.db with
      ⟨out', db', he, hy⟩ | ⟨e, he⟩
    · rw [he]
      rw [show (run (step lib) {} before).db = s.db from rfl, he] at hout
      cases hout
      exact hy
    · rw [show (run (step lib) {} before).db = s.db from rfl, he] at hout
      cases hout
  refine ⟨?_, ?_⟩
  · rintro body normalized rfl hn
    rcases applySurfaceOutcome_yields (hyields nofun) with
      ⟨body', normalized', stored, hbody, hn', -, hstore⟩ | ⟨observed, -, hnone, -⟩
    · cases hbody
      rw [hn] at hn'
      cases hn'
      exact storeResolution_newest_iff hinj hs.facts hc hst hp hstore hcurrent
    · rw [hnone body rfl] at hn
      cases hn
  · rintro rfl hlinked
    rcases applySurfaceOutcome_yields (hyields nofun) with
      ⟨body', normalized', stored, hbody, -⟩ | ⟨observed, ho, -, hfail⟩
    · cases hbody
    · rw [ho.mpr rfl] at hfail
      exact recordFailedResolution_newest hc hp hlinked hfail hcurrent

/-- A capture whose permalink is read for a resolution. -/
def fetchedRun : List Action :=
  [.submit (quietEnv 10 100) ⟨1, "http://instagr.am/p/A", 5, .iosShareExtension, none, none⟩,
    .beginFetch (quietEnv 20 200) 100 20]

/-- The permalink of the capture of `fetchedRun`. -/
def fetchedPermalink : CanonicalPermalink := ⟨"https://www.instagram.com/p/A/", .post, "A"⟩

/-- The first answer for it. -/
def firstAnswer : Action := .applyFetch (quietEnv 30 300) 0 (titledPayload "X")

theorem newest_fact_current_firstAnswer :
    ∃ fact, newestFact 100 (step reference (run (step reference) {} fetchedRun) firstAnswer).db =
        some fact ∧
      fact.contentDigest = contentDigest reference fetchedPermalink (some "X") .available := by
  have hfetch : (run (step reference) {} fetchedRun).fetches = [⟨100, fetchedPermalink, 20⟩] := by
    decide +kernel
  have hcall : (run (step reference) {} fetchedRun).call firstAnswer =
      some (quietEnv 30 300, .apply ⟨100, fetchedPermalink, 20⟩ (titledPayload "X")) := by
    simp [System.call, firstAnswer, hfetch]
  have hout : ((applySurfaceOutcome reference 100 fetchedPermalink (titledPayload "X") 20).exec
      (quietEnv 30 300) (run (step reference) {} fetchedRun).db).1 =
      .ok (.resolved ⟨304, 307, 300⟩) := by
    decide +kernel
  have hdigest : ((currentContentDigest reference 100).exec (quietEnv 40 400)
      (step reference (run (step reference) {} fetchedRun) firstAnswer).db).1 =
      .ok (contentDigest reference fetchedPermalink (some "X") .available) := by
    decide +kernel
  have hcurrent := newest_fact_current_iff reference reference_digest_injective fetchedRun
    (by simp [fetchedRun, Action.Keeps]) firstAnswer (quietEnv 30 300) _ 100 fetchedPermalink
    (titledPayload "X") 20 _ (quietEnv 40 400) _ hcall ⟨rfl, rfl⟩ hout hdigest
  exact (hcurrent.1 _ ⟨.unknown, some "X"⟩ rfl (by decide +kernel)).mpr (Or.inl (by decide +kernel))

/-- The post is deleted upstream and then read again for a resolution. -/
def deletedRun : List Action :=
  fetchedRun ++ [firstAnswer, .beginFetch (quietEnv 40 400) 100 40,
    .applyFetch (quietEnv 50 500) 0 .deleted, .beginFetch (quietEnv 60 600) 100 60]

/-- The post reappears unchanged. -/
def reappearance : Action := .applyFetch (quietEnv 70 700) 0 (titledPayload "X")

theorem reappearance_not_current :
    ((applySurfaceOutcome reference 100 fetchedPermalink (titledPayload "X") 60).exec
        (quietEnv 70 700) (run (step reference) {} deletedRun).db).1.toOption.isSome = true ∧
      ((currentContentDigest reference 100).exec (quietEnv 80 800)
        (step reference (run (step reference) {} deletedRun) reappearance).db).1 =
          .ok (contentDigest reference fetchedPermalink (some "X") .available) ∧
      (newestFact 100 (step reference (run (step reference) {} deletedRun) reappearance).db).map
          SocialSourceSnapshot.contentDigest ≠
        some (contentDigest reference fetchedPermalink (some "X") .available) := by
  refine ⟨?_, ?_, ?_⟩
  · decide +kernel
  · decide +kernel
  · decide +kernel

end InstagramArchive

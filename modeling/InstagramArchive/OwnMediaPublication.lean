import InstagramArchive.OwnMediaAuthority
import InstagramArchive.OwnMediaCompletion
import InstagramArchive.OwnMediaSteps

/-!
# What is published is what is stored

A completion publishes every item whose content digest does not occur in the published
history of its media row. A digest that does occur is passed over, also when it is not the
latest one. The stored content and the latest fact therefore agree after every completion
exactly as long as no item returns to content that was published before and replaced since;
`own_media_published_as_stored` is the statement for whole runs.
-/

namespace InstagramArchive

open Relational Relational.Tx

/-- The digests of the captured and updated facts of a media row, oldest first. -/
def publishedDigests (mediaId : Uuid) (db : Db) : List String :=
  (mediaEvents mediaId db).filterMap fun e => e.payload.payload.digestHex?

/-- The latest fact of the row carries the digest of its stored content. -/
def Announces (lib : Externals) (m : Media) (db : Db) : Prop :=
  ∃ content ∈ m.content?, ∃ digest ∈ lib.digestOwnMedia content,
    (publishedDigests m.mediaId db).getLast? = some digest.hex

/-- Every item of a run is stored in a media row that announces it. -/
def RunPublished (lib : Externals) (runId : Uuid) (db : Db) : Prop :=
  ∀ i ∈ runItems runId db, ∃ m ∈ mediaByProvider i.providerMediaId db,
    m.content? = some i.content ∧ Announces lib m db

/-- Every item of the authoritative run is stored and announced. -/
def PublishedAsStored (lib : Externals) (accountId : Uuid) (db : Db) : Prop :=
  ∀ runId ∈ syncAuthority accountId db, RunPublished lib runId db

/-- No item of the run returns to content that was published before and replaced since. -/
def NeverReturns (lib : Externals) (runId : Uuid) (db : Db) : Prop :=
  ∀ i ∈ runItems runId db, ∀ m ∈ mediaByProvider i.providerMediaId db,
    ∀ digest ∈ lib.digestOwnMedia i.content, digest.hex ∈ publishedDigests m.mediaId db →
      (publishedDigests m.mediaId db).getLast? = some digest.hex

instance (lib : Externals) (m : Media) (db : Db) : Decidable (Announces lib m db) :=
  inferInstanceAs (Decidable (∃ content ∈ m.content?, ∃ digest ∈ lib.digestOwnMedia content,
    (publishedDigests m.mediaId db).getLast? = some digest.hex))

instance (lib : Externals) (runId : Uuid) (db : Db) : Decidable (RunPublished lib runId db) :=
  inferInstanceAs (Decidable (∀ i ∈ runItems runId db, ∃ m ∈ mediaByProvider i.providerMediaId db,
    m.content? = some i.content ∧ Announces lib m db))

instance (lib : Externals) (accountId : Uuid) (db : Db) :
    Decidable (PublishedAsStored lib accountId db) :=
  inferInstanceAs (Decidable (∀ runId ∈ syncAuthority accountId db, RunPublished lib runId db))

instance (lib : Externals) (runId : Uuid) (db : Db) : Decidable (NeverReturns lib runId db) :=
  inferInstanceAs (Decidable (∀ i ∈ runItems runId db, ∀ m ∈ mediaByProvider i.providerMediaId db,
    ∀ digest ∈ lib.digestOwnMedia i.content, digest.hex ∈ publishedDigests m.mediaId db →
      (publishedDigests m.mediaId db).getLast? = some digest.hex))

/-- The identifiers a transaction mints are new to the outbox. -/
structure FreshIds (env : Env) (db : Db) : Prop where
  injective : Function.Injective env.uuid
  events : ∀ n, ∀ e ∈ db.outboxEvents, e.eventId ≠ env.uuid n ∧ e.aggregateId ≠ env.uuid n

/-! ## One fact -/

section Facts

variable {lib : Externals} {env : Env} {owner : Uuid} {checkpoint : Option String}
  {capturedAt : Instant}

/-- The outbox row states the digest for the media row. -/
structure StatesDigest (mediaId : Uuid) (digest : ContentDigest) (e : OutboxEvent) : Prop where
  aggregateType : e.aggregateType = .media
  aggregateId : e.aggregateId = mediaId
  digest : e.payload.payload.digestHex? = some digest.hex

theorem mem_publishedDigests {mediaId : Uuid} {db : Db} {hex : String} :
    hex ∈ publishedDigests mediaId db ↔
      ∃ e ∈ mediaEvents mediaId db, e.payload.payload.digestHex? = some hex := by
  simp [publishedDigests]

theorem digestHex?_payload (kind : FactKind) (snapshot : SocialSourceSnapshot) :
    (kind.payload snapshot).digestHex? = some snapshot.contentDigest.hex := by
  cases kind <;> rfl

/-- A fact is passed over when its digest is in the history, and appended otherwise. -/
theorem appendOwnMediaFact_commits {row : OwnMediaPublishRow} {ses ses' : Session Db} {b : Bool}
    (h : (appendOwnMediaFact lib owner checkpoint capturedAt row).Commits env ses b ses')
    (hfresh : ∀ n, ses.tick ≤ n → ∀ e ∈ ses.store.outboxEvents, e.eventId ≠ env.uuid n) :
    ∃ digest, lib.digestOwnMedia row.content = some digest ∧ ses.tick ≤ ses'.tick ∧
      ((digest.hex ∈ publishedDigests row.mediaId ses.store ∧ ses'.store = ses.store) ∨
        (digest.hex ∉ publishedDigests row.mediaId ses.store ∧
          ∃ e t n, t.rows = ses.store.outboxEvents.rows ++ [e] ∧ StatesDigest row.mediaId digest e ∧
            ses.tick ≤ n ∧ n < ses'.tick ∧ e.eventId = env.uuid n ∧
            ses'.store = { ses.store with outboxEvents := t })) := by
  obtain ⟨digest, _, h1, h⟩ := h.bind
  obtain ⟨hdigest, rfl⟩ := h1.ofExcept
  have hdigest : lib.digestOwnMedia row.content = some digest := by
    unfold ownMediaContentDigest at hdigest
    cases hd : lib.digestOwnMedia row.content with
    | none => simp [hd] at hdigest
    | some d => simpa [hd] using hdigest
  refine ⟨digest, hdigest, ?_⟩
  obtain ⟨prior, m1, h1, h⟩ := h.bind
  obtain ⟨rfl, hs1, ht1⟩ := h1.query
  split at h
  · rename_i hany
    obtain ⟨-, rfl⟩ := h.pure
    refine ⟨by omega, Or.inl ⟨?_, hs1⟩⟩
    obtain ⟨e, he, hhex⟩ := List.any_eq_true.mp hany
    exact mem_publishedDigests.mpr ⟨e, he, by simpa using hhex⟩
  · rename_i hany
    have hnew : digest.hex ∉ publishedDigests row.mediaId ses.store := by
      rw [mem_publishedDigests]
      rintro ⟨e, he, hhex⟩
      exact hany (List.any_eq_true.mpr ⟨e, he, by simpa using hhex⟩)
    obtain ⟨text, _, h1, h⟩ := h.bind
    obtain ⟨-, rfl⟩ := h1.ofExcept
    obtain ⟨_, _, h1, h⟩ := h.bind
    obtain ⟨-, rfl⟩ := h1.ofExcept
    obtain ⟨eventId, m2, h1, h⟩ := h.bind
    obtain ⟨rfl, hs2, ht2⟩ := h1.nowV7
    obtain ⟨hinsert, ht3⟩ := h.insertUnless
    rw [hs2, hs1] at hinsert
    refine ⟨by omega, Or.inr ⟨hnew, ?_⟩⟩
    rcases hinsert with ⟨hconflict, -, -⟩ | ⟨-, -, t, hinsert, hs3⟩
    · -- neither the minted identifier nor the digest can be there already
      exfalso
      simp only [mediaFactConflict, Bool.or_eq_true] at hconflict
      rcases hconflict with htaken | hsame
      · obtain ⟨e, he⟩ := Option.isSome_iff_exists.mp htaken
        obtain ⟨hmem, hid⟩ := Table.lookup_eq_some.mp he
        exact hfresh m1.tick (by omega) e hmem hid
      · obtain ⟨e, he, hsame⟩ := List.any_eq_true.mp hsame
        simp only [Bool.and_eq_true, decide_eq_true_eq] at hsame
        refine hnew (mem_publishedDigests.mpr ⟨e, he, hsame.2.trans ?_⟩)
        exact digestHex?_payload _ _
    · obtain ⟨hrows, -⟩ := Table.insert?_eq_some hinsert
      refine ⟨_, t, m1.tick, hrows, ⟨rfl, rfl, digestHex?_payload _ _⟩, by omega, by omega, rfl, hs3⟩

/-- Appending a row that states a digest for one media row. -/
theorem publishedDigests_append {mediaId other : Uuid} {digest : ContentDigest} {e : OutboxEvent}
    {db : Db} {t : Table OutboxEvent OutboxEvent.eventId} (he : StatesDigest mediaId digest e)
    (hrows : t.rows = db.outboxEvents.rows ++ [e]) :
    publishedDigests other { db with outboxEvents := t } =
      publishedDigests other db ++ if other = mediaId then [digest.hex] else [] := by
  simp only [publishedDigests, mediaEvents, hrows, List.filter_append, List.filterMap_append]
  congr 1
  by_cases hid : other = mediaId
  · subst hid
    simp [he.aggregateType, he.aggregateId, he.digest]
  · simp [he.aggregateId, hid, Ne.symm hid]

/-! ## The facts of a run -/

/-- The row's latest fact carries its digest. -/
def OwnMediaPublishRow.Current (lib : Externals) (row : OwnMediaPublishRow) (db : Db) : Prop :=
  ∃ digest, lib.digestOwnMedia row.content = some digest ∧
    (publishedDigests row.mediaId db).getLast? = some digest.hex

/-- **Publishing the rows of a run**, by induction on them: what a row publishes stays the
latest fact of its media row, because the later rows are about other ones. -/
theorem appendEachOwnMediaFact_current {rows : List OwnMediaPublishRow} {ses ses' : Session Db}
    {n : Nat} (hinj : Function.Injective env.uuid)
    (hnodup : (rows.map OwnMediaPublishRow.mediaId).Nodup)
    (hreturn : ∀ row ∈ rows, ∀ digest, lib.digestOwnMedia row.content = some digest →
      digest.hex ∈ publishedDigests row.mediaId ses.store →
        (publishedDigests row.mediaId ses.store).getLast? = some digest.hex)
    (hfresh : ∀ n, ses.tick ≤ n → ∀ e ∈ ses.store.outboxEvents, e.eventId ≠ env.uuid n)
    (h : (appendEachOwnMediaFact lib owner checkpoint capturedAt rows).Commits env ses n ses') :
    (∀ row ∈ rows, row.Current lib ses'.store) ∧
      ∀ other, other ∉ rows.map OwnMediaPublishRow.mediaId →
        publishedDigests other ses'.store = publishedDigests other ses.store := by
  induction rows generalizing ses n with
  | nil =>
    obtain ⟨-, rfl⟩ := h.pure
    exact ⟨by simp, fun _ _ => rfl⟩
  | cons row rest ih =>
    obtain ⟨b, mid, h1, h⟩ := h.bind
    obtain ⟨more, _, hrest, h⟩ := h.bind
    obtain ⟨-, rfl⟩ := h.pure
    obtain ⟨digest, hdigest, htick, hone⟩ := appendOwnMediaFact_commits h1 hfresh
    obtain ⟨hfirst, hnodup⟩ := List.nodup_cons.mp hnodup
    -- what the first row leaves: its digest is the latest, the others are untouched
    have hmid : (publishedDigests row.mediaId mid.store).getLast? = some digest.hex ∧
        (∀ other, other ≠ row.mediaId →
          publishedDigests other mid.store = publishedDigests other ses.store) ∧
        ∀ n, mid.tick ≤ n → ∀ e ∈ mid.store.outboxEvents, e.eventId ≠ env.uuid n := by
      rcases hone with ⟨hold, hstore⟩ | ⟨-, e, t, k, hrows, he, hk, hk', hid, hstore⟩
      · rw [hstore]
        exact ⟨hreturn row List.mem_cons_self digest hdigest hold, fun _ _ => rfl,
          fun n hn => hfresh n (by omega)⟩
      · rw [hstore]
        refine ⟨by rw [publishedDigests_append he hrows]; simp, fun other hother => ?_,
          fun n hn x hx => ?_⟩
        · rw [publishedDigests_append he hrows, if_neg hother, List.append_nil]
        · rw [Table.mem_rows, hrows, List.mem_append, List.mem_singleton] at hx
          rcases hx with hx | rfl
          · exact hfresh n (by omega) x hx
          · rw [hid]
            exact fun heq => absurd (hinj heq) (by omega)
    obtain ⟨hlatest, hothers, hfresh'⟩ := hmid
    have hne : ∀ r ∈ rest, r.mediaId ≠ row.mediaId :=
      fun r hr hid => hfirst (hid ▸ List.mem_map_of_mem hr)
    obtain ⟨hcurrent, hkept⟩ := ih hnodup (fun r hr d hd => by
      rw [hothers r.mediaId (hne r hr)]
      exact hreturn r (List.mem_cons_of_mem row hr) d hd) hfresh' hrest
    constructor
    · intro r hr
      rcases List.mem_cons.mp hr with rfl | hr
      · exact ⟨digest, hdigest, by rw [hkept r.mediaId hfirst, hlatest]⟩
      · exact hcurrent r hr
    · intro other hother
      simp only [List.map_cons, List.mem_cons, not_or] at hother
      rw [hkept other hother.2, hothers other hother.1]

end Facts

/-! ## A completion -/

section Completion

variable {lib : Externals} {env : Env} {runId : Uuid} {db db' : Db}

theorem mem_stagedItems {i : SyncItem} :
    i ∈ stagedItems runId db ↔ i ∈ db.syncItems ∧ i.runId = runId := by
  simp [stagedItems, List.mem_insertionSort, Table.mem_rows]

theorem mem_runItems {i : SyncItem} : i ∈ runItems runId db ↔ i ∈ db.syncItems ∧ i.runId = runId := by
  simp [runItems, Table.mem_rows]

theorem stagedItems_nodup : ((stagedItems runId db).map SyncItem.providerMediaId).Nodup := by
  have hperm : (stagedItems runId db).Perm (db.syncItems.rows.filter fun i => i.runId = runId) :=
    List.perm_insertionSort _ _
  rw [(hperm.map _).nodup_iff]
  have hkeys : ((db.syncItems.rows.filter fun i => i.runId = runId).map SyncItem.key).Nodup :=
    db.syncItems.nodup.sublist (List.filter_sublist.map _)
  rw [List.Nodup, List.pairwise_map] at hkeys ⊢
  refine hkeys.imp_of_mem fun {a b} ha hb hne hid => hne ?_
  have ha := (List.mem_filter.mp ha).2
  have hb := (List.mem_filter.mp hb).2
  simp only [decide_eq_true_eq] at ha hb
  exact Prod.ext (ha.trans hb.symm) hid

/-- The publish rows of a run are its items, each with its media row and its evidence. -/
theorem mem_ownMediaPublishRows {row : OwnMediaPublishRow}
    (h : row ∈ ownMediaPublishRows runId db) :
    ∃ i ∈ stagedItems runId db, ∃ m ∈ db.media, m.providerMediaId = some i.providerMediaId ∧
      row.mediaId = m.mediaId ∧ row.content = i.content := by
  obtain ⟨i, hi, h⟩ := List.mem_filterMap.mp h
  obtain ⟨m, hm, h⟩ := Option.bind_eq_some_iff.mp h
  obtain ⟨raw, -, h⟩ := Option.bind_eq_some_iff.mp h
  obtain ⟨hmem, hid⟩ := mediaByProvider_eq_some hm
  cases h
  exact ⟨i, hi, m, hmem, hid, rfl, rfl⟩

theorem exists_publishRow (hu : UniqueProviders db) {i : SyncItem} (hi : i ∈ stagedItems runId db)
    {m : Media} (hm : m ∈ db.media) (hid : m.providerMediaId = some i.providerMediaId)
    (hraw : (db.rawRecords.lookup i.rawRecordId).isSome) :
    ∃ row ∈ ownMediaPublishRows runId db, row.mediaId = m.mediaId ∧ row.content = i.content := by
  obtain ⟨raw, hraw⟩ := Option.isSome_iff_exists.mp hraw
  refine ⟨⟨m.mediaId, i.content, raw.blobRef, raw.byteSize⟩, ?_, rfl, rfl⟩
  refine List.mem_filterMap.mpr ⟨i, hi, ?_⟩
  simp [hu.lookup hm hid, hraw]

theorem ownMediaPublishRows_nodup :
    ((ownMediaPublishRows runId db).map OwnMediaPublishRow.mediaId).Nodup := by
  have hitems : ((stagedItems runId db).map SyncItem.providerMediaId).Nodup := stagedItems_nodup
  rw [List.Nodup, List.pairwise_map] at hitems ⊢
  refine List.Pairwise.filterMap _ ?_ hitems
  intro a b hne row hrow row' hrow' hid
  obtain ⟨m, hm, h⟩ := Option.bind_eq_some_iff.mp hrow
  obtain ⟨raw, -, h⟩ := Option.bind_eq_some_iff.mp h
  obtain ⟨m', hm', h'⟩ := Option.bind_eq_some_iff.mp hrow'
  obtain ⟨raw', -, h'⟩ := Option.bind_eq_some_iff.mp h'
  cases h
  cases h'
  obtain ⟨hm, hp⟩ := mediaByProvider_eq_some hm
  obtain ⟨hm', hp'⟩ := mediaByProvider_eq_some hm'
  rw [Table.eq_of_key_eq hm hm' hid] at hp
  exact hne (Option.some.inj (hp.symm.trans hp'))

/-- **A completion publishes what it stores** when no item returns to replaced content. -/
theorem finalizeRun_publishes {config : OwnMediaSyncConfig} {ctx : SyncContext}
    {candidate : Option String} {now : Instant} (hu : UniqueProviders db)
    (hraws : ∀ i ∈ db.syncItems, (db.rawRecords.lookup i.rawRecordId).isSome)
    (hfresh : FreshIds env db) (hreturn : NeverReturns lib runId db)
    (h : (finalizeRun lib config ctx runId candidate now).Yields env db true db') :
    UniqueProviders db' ∧ RunPublished lib runId db' := by
  rcases finalizeRun_yields h with ⟨hfalse, -, -⟩ |
    ⟨-, -, applied, published, n, happly, hpublish, rfl⟩
  · cases hfalse
  have hclaimed := applyStagedItems_claimed hu stagedItems_nodup happly
  obtain ⟨media, revisions, rfl⟩ := applyStagedItems_onlyMedia _ _ _ _ _ _ _ happly
  have hkeep : ∀ row ∈ ownMediaPublishRows runId { db with media, mediaRevisions := revisions },
      ∀ digest, lib.digestOwnMedia row.content = some digest →
        digest.hex ∈ publishedDigests row.mediaId db →
          (publishedDigests row.mediaId db).getLast? = some digest.hex := by
    intro row hrow digest hdigest hold
    obtain ⟨i, hi, m, hm, hp, hid, hc⟩ := mem_ownMediaPublishRows hrow
    rw [hc] at hdigest
    rw [hid] at hold ⊢
    -- a row that was there keeps its history, a new one has none
    rcases hclaimed.origin m hm with ⟨m0, hm0, hid0, hp0⟩ | ⟨⟨n, hn⟩, -⟩
    · rw [← hid0] at hold ⊢
      have hi : i ∈ runItems runId db := mem_runItems.mpr (mem_stagedItems.mp hi)
      exact hreturn i hi m0 (hu.lookup hm0 (hp0.trans hp)) digest hdigest hold
    · obtain ⟨e, he, -⟩ := mem_publishedDigests.mp hold
      obtain ⟨he, hagg⟩ := List.mem_filter.mp he
      simp only [Bool.and_eq_true, decide_eq_true_eq] at hagg
      exact ((hfresh.events n e he).2 (hagg.2.trans hn)).elim
  obtain ⟨rows, m1, hquery, heach⟩ := hpublish.bind
  obtain ⟨rfl, rfl⟩ := hquery.query
  obtain ⟨k, k', heach⟩ := heach.commits
  obtain ⟨hcurrent, -⟩ := appendEachOwnMediaFact_current hfresh.injective ownMediaPublishRows_nodup
    hkeep (fun n _ e he => (hfresh.events n e he).1) heach
  obtain ⟨outbox, rfl⟩ := appendOwnMediaFacts_onlyOutbox _ _ _ _ _ _ _ _ hpublish
  refine ⟨hclaimed.unique, fun i hi => ?_⟩
  have hi : i ∈ db.syncItems ∧ i.runId = runId := mem_runItems.mp hi
  obtain ⟨m, hm, hcontent⟩ := hclaimed.stored i (mem_stagedItems.mpr hi)
  obtain ⟨row, hrow, hid, hrowc⟩ := exists_publishRow hclaimed.unique
    (mem_stagedItems.mpr hi : i ∈ stagedItems runId _) hm (content?_providerMediaId hcontent)
    (hraws i hi.1)
  obtain ⟨digest, hdigest, hlast⟩ := hcurrent row hrow
  rw [hrowc] at hdigest
  rw [hid] at hlast
  refine ⟨m, hclaimed.unique.lookup hm (content?_providerMediaId hcontent), hcontent, ?_⟩
  exact ⟨i.content, hcontent, digest, hdigest, hlast⟩

end Completion

/-! ## Runs -/

/-- The constraints of the schema that the official lane relies on. -/
structure OfficialConstraints (db : Db) : Prop where
  providers : UniqueProviders db
  evidence : ∀ i ∈ db.syncItems, (db.rawRecords.lookup i.rawRecordId).isSome

/-- What an outbox row states, its delivery aside. -/
def OutboxEvent.fact (e : OutboxEvent) : Uuid × AggregateType × Uuid × EventPayload :=
  (e.eventId, e.aggregateType, e.aggregateId, e.payload.payload)

/-- The official lane of the account alone writes media rows and their facts: minted
identifiers are new, evidence in use stays, and the rest of the service delivers facts and
writes other tables. -/
def OfficialAlone (s : SyncSystem) : SyncAction → Prop
  | .advance env _ => FreshIds env s.db
  | .others tables =>
    tables.media = s.db.media ∧ (∀ raw ∈ s.db.rawRecords, raw ∈ tables.rawRecords) ∧
      tables.outboxEvents.rows.map OutboxEvent.fact = s.db.outboxEvents.rows.map OutboxEvent.fact
  | _ => True

section Runs

variable (lib : Externals) (keys : CredentialKeyring) (accountId : Uuid)

/-- The run a step completes. -/
def completedRun (s : SyncSystem) (a : SyncAction) : Option Uuid :=
  match (syncStep lib keys accountId s a).history.drop s.history.length with
  | [.completed runId _] => some runId
  | _ => none

/-- A step that completes a run finds no item of it returning to replaced content. -/
def Unreturned (s : SyncSystem) (a : SyncAction) : Prop :=
  ∀ runId ∈ completedRun lib keys accountId s a, NeverReturns lib runId s.db

instance (s : SyncSystem) (a : SyncAction) : Decidable (Unreturned lib keys accountId s a) :=
  inferInstanceAs
    (Decidable (∀ runId ∈ completedRun lib keys accountId s a, NeverReturns lib runId s.db))

end Runs

theorem publishedDigests_of_facts {db db' : Db} (mediaId : Uuid)
    (h : db'.outboxEvents.rows.map OutboxEvent.fact = db.outboxEvents.rows.map OutboxEvent.fact) :
    publishedDigests mediaId db' = publishedDigests mediaId db := by
  have hfacts : ∀ rows : List OutboxEvent,
      (rows.filter fun e => e.aggregateType = .media && e.aggregateId = mediaId).filterMap
          (fun e => e.payload.payload.digestHex?) =
        ((rows.map OutboxEvent.fact).filter fun f => f.2.1 = .media && f.2.2.1 = mediaId).filterMap
          fun f => f.2.2.2.digestHex? := by
    intro rows
    rw [List.filter_map, List.filterMap_map]
    rfl
  simp only [publishedDigests, mediaEvents]
  rw [hfacts, hfacts, h]

/-- What is published is decided by the media rows and the facts. -/
theorem RunPublished.of_same {lib : Externals} {runId : Uuid} {db db' : Db}
    (h : RunPublished lib runId db) (hitems : runItems runId db' = runItems runId db)
    (hmedia : db'.media = db.media)
    (hfacts : db'.outboxEvents.rows.map OutboxEvent.fact =
      db.outboxEvents.rows.map OutboxEvent.fact) : RunPublished lib runId db' := by
  intro i hi
  rw [hitems] at hi
  obtain ⟨m, hm, hcontent, content, hc, digest, hd, hlast⟩ := h i hi
  refine ⟨m, ?_, hcontent, content, hc, digest, hd, ?_⟩
  · rw [mediaByProvider, hmedia]
    exact hm
  · rw [publishedDigests_of_facts m.mediaId hfacts]
    exact hlast

theorem PublishedAsStored.of_sameView {lib : Externals} {accountId : Uuid} {db db' : Db}
    (h : PublishedAsStored lib accountId db) (hview : SameView accountId db db')
    (hmedia : db'.media = db.media)
    (hfacts : db'.outboxEvents.rows.map OutboxEvent.fact =
      db.outboxEvents.rows.map OutboxEvent.fact) : PublishedAsStored lib accountId db' := by
  intro runId hauth
  obtain ⟨-, hsame, hvisible⟩ := hview
  have hauth' : syncAuthority accountId db = some runId := hsame.symm.trans hauth
  refine (h runId hauth').of_same ?_ hmedia hfacts
  simpa only [visibleItems, hauth', Option.mem_def.mp hauth] using hvisible

section Steps

variable {lib : Externals} {keys : CredentialKeyring} {accountId : Uuid} {who : PassAccount}
  {run : Option Uuid} {env : Env} {db db' : Db} {event : Option SyncEvent}

/-- The staged items keep their evidence when records are only added. -/
theorem evidence_mono (h : ∀ i ∈ db.syncItems, (db.rawRecords.lookup i.rawRecordId).isSome)
    (hraws : ∀ raw ∈ db.rawRecords, raw ∈ db'.rawRecords) {i : SyncItem} (hi : i ∈ db.syncItems) :
    (db'.rawRecords.lookup i.rawRecordId).isSome := by
  obtain ⟨raw, hraw⟩ := Option.isSome_iff_exists.mp (h i hi)
  obtain ⟨hmem, hid⟩ := Table.lookup_eq_some.mp hraw
  rw [Table.lookup_eq_some.mpr ⟨hraws raw hmem, hid⟩]
  rfl

/-- A transaction that does not complete a run leaves media rows and facts alone. -/
theorem SyncWrite.unpublished (h : SyncWrite lib who run env db event db')
    (hc : OfficialConstraints db) (hevent : event.any SyncEvent.swaps = false) :
    OfficialConstraints db' ∧ db'.media = db.media ∧ db'.outboxEvents = db.outboxEvents := by
  cases h with
  | usage h =>
    obtain ⟨t, rfl⟩ := h
    exact ⟨⟨hc.providers, hc.evidence⟩, rfl, rfl⟩
  | noop howner h =>
    obtain ⟨row, due, t, -, -, -, -, -, rfl⟩ := recordNoop_yields h
    exact ⟨⟨hc.providers, hc.evidence⟩, rfl, rfl⟩
  | opened h =>
    obtain ⟨t, items, -, hitems, -, -, rfl⟩ := openRun_yields h
    refine ⟨⟨hc.providers, fun i hi => ?_⟩, rfl, rfl⟩
    change i ∈ items.rows at hi
    rw [hitems, List.mem_append, List.mem_map] at hi
    rcases hi with hi | ⟨j, hj, rfl⟩
    · exact hc.evidence i hi
    · obtain ⟨_, -, hj, -⟩ := mem_visibleItems.mp hj
      exact hc.evidence j hj
  | resumed => exact ⟨⟨hc.providers, hc.evidence⟩, rfl, rfl⟩
  | suspended => exact ⟨⟨hc.providers, hc.evidence⟩, rfl, rfl⟩
  | refused hrun hretry =>
    simp only [markProviderFailure, hretry]
    exact ⟨⟨hc.providers, hc.evidence⟩, rfl, rfl⟩
  | accepted hrun h =>
    obtain ⟨rawRecordId, raws, hraws, -, rfl⟩ := persistPage_yields h
    refine ⟨⟨hc.providers, fun i hi => ?_⟩, rfl, rfl⟩
    have hmem : ∀ raw, raw ∈ raws ↔ raw ∈ db.rawRecords ∨ raw = _ := fun raw => by
      rw [Table.mem_rows, hraws, List.mem_append, List.mem_singleton, Table.mem_rows]
    rcases mem_stagedOnto hi with hi | ⟨item, -, rfl⟩
    · exact evidence_mono hc.evidence (fun raw hraw => (hmem raw).mpr (Or.inl hraw)) hi
    · have hnew := Table.lookup_mem ((hmem _).mpr (Or.inr rfl))
      exact Option.isSome_iff_exists.mpr ⟨_, hnew⟩
  | @finalized config generationId runId candidate now completed db' hrun h =>
    cases completed with
    | true => cases hevent
    | false =>
      rcases finalizeRun_yields h with ⟨-, -, rfl⟩ | ⟨hfalse, -⟩
      · exact ⟨⟨hc.providers, hc.evidence⟩, rfl, rfl⟩
      · cases hfalse

/-- A transaction that completes a run. -/
theorem SyncWrite.completed {runId : Uuid} {watermark : Option String}
    (h : SyncWrite lib who run env db (some (.completed runId watermark)) db')
    (hc : OfficialConstraints db) (hfresh : FreshIds env db) (hreturn : NeverReturns lib runId db) :
    OfficialConstraints db' ∧ RunPublished lib runId db' := by
  generalize hevent : some (SyncEvent.completed runId watermark) = event at h
  cases h with
  | @finalized config generationId id candidate now completed db' hrun h =>
    cases completed with
    | false => cases hevent
    | true =>
      cases hevent
      obtain ⟨hproviders, hpublished⟩ := finalizeRun_publishes hc.providers hc.evidence hfresh
        hreturn h
      refine ⟨⟨hproviders, ?_⟩, hpublished⟩
      rcases finalizeRun_yields h with ⟨hfalse, -, -⟩ | ⟨-, -, applied, published, n, ha, hp, rfl⟩
      · cases hfalse
      · obtain ⟨media, revisions, rfl⟩ := applyStagedItems_onlyMedia _ _ _ _ _ _ _ ha
        obtain ⟨outbox, rfl⟩ := appendOwnMediaFacts_onlyOutbox _ _ _ _ _ _ _ _ hp
        exact hc.evidence
  | _ => cases hevent

/-- What every state of a run meets. -/
structure SyncSystem.Publishing (lib : Externals) (who : PassAccount) (s : SyncSystem) : Prop where
  sound : s.Sound (fun _ _ => True) who.accountId who.provider
  account : ∀ a ∈ s.db.accounts, a.accountId = who.accountId →
    a.userRef = who.owner ∧ a.providerAccountId = who.provider
  pass : ∀ script, s.pass = some script → ∃ run, who.Holds run s.db ∧ Grounds lib who run script
  constraints : OfficialConstraints s.db
  published : PublishedAsStored lib who.accountId s.db

variable {s : SyncSystem}

theorem PassAccount.Holds.frame (h : who.Holds run db) (hsame : SameOwnMedia db db')
    (haccounts : ∀ a ∈ db'.accounts, a.accountId = who.accountId →
      a.userRef = who.owner ∧ a.providerAccountId = who.provider) : who.Holds run db' := by
  refine ⟨haccounts, ?_⟩
  rw [hsame.runs]
  exact h.run

/-- A write outside the own-media tables that keeps accounts, media rows and facts. -/
theorem SyncSystem.Publishing.outside (h : s.Publishing lib who) (hsame : SameOwnMedia s.db db')
    (haccounts : ∀ a ∈ db'.accounts, a.accountId = who.accountId →
      a.userRef = who.owner ∧ a.providerAccountId = who.provider)
    (hmedia : db'.media = s.db.media) (hraws : ∀ raw ∈ s.db.rawRecords, raw ∈ db'.rawRecords)
    (hfacts : db'.outboxEvents.rows.map OutboxEvent.fact =
      s.db.outboxEvents.rows.map OutboxEvent.fact) :
    SyncSystem.Publishing lib who { s with db := db' } := by
  refine ⟨h.sound.outside hsame, haccounts, fun script hs => ?_, ⟨?_, fun i hi => ?_⟩, ?_⟩
  · obtain ⟨run, hholds, hground⟩ := h.pass script hs
    exact ⟨run, hholds.frame hsame haccounts, hground⟩
  · change UniqueProviders db'
    unfold UniqueProviders
    rw [hmedia]
    exact h.constraints.providers
  · change i ∈ db'.syncItems at hi
    rw [hsame.items] at hi
    exact evidence_mono h.constraints.evidence hraws hi
  · exact h.published.of_sameView (hsame.sameView who.accountId) hmedia hfacts

theorem completedRun_advance {keys : CredentialKeyring} {script : SyncScript OwnMediaSyncOutcome}
    (hs : s.pass = some script) {answer : OwnMediaAnswer} {runId : Uuid} {watermark : Option String}
    (hevent : (script.advance env answer s.db).2.2 = some (.completed runId watermark)) :
    completedRun lib keys accountId s (.advance env answer) = some runId := by
  simp [completedRun, syncStep, hs, hevent]

/-- **One step** publishes what it stores, unless it completes a run with returning content. -/
theorem SyncSystem.Publishing.step (h : s.Publishing lib who) (keys : CredentialKeyring)
    (a : SyncAction) (hlane : OfficialAlone s a)
    (hreturn : Unreturned lib keys who.accountId s a) :
    (syncStep lib keys who.accountId s a).Publishing lib who := by
  have hanswered : s.Answered (fun _ _ => True) a := by
    cases a with
    | advance => exact fun _ _ => trivial
    | _ => trivial
  obtain ⟨event, hhistory, hmoves, hsound⟩ := h.sound.step lib keys a hanswered
  cases a with
  | begin config now =>
    simp only [syncStep] at hsound ⊢
    split at hsound <;> rename_i hbusy
    · rw [if_pos hbusy]
      exact h
    · rw [if_neg hbusy]
      refine ⟨hsound, h.account, fun script hs => ?_, h.constraints, h.published⟩
      cases hs
      exact ⟨none, ⟨h.account, fun id hid => (by cases hid)⟩, runAccountOnce_grounded keys config now who none⟩
  | crash => exact ⟨hsound, h.account, fun script hs => (by cases hs), h.constraints, h.published⟩
  | connection status =>
    refine h.outside (.withConnection status) (fun a ha hid => ?_) rfl (fun _ hraw => hraw) rfl
    obtain ⟨b, hb, rfl⟩ := Table.exists_of_mem_update ha
    split at hid <;> split <;> exact h.account b hb hid
  | others tables =>
    obtain ⟨hmedia, hraws, hfacts⟩ := hlane
    exact h.outside (.of_eq rfl rfl rfl rfl rfl) h.account hmedia hraws hfacts
  | advance env answer =>
    cases hs : s.pass with
    | none => simpa [syncStep, hs] using h
    | some script =>
      obtain ⟨run, hholds, hground⟩ := h.pass script hs
      obtain ⟨hwrite, run', hholds', hground'⟩ := hground.advance hholds env answer
      have hevent : (script.advance env answer s.db).2.2 = event := by
        simp only [syncStep, hs, List.append_cancel_left_eq] at hhistory
        generalize (script.advance env answer s.db).2.2 = left at hhistory
        cases left <;> cases event <;> simp_all
      have hdb : OfficialConstraints (script.advance env answer s.db).2.1 ∧
          PublishedAsStored lib who.accountId (script.advance env answer s.db).2.1 := by
        simp only [syncStep, hs] at hmoves
        cases hswap : event.any SyncEvent.swaps with
        | false =>
          have hview : SameView who.accountId s.db _ := hmoves.keeps hswap
          rcases hwrite with hsame | hwrite
          · rw [hsame]
            exact ⟨h.constraints, h.published⟩
          · rw [hevent] at hwrite
            obtain ⟨hc, hmedia, houtbox⟩ := hwrite.unpublished h.constraints hswap
            exact ⟨hc, h.published.of_sameView hview hmedia (by rw [houtbox])⟩
        | true =>
          obtain ⟨e, rfl, he⟩ : ∃ e, event = some e ∧ e.swaps = true := by
            simpa [Option.any_eq_true] using hswap
          cases e with
          | completed runId watermark =>
            rcases hwrite with hsame | hwrite
            · rw [hsame] at hevent
              cases hevent
            · rw [hevent] at hwrite
              have hrun := hreturn runId (completedRun_advance hs hevent)
              obtain ⟨hc, hpublished⟩ := hwrite.completed h.constraints hlane hrun
              refine ⟨hc, fun id hauth => ?_⟩
              have hauthority := hmoves.represents.authority
              rw [Option.mem_def.mp hauth] at hauthority
              cases hauthority
              exact hpublished
          | _ => cases he
      simp only [syncStep, hs] at hsound ⊢
      refine ⟨hsound, hholds'.account, fun next hnext => ?_, hdb.1, hdb.2⟩
      cases hnext
      exact ⟨run', hholds', hground'⟩

/-- **What is published is what is stored**, in every run of the official lane in which no
completion finds an item returning to content that was published before and replaced since. -/
theorem own_media_published_as_stored (lib : Externals) (keys : CredentialKeyring)
    {accountId : Uuid} {db : Db} (h : Untouched accountId db) (hc : OfficialConstraints db)
    {actions : List SyncAction}
    (hlane : Guarded (syncStep lib keys accountId) OfficialAlone (SyncSystem.start db) actions)
    (hreturn : Guarded (syncStep lib keys accountId) (Unreturned lib keys accountId)
      (SyncSystem.start db) actions) :
    PublishedAsStored lib accountId
      (Relational.run (syncStep lib keys accountId) (SyncSystem.start db) actions).db := by
  obtain ⟨owner, provider, haccount⟩ : ∃ owner provider, ∀ a ∈ db.accounts, a.accountId = accountId →
      a.userRef = owner ∧ a.providerAccountId = provider := by
    cases haccount : db.accounts.lookup accountId with
    | none => exact ⟨0, "", fun a ha hid => (Table.lookup_eq_none.mp haccount a ha hid).elim⟩
    | some account =>
      obtain ⟨hmem, hid⟩ := Table.lookup_eq_some.mp haccount
      refine ⟨account.userRef, account.providerAccountId, fun a ha haid => ?_⟩
      rw [Table.eq_of_key_eq ha hmem (haid.trans hid.symm)]
      exact ⟨rfl, rfl⟩
  have hstart : (SyncSystem.start db).Publishing lib ⟨accountId, owner, provider⟩ :=
    ⟨h.sound fun a ha hid => (haccount a ha hid).2, haccount, nofun, hc, by
      intro runId hauth
      simp [syncAuthority, SyncSystem.start, h.authority] at hauth⟩
  have hrun := run_invariant (syncStep lib keys accountId)
    (fun s a => OfficialAlone s a ∧ Unreturned lib keys accountId s a)
    (SyncSystem.Publishing lib ⟨accountId, owner, provider⟩)
    (fun s a ha hs => hs.step keys a ha.1 ha.2) (Guarded.and _ hlane hreturn) hstart
  exact hrun.published

end Steps

/-! ### Captions that change and return -/

/-- A synchronization of one post with a caption. -/
def captionSync (first : Uuid) (caption : String) : List SyncAction :=
  onePass (pageByPage 1) first (.ok
    { items := [ownItem "a" "https://www.instagram.com/p/a/" (some caption)]
      nextCursor := none
      rawBody := "[]" })

/-- The environment counts identifiers up from above those of the outbox. -/
def CountsAbove (s : SyncSystem) : SyncAction → Prop
  | .advance env _ =>
    ∀ e ∈ s.db.outboxEvents.rows, e.eventId < env.uuid 0 ∧ e.aggregateId < env.uuid 0
  | _ => True

instance (s : SyncSystem) : (a : SyncAction) → Decidable (CountsAbove s a)
  | .advance env _ =>
    inferInstanceAs (Decidable
      (∀ e ∈ s.db.outboxEvents.rows, e.eventId < env.uuid 0 ∧ e.aggregateId < env.uuid 0))
  | .begin _ _ | .crash | .connection _ | .others _ => instDecidableTrue

/-- The action begins a pass or advances it under a counting environment. -/
def SyncAction.Counting : SyncAction → Prop
  | .advance env _ => ∀ n, env.uuid n = env.uuid 0 + n
  | .others _ => False
  | _ => True

theorem captionSync_counting (first : Uuid) (caption : String) :
    ∀ a ∈ captionSync first caption, a.Counting := by
  intro a ha
  simp only [captionSync, onePass, List.mem_cons, List.mem_map] at ha
  rcases ha with rfl | ⟨k, -, rfl⟩
  · trivial
  · intro n
    rfl

theorem officialAlone_of_counting {s : SyncSystem} {a : SyncAction} (hc : a.Counting)
    (habove : CountsAbove s a) : OfficialAlone s a := by
  cases a with
  | advance env answer =>
    refine ⟨fun i j hij => ?_, fun n e he => ?_⟩
    · rw [hc i, hc j] at hij
      exact Nat.add_left_cancel hij
    · obtain ⟨hevent, haggregate⟩ := habove e he
      rw [hc n]
      exact ⟨Nat.ne_of_lt (Nat.lt_add_right n hevent), Nat.ne_of_lt (Nat.lt_add_right n haggregate)⟩
  | others tables => exact hc.elim
  | _ => trivial

theorem connectedDb_constraints : OfficialConstraints connectedDb where
  providers m hm := absurd hm (Table.not_mem_empty m)
  evidence i hi := absurd hi (Table.not_mem_empty i)

/-- The states of a run whose captions change. -/
def captionRun (actions : List SyncAction) : SyncSystem :=
  run (syncStep reference plainKeys 1) (SyncSystem.start connectedDb) actions

theorem captions_official {actions : List SyncAction} (hc : ∀ a ∈ actions, a.Counting)
    (habove : Guarded (syncStep reference plainKeys 1) CountsAbove (SyncSystem.start connectedDb)
      actions) :
    Guarded (syncStep reference plainKeys 1) OfficialAlone (SyncSystem.start connectedDb)
      actions :=
  Guarded.mono _ (fun _ _ h => officialAlone_of_counting h.1 h.2)
    (Guarded.and _ (guarded_of_forall _ hc) habove)

theorem own_media_published_after_change :
    PublishedAsStored reference 1 (captionRun (captionSync 100 "x" ++ captionSync 1000 "y")).db :=
  own_media_published_as_stored reference plainKeys connectedDb_untouched connectedDb_constraints
    (captions_official (fun a ha => (List.mem_append.mp ha).elim (captionSync_counting _ _ a)
      (captionSync_counting _ _ a)) (by decide +kernel)) (by decide +kernel)

/-- The caption returns: the third synchronization stores `x` again, and the latest fact
still carries the digest of `y`. -/
theorem own_media_return_unpublished :
    Guarded (syncStep reference plainKeys 1) OfficialAlone (SyncSystem.start connectedDb)
        (captionSync 100 "x" ++ captionSync 1000 "y" ++ captionSync 2000 "x") ∧
      ¬ PublishedAsStored reference 1
        (captionRun (captionSync 100 "x" ++ captionSync 1000 "y" ++ captionSync 2000 "x")).db := by
  refine ⟨captions_official (fun a ha => ?_) (by decide +kernel), by decide +kernel⟩
  simp only [List.mem_append, or_assoc] at ha
  rcases ha with ha | ha | ha <;> exact captionSync_counting _ _ a ha

end InstagramArchive

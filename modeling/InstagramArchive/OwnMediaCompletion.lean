import InstagramArchive.OwnMediaWrites
import InstagramArchive.Relational.Commit

/-!
# What a completion writes

A completion finds or inserts the media row of every staged item in the order of their
provider identities, rewrites it and appends a revision. `ClaimedBy` describes the media
table after one item, and `ClaimedAll` after all of them.
-/

namespace InstagramArchive

open Relational Relational.Tx

/-- `media_provider_media_id_key`. -/
def UniqueProviders (db : Db) : Prop :=
  ∀ m ∈ db.media, ∀ m' ∈ db.media, m.providerMediaId.isSome → m.providerMediaId = m'.providerMediaId →
    m = m'

/-- The stored columns a content digest is taken over. -/
def Media.content? (m : Media) : Option OwnMediaContent := do
  let providerMediaId ← m.providerMediaId
  let publishedAt ← m.publishedAt
  return { providerMediaId, permalink := m.permalink, caption := m.caption, publishedAt }

/-- The media row a completion leaves for an item. -/
def officialRow (accountId : Uuid) (now : Instant) (item : SyncItem) (revisionId : Uuid)
    (base : Media) : Media :=
  { claimOfficialMedia accountId item now base with currentRevisionId := some revisionId }

section Providers

variable {db : Db} {id : String}

theorem mediaByProvider_eq_some {m : Media} (h : mediaByProvider id db = some m) :
    m ∈ db.media ∧ m.providerMediaId = some id :=
  ⟨List.mem_of_find?_eq_some h, by simpa using List.find?_some h⟩

theorem mediaByProvider_eq_none :
    mediaByProvider id db = none ↔ ∀ m ∈ db.media, m.providerMediaId ≠ some id := by
  simp [mediaByProvider, List.find?_eq_none, Table.mem_rows]

theorem UniqueProviders.lookup (h : UniqueProviders db) {m : Media} (hm : m ∈ db.media)
    (hid : m.providerMediaId = some id) : mediaByProvider id db = some m := by
  cases hfind : mediaByProvider id db with
  | none => exact (mediaByProvider_eq_none.mp hfind m hm hid).elim
  | some m' =>
    obtain ⟨hm', hid'⟩ := mediaByProvider_eq_some hfind
    rw [h m' hm' m hm (by simp [hid']) (hid'.trans hid.symm)]

end Providers

/-! ## One item -/

/-- The media table after one item was applied to the row `base`. -/
structure ClaimedBy (env : Env) (accountId : Uuid) (now : Instant) (item : SyncItem) (base : Media)
    (revisionId : Uuid) (db db' : Db) : Prop where
  provider : base.providerMediaId = some item.providerMediaId
  /-- The row was there, or no row had the identity and its own is drawn from the environment. -/
  target : base ∈ db.media ∨
    (mediaByProvider item.providerMediaId db = none ∧ (∀ m ∈ db.media, m.mediaId ≠ base.mediaId) ∧
      ∃ n, base.mediaId = env.uuid n)
  permalink : ∀ m ∈ db.media, m.permalink = item.permalink → m.mediaId = base.mediaId
  media : ∀ m, m ∈ db'.media ↔
    (m ∈ db.media ∧ m.mediaId ≠ base.mediaId) ∨ m = officialRow accountId now item revisionId base
  revisions : db'.mediaRevisions.rows = db.mediaRevisions.rows ++
    [{ revisionId, mediaId := base.mediaId, rawRecordId := item.rawRecordId,
       parserVersion := ownMediaParserVersion, resolvedAt := now }]
  others : OnlyMedia db db'

section Item

variable {env : Env} {accountId : Uuid} {now : Instant} {item : SyncItem} {db db' : Db}

theorem permalinkTaken_eq_false {mediaId : Uuid} {permalink : String} :
    permalinkTaken mediaId permalink db = false ↔
      ∀ m ∈ db.media, m.permalink = permalink → m.mediaId = mediaId := by
  simp [permalinkTaken, Table.mem_rows, -Bool.not_eq_true]

/-- The row an item is written to, found or inserted. -/
theorem officialMediaId_yields {mediaId : Uuid}
    (h : (officialMediaId accountId item).Yields env db mediaId db') :
    (∃ m ∈ db.media, m.providerMediaId = some item.providerMediaId ∧ m.mediaId = mediaId ∧
        db' = db) ∨
      ∃ createdAt media, mediaByProvider item.providerMediaId db = none ∧
        (∀ m ∈ db.media, m.mediaId ≠ mediaId) ∧ (∃ n, mediaId = env.uuid n) ∧
        media.rows = db.media.rows ++ [newOfficialMedia accountId mediaId item createdAt] ∧
        permalinkTaken mediaId item.permalink db = false ∧
        db' = { db with media := media } := by
  obtain ⟨found, _, h1, h⟩ := h.bind
  obtain ⟨rfl, rfl⟩ := h1.query
  cases hfind : mediaByProvider item.providerMediaId db with
  | some m =>
    rw [hfind] at h
    obtain ⟨rfl, rfl⟩ := yields_pure.mp h
    obtain ⟨hm, hid⟩ := mediaByProvider_eq_some hfind
    exact Or.inl ⟨m, hm, hid, rfl, rfl⟩
  | none =>
    rw [hfind] at h
    obtain ⟨id, _, h1, h⟩ := h.bind
    obtain ⟨hdrawn, rfl⟩ := h1.drawn
    obtain ⟨createdAt, _, h1, h⟩ := h.bind
    obtain ⟨-, rfl⟩ := h1.now
    obtain ⟨_, _, h1, h⟩ := h.bind
    obtain ⟨hguard, media, hinsert, rfl⟩ := h1.insertInto
    obtain ⟨rfl, rfl⟩ := yields_pure.mp h
    obtain ⟨hrows, hfresh⟩ := Table.insert?_eq_some hinsert
    refine Or.inr ⟨createdAt, media, rfl, hfresh, hdrawn, hrows, ?_, rfl⟩
    unfold officialMediaGuard at hguard
    split at hguard
    · cases hguard
    · split at hguard
      · cases hguard
      · rename_i htaken
        exact Bool.not_eq_true _ ▸ htaken

/-- Rows other than the written one pass through both updates of an item. -/
theorem mem_claimed {mediaId revisionId : Uuid} {t : Table Media Media.mediaId} {m : Media} :
    m ∈ ((t.update (fun m => m.mediaId = mediaId) (claimOfficialMedia accountId item now)).update
        (fun m => m.mediaId = mediaId) fun m => { m with currentRevisionId := some revisionId }) ↔
      (m ∈ t ∧ m.mediaId ≠ mediaId) ∨
        ∃ base ∈ t, base.mediaId = mediaId ∧ m = officialRow accountId now item revisionId base := by
  have hclaim : ∀ x, x ∈ t.update (fun m => m.mediaId = mediaId)
      (claimOfficialMedia accountId item now) ↔ _ := Table.mem_update_iff t _ _ _
  rw [Table.mem_update_iff, hclaim]
  simp only [hclaim, decide_eq_false_iff_not, decide_eq_true_eq]
  constructor
  · rintro (⟨⟨hm, hid⟩ | ⟨base, -, hid, rfl⟩, hne⟩ | ⟨_, ⟨-, hne⟩ | ⟨base, hbase, hid, rfl⟩, hb, rfl⟩)
    · exact Or.inl ⟨hm, hid⟩
    · exact (hne hid).elim
    · exact (hne hb).elim
    · exact Or.inr ⟨base, hbase, hid, rfl⟩
  · rintro (⟨hm, hid⟩ | ⟨base, hbase, hid, rfl⟩)
    · exact Or.inl ⟨Or.inl ⟨hm, hid⟩, hid⟩
    · exact Or.inr ⟨_, Or.inr ⟨base, hbase, hid, rfl⟩, hid, rfl⟩

theorem applyStagedItem_yields {u : Unit}
    (h : (applyStagedItem accountId now item).Yields env db u db') :
    ∃ base revisionId, ClaimedBy env accountId now item base revisionId db db' := by
  obtain ⟨mediaId, db1, hid, h⟩ := h.bind
  obtain ⟨_, db2, hupdate, h⟩ := h.bind
  obtain ⟨hguard, rfl⟩ := hupdate.executeChecked
  obtain ⟨revisionId, _, h1, h⟩ := h.bind
  obtain rfl := h1.nowV7
  obtain ⟨_, _, h1, h⟩ := h.bind
  obtain ⟨-, revisions, hrevisions, rfl⟩ := h1.insertInto
  obtain rfl := h.execute
  obtain ⟨hrevisions, -⟩ := Table.insert?_eq_some hrevisions
  have htaken : permalinkTaken mediaId item.permalink db1 = false := by
    cases ht : permalinkTaken mediaId item.permalink db1 with
    | false => rfl
    | true => simp [ht] at hguard
  rw [permalinkTaken_eq_false] at htaken
  rcases officialMediaId_yields hid with ⟨base, hbase, hprovider, rfl, rfl⟩ |
    ⟨createdAt, media, hnone, hfresh, hdrawn, hrows, -, rfl⟩
  · refine ⟨base, revisionId, hprovider, Or.inl hbase, htaken, fun m => ?_, hrevisions,
      ⟨_, _, rfl⟩⟩
    refine mem_claimed.trans (or_congr_right ⟨?_, fun hm => ⟨base, hbase, rfl, hm⟩⟩)
    rintro ⟨b, hb, hbid, rfl⟩
    rw [Table.eq_of_key_eq hb hbase hbid]
  · have hmem : ∀ m, m ∈ media ↔ m ∈ db.media ∨
        m = newOfficialMedia accountId mediaId item createdAt := by
      intro m
      rw [Table.mem_rows, hrows, List.mem_append, List.mem_singleton, Table.mem_rows]
    refine ⟨newOfficialMedia accountId mediaId item createdAt, revisionId, rfl,
      Or.inr ⟨hnone, hfresh, hdrawn⟩, fun m hm => htaken m ((hmem m).mpr (Or.inl hm)), fun m => ?_,
      hrevisions, ⟨_, _, rfl⟩⟩
    refine mem_claimed.trans ?_
    constructor
    · rintro (⟨hm, hid⟩ | ⟨b, hb, hbid, rfl⟩)
      · rcases (hmem m).mp hm with hm | rfl
        · exact Or.inl ⟨hm, hid⟩
        · exact (hid rfl).elim
      · rcases (hmem b).mp hb with hb | rfl
        · exact (hfresh b hb hbid).elim
        · exact Or.inr rfl
    · rintro (⟨hm, hid⟩ | rfl)
      · exact Or.inl ⟨(hmem m).mpr (Or.inl hm), hid⟩
      · exact Or.inr ⟨_, (hmem _).mpr (Or.inr rfl), rfl, rfl⟩

variable {base : Media} {revisionId : Uuid}

@[simp] theorem officialRow_mediaId :
    (officialRow accountId now item revisionId base).mediaId = base.mediaId := rfl

@[simp] theorem officialRow_providerMediaId :
    (officialRow accountId now item revisionId base).providerMediaId = base.providerMediaId := rfl

theorem ClaimedBy.content (h : ClaimedBy env accountId now item base revisionId db db') :
    (officialRow accountId now item revisionId base).content? = some item.content := by
  simp [Media.content?, h.provider, officialRow, claimOfficialMedia, SyncItem.content]

/-- No other row has the identity of the item. -/
theorem ClaimedBy.provider_ne (h : ClaimedBy env accountId now item base revisionId db db')
    (hu : UniqueProviders db) {m : Media} (hm : m ∈ db.media) (hne : m.mediaId ≠ base.mediaId) :
    m.providerMediaId ≠ some item.providerMediaId := by
  intro hid
  rcases h.target with hbase | ⟨hnone, -, -⟩
  · exact hne (by rw [hu m hm base hbase (by simp [hid]) (hid.trans h.provider.symm)])
  · exact mediaByProvider_eq_none.mp hnone m hm hid

theorem ClaimedBy.unique (h : ClaimedBy env accountId now item base revisionId db db')
    (hu : UniqueProviders db) : UniqueProviders db' := by
  intro m hm m' hm' hsome heq
  rcases (h.media m).mp hm with ⟨hm, hne⟩ | rfl <;> rcases (h.media m').mp hm' with ⟨hm', hne'⟩ | rfl
  · exact hu m hm m' hm' hsome heq
  · exact (h.provider_ne hu hm hne (heq.trans h.provider)).elim
  · exact (h.provider_ne hu hm' hne' (heq.symm.trans h.provider)).elim
  · rfl

theorem ClaimedBy.kept (h : ClaimedBy env accountId now item base revisionId db db') {m : Media}
    (hm : m ∈ db.media) : ∃ m' ∈ db'.media, m'.mediaId = m.mediaId ∧
      m'.providerMediaId = m.providerMediaId := by
  by_cases hid : m.mediaId = base.mediaId
  · refine ⟨_, (h.media _).mpr (Or.inr rfl), hid.symm, ?_⟩
    rcases h.target with hbase | ⟨-, hfresh, -⟩
    · rw [Table.eq_of_key_eq hm hbase hid]
      rfl
    · exact (hfresh m hm hid).elim
  · exact ⟨m, (h.media m).mpr (Or.inl ⟨hm, hid⟩), rfl, rfl⟩

theorem ClaimedBy.origin (h : ClaimedBy env accountId now item base revisionId db db')
    {m : Media} (hm : m ∈ db'.media) :
    (∃ m' ∈ db.media, m'.mediaId = m.mediaId ∧ m'.providerMediaId = m.providerMediaId) ∨
      ((∃ n, m.mediaId = env.uuid n) ∧ ∀ m' ∈ db.media, m'.providerMediaId ≠ m.providerMediaId) := by
  rcases (h.media m).mp hm with ⟨hm, -⟩ | rfl
  · exact Or.inl ⟨m, hm, rfl, rfl⟩
  · rcases h.target with hbase | ⟨hnone, -, hdrawn⟩
    · exact Or.inl ⟨base, hbase, rfl, rfl⟩
    · refine Or.inr ⟨hdrawn, fun m' hm' => ?_⟩
      rw [officialRow_providerMediaId, h.provider]
      exact mediaByProvider_eq_none.mp hnone m' hm'

end Item

/-! ## All items -/

/-- The media table after a completion applied its items. -/
structure ClaimedAll (env : Env) (items : List SyncItem) (db db' : Db) : Prop where
  unique : UniqueProviders db'
  stored : ∀ i ∈ items, ∃ m ∈ db'.media, m.content? = some i.content
  kept : ∀ m ∈ db.media, ∃ m' ∈ db'.media, m'.mediaId = m.mediaId ∧
    m'.providerMediaId = m.providerMediaId
  /-- A row was there before, or it is the first of its provider identity. -/
  origin : ∀ m ∈ db'.media,
    (∃ m' ∈ db.media, m'.mediaId = m.mediaId ∧ m'.providerMediaId = m.providerMediaId) ∨
      ((∃ n, m.mediaId = env.uuid n) ∧ ∀ m' ∈ db.media, m'.providerMediaId ≠ m.providerMediaId)
  others : ∀ m ∈ db.media, (∀ i ∈ items, m.providerMediaId ≠ some i.providerMediaId) →
    m ∈ db'.media

theorem content?_providerMediaId {m : Media} {c : OwnMediaContent} (h : m.content? = some c) :
    m.providerMediaId = some c.providerMediaId := by
  simp only [Media.content?, Option.bind_eq_bind, Option.bind_eq_some_iff, Option.pure_def,
    Option.some.injEq] at h
  obtain ⟨id, hid, _, -, rfl⟩ := h
  exact hid

/-- **Applying the items of a run**, by induction on them: a later item has another identity
and leaves the rows of the earlier ones alone. -/
theorem applyStagedItems_claimed {env : Env} {accountId : Uuid} {now : Instant}
    {items : List SyncItem} {db db' : Db} {u : Unit} (hu : UniqueProviders db)
    (hnodup : (items.map SyncItem.providerMediaId).Nodup)
    (h : (applyStagedItems accountId now items).Yields env db u db') :
    ClaimedAll env items db db' := by
  induction items generalizing db with
  | nil =>
    obtain ⟨-, rfl⟩ := yields_pure.mp h
    exact ⟨hu, by simp, fun m hm => ⟨m, hm, rfl, rfl⟩, fun m hm => Or.inl ⟨m, hm, rfl, rfl⟩,
      fun m hm _ => hm⟩
  | cons item rest ih =>
    obtain ⟨_, mid, h1, h⟩ := h.bind
    obtain ⟨base, revisionId, hitem⟩ := applyStagedItem_yields h1
    obtain ⟨hfirst, hnodup⟩ := List.nodup_cons.mp hnodup
    have hrest := ih (hitem.unique hu) hnodup h
    have hother : ∀ i ∈ rest, i.providerMediaId ≠ item.providerMediaId :=
      fun i hi hid => hfirst (hid ▸ List.mem_map_of_mem hi)
    refine ⟨hrest.unique, ?_, ?_, ?_, ?_⟩
    · intro i hi
      rcases List.mem_cons.mp hi with rfl | hi
      · refine ⟨_, hrest.others _ ((hitem.media _).mpr (Or.inr rfl)) fun j hj => ?_, hitem.content⟩
        rw [officialRow_providerMediaId, hitem.provider]
        exact fun hid => hother j hj (Option.some.inj hid).symm
      · exact hrest.stored i hi
    · intro m hm
      obtain ⟨m1, hm1, hid1, hp1⟩ := hitem.kept hm
      obtain ⟨m2, hm2, hid2, hp2⟩ := hrest.kept m1 hm1
      exact ⟨m2, hm2, hid2.trans hid1, hp2.trans hp1⟩
    · intro m hm
      rcases hrest.origin m hm with ⟨m1, hm1, hid1, hp1⟩ | ⟨hdrawn, hnone⟩
      · rcases hitem.origin hm1 with ⟨m0, hm0, hid0, hp0⟩ | ⟨⟨n, hn⟩, hnone⟩
        · exact Or.inl ⟨m0, hm0, hid0.trans hid1, hp0.trans hp1⟩
        · exact Or.inr ⟨⟨n, hid1.symm.trans hn⟩, hp1 ▸ hnone⟩
      · refine Or.inr ⟨hdrawn, fun m0 hm0 hp0 => ?_⟩
        obtain ⟨m1, hm1, -, hp1⟩ := hitem.kept hm0
        exact hnone m1 hm1 (hp1.trans hp0)
    · intro m hm hne
      refine hrest.others m ((hitem.media m).mpr (Or.inl ⟨hm, fun hid => ?_⟩))
        fun i hi => hne i (List.mem_cons_of_mem item hi)
      rcases hitem.target with hbase | ⟨-, hfresh, -⟩
      · rw [Table.eq_of_key_eq hm hbase hid] at hne
        exact hne item List.mem_cons_self hitem.provider
      · exact hfresh m hm hid

end InstagramArchive

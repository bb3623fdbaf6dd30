import InstagramArchive.OwnMediaPublication

/-!
# When a completion commits

A completion writes its items in the order of their provider identities, and each of them
claims its permalink. `PermalinksClear` is the condition under which none of these writes
meets a media row of another identity: a row that holds an item's permalink belongs to an
item that is written no later. `applyStagedItems_ends` is about these writes, and
`finalizeRun_ends` adds what the publication and the authority need.
-/

namespace InstagramArchive

open Relational Relational.Tx

/-- Every media row with the permalink of an item belongs to an item that comes no later. -/
def PermalinksClear (items : List SyncItem) (db : Db) : Prop :=
  ∀ i ∈ items, ∀ m ∈ db.media.rows, m.permalink = i.permalink →
    ∃ j ∈ items, m.providerMediaId = some j.providerMediaId ∧ j.providerMediaId ≤ i.providerMediaId

instance (items : List SyncItem) (db : Db) : Decidable (PermalinksClear items db) :=
  inferInstanceAs (Decidable (∀ i ∈ items, ∀ m ∈ db.media.rows, m.permalink = i.permalink →
    ∃ j ∈ items, m.providerMediaId = some j.providerMediaId ∧ j.providerMediaId ≤ i.providerMediaId))

/-- The items in the order a completion takes them. -/
def InOrder (items : List SyncItem) : Prop :=
  items.Pairwise fun i j => i.providerMediaId < j.providerMediaId ∧ i.permalink ≠ j.permalink

/-- The identifiers from a count on are new to the media rows, the revisions and the outbox. -/
structure Spare (env : Env) (n : Nat) (db : Db) : Prop where
  media : ∀ k, n ≤ k → ∀ m ∈ db.media, m.mediaId ≠ env.uuid k
  revisions : ∀ k, n ≤ k → ∀ r ∈ db.mediaRevisions, r.revisionId ≠ env.uuid k
  events : ∀ k, n ≤ k → ∀ e ∈ db.outboxEvents, e.eventId ≠ env.uuid k

theorem Spare.mono {env : Env} {n n' : Nat} {db : Db} (h : Spare env n db) (hn : n ≤ n') :
    Spare env n' db :=
  ⟨fun k hk => h.media k (by omega), fun k hk => h.revisions k (by omega),
    fun k hk => h.events k (by omega)⟩

/-- What the application of an item needs besides the media table. -/
structure Applicable (accountId : Uuid) (items : List SyncItem) (db : Db) : Prop where
  account : (db.accounts.lookup accountId).isSome
  raws : ∀ i ∈ items, (db.rawRecords.lookup i.rawRecordId).isSome

theorem Applicable.of_onlyMedia {accountId : Uuid} {items : List SyncItem} {db db' : Db}
    (h : Applicable accountId items db) (hm : OnlyMedia db db') : Applicable accountId items db' := by
  obtain ⟨media, revisions, rfl⟩ := hm
  exact ⟨h.account, h.raws⟩

theorem Applicable.tail {accountId : Uuid} {item : SyncItem} {rest : List SyncItem} {db : Db}
    (h : Applicable accountId (item :: rest) db) : Applicable accountId rest db :=
  ⟨h.account, fun i hi => h.raws i (List.mem_cons_of_mem item hi)⟩

/-! ## One item -/

section Item

variable {env : Env} {accountId : Uuid} {now : Instant} {item : SyncItem} {ses : Session Db}

/-- The statements that follow once the media row of an item is known. -/
def claimRow (accountId : Uuid) (now : Instant) (item : SyncItem) (mediaId : Uuid) :
    SyncTx Unit := do
  updateOfficialMedia accountId mediaId item now
  let revisionId ← nowV7
  let revision : MediaRevision :=
    { revisionId, mediaId, rawRecordId := item.rawRecordId, parserVersion := ownMediaParserVersion,
      resolvedAt := now }
  insertInto "media_revisions_pkey" Db.mediaRevisions (fun db t => { db with mediaRevisions := t })
    (revisionGuard revision) revision
  execute (setCurrentRevision mediaId revisionId)

theorem applyStagedItem_eq :
    applyStagedItem accountId now item =
      (officialMediaId accountId item >>= claimRow accountId now item) := rfl

theorem claimRow_ends (hq : env.Quiet) (hinj : Function.Injective env.uuid) {mediaId : Uuid}
    (happ : Applicable accountId [item] ses.store) (hspare : Spare env ses.tick ses.store)
    (hrow : ∃ m ∈ ses.store.media, m.mediaId = mediaId)
    (hclear : ∀ m ∈ ses.store.media, m.permalink = item.permalink → m.mediaId = mediaId) :
    (claimRow accountId now item mediaId).Ends env ses fun _ ses' =>
      Spare env ses'.tick ses'.store := by
  obtain ⟨row, hrow, rfl⟩ := hrow
  have htaken := permalinkTaken_eq_false.mpr hclear
  have haccount : (ses.store.accounts.lookup accountId).isNone = false := by
    simpa [Option.isNone_iff_eq_none, Option.isSome_iff_ne_none] using happ.account
  refine .bind (.executeChecked hq (by simp [htaken, haccount]) ?_)
  refine .bind (.nowV7 ?_)
  have hfound : ((ses.store.media.update (fun m => m.mediaId = row.mediaId)
      (claimOfficialMedia accountId item now)).lookup row.mediaId).isNone = false := by
    have hlookup := Table.lookup_update ses.store.media (fun m => m.mediaId = row.mediaId)
      (claimOfficialMedia accountId item now) (fun _ => rfl) row.mediaId
    rw [Table.lookup_mem hrow] at hlookup
    rw [hlookup]
    rfl
  have hraw : (ses.store.rawRecords.lookup item.rawRecordId).isNone = false := by
    simpa [Option.isNone_iff_eq_none, Option.isSome_iff_ne_none] using happ.raws item (by simp)
  refine .bind (.insertInto hq (by simp [revisionGuard, hfound, hraw])
    (fun r hr => hspare.revisions (ses.tick + 1) (by omega) r hr) fun revisions hrevisions => ?_)
  refine .execute hq ⟨fun k hk m hm => ?_, fun k hk r hr => ?_,
    fun k hk => hspare.events k (by simp at hk; omega)⟩
  · simp only at hk
    rcases mem_claimed.mp hm with ⟨hm, -⟩ | ⟨base, hbase, -, rfl⟩
    · exact hspare.media k (by omega) m hm
    · exact hspare.media k (by omega) base hbase
  · simp only at hk
    rcases (Table.mem_of_insert? hrevisions r).mp hr with hr | rfl
    · exact hspare.revisions k (by omega) r hr
    · exact fun heq => absurd (hinj heq) (by simp; omega)

/-- **An item is applied** when every row with its permalink has its identity. -/
theorem applyStagedItem_ends (now : Instant) (hq : env.Quiet) (hinj : Function.Injective env.uuid)
    (happ : Applicable accountId [item] ses.store) (hspare : Spare env ses.tick ses.store)
    (hu : UniqueProviders ses.store)
    (hclear : ∀ m ∈ ses.store.media, m.permalink = item.permalink →
      m.providerMediaId = some item.providerMediaId) :
    (applyStagedItem accountId now item).Ends env ses fun _ ses' =>
      Spare env ses'.tick ses'.store := by
  rw [applyStagedItem_eq]
  refine .bind (.bind (.query hq ?_))
  cases hfind : mediaByProvider item.providerMediaId ses.store with
  | some m =>
    obtain ⟨hm, hid⟩ := mediaByProvider_eq_some hfind
    refine .pure (claimRow_ends hq hinj happ (hspare.mono (by simp)) ⟨m, hm, rfl⟩ fun x hx hp => ?_)
    have hx' := hclear x hx hp
    rw [hu x hx m hm (by simp [hx']) (hx'.trans hid.symm)]
  | none =>
    have hnone := mediaByProvider_eq_none.mp hfind
    refine .bind (.nowV7 (.bind (.now ?_)))
    have hnot : permalinkTaken (env.uuid (ses.tick + 1)) item.permalink ses.store = false :=
      permalinkTaken_eq_false.mpr fun m hm hp => (hnone m hm (hclear m hm hp)).elim
    have haccount : (ses.store.accounts.lookup accountId).isNone = false := by
      simpa [Option.isNone_iff_eq_none, Option.isSome_iff_ne_none] using happ.account
    refine .bind (.insertInto hq ?_ (fun m hm => hspare.media (ses.tick + 1) (by omega) m hm)
      fun media hmedia => ?_)
    · simp [officialMediaGuard, newOfficialMedia, hfind, hnot, haccount]
    refine .pure (claimRow_ends hq hinj ⟨happ.account, happ.raws⟩ ?_
      ⟨_, (Table.mem_of_insert? hmedia _).mpr (Or.inr rfl), rfl⟩ fun x hx hp => ?_)
    · refine ⟨fun k hk m hm => ?_, fun k hk => hspare.revisions k (by simp at hk; omega),
        fun k hk => hspare.events k (by simp at hk; omega)⟩
      simp only at hk
      rcases (Table.mem_of_insert? hmedia m).mp hm with hm | rfl
      · exact hspare.media k (by omega) m hm
      · exact fun heq => absurd (hinj heq) (by simp; omega)
    · rcases (Table.mem_of_insert? hmedia x).mp hx with hx | rfl
      · exact (hnone x hx (hclear x hx hp)).elim
      · rfl

end Item

/-! ## All items -/

section Items

variable {env : Env} {accountId : Uuid} {now : Instant} {item : SyncItem} {rest items : List SyncItem}
  {db db' : Db} {ses : Session Db}

theorem InOrder.head_lt (h : InOrder (item :: rest)) {j : SyncItem} (hj : j ∈ rest) :
    item.providerMediaId < j.providerMediaId := ((List.pairwise_cons.mp h).1 j hj).1

/-- The first item meets only its own row. -/
theorem PermalinksClear.head (h : PermalinksClear (item :: rest) db)
    (horder : InOrder (item :: rest)) {m : Media} (hm : m ∈ db.media)
    (hp : m.permalink = item.permalink) : m.providerMediaId = some item.providerMediaId := by
  obtain ⟨j, hj, hid, hle⟩ := h item List.mem_cons_self m hm hp
  rcases List.mem_cons.mp hj with rfl | hj
  · exact hid
  · exact absurd hle (not_le.mpr (horder.head_lt hj))

/-- **The condition passes over the first item**: what it leaves to the others is the
condition in the table that it leaves. -/
theorem PermalinksClear.tail_iff {base : Media} {revisionId : Uuid}
    (hclaim : ClaimedBy env accountId now item base revisionId db db') (hu : UniqueProviders db)
    (horder : InOrder (item :: rest)) :
    PermalinksClear (item :: rest) db ↔
      (∀ m ∈ db.media, m.permalink = item.permalink →
        m.providerMediaId = some item.providerMediaId) ∧ PermalinksClear rest db' := by
  constructor
  · intro h
    refine ⟨fun m hm hp => h.head horder hm hp, fun i hi m hm hp => ?_⟩
    rcases (hclaim.media m).mp hm with ⟨hm, hne⟩ | rfl
    · obtain ⟨j, hj, hid, hle⟩ := h i (List.mem_cons_of_mem item hi) m hm hp
      rcases List.mem_cons.mp hj with rfl | hj
      · exact (hclaim.provider_ne hu hm hne hid).elim
      · exact ⟨j, hj, hid, hle⟩
    · exact (((List.pairwise_cons.mp horder).1 i hi).2 hp).elim
  · rintro ⟨hhead, htail⟩ i hi m hm hp
    rcases List.mem_cons.mp hi with rfl | hi
    · exact ⟨i, List.mem_cons_self, hhead m hm hp, le_rfl⟩
    · by_cases hbase : m.mediaId = base.mediaId
      · rcases hclaim.target with hmem | ⟨-, hfresh, -⟩
        · rw [Table.eq_of_key_eq hm hmem hbase]
          exact ⟨item, List.mem_cons_self, hclaim.provider, (horder.head_lt hi).le⟩
        · exact (hfresh m hm hbase).elim
      · obtain ⟨j, hj, hid, hle⟩ := htail i hi m ((hclaim.media m).mpr (Or.inl ⟨hm, hbase⟩)) hp
        exact ⟨j, List.mem_cons_of_mem item hj, hid, hle⟩

/-- **A completion applies its items** when their permalinks are clear, by induction on them. -/
theorem applyStagedItems_ends (hq : env.Quiet) (hinj : Function.Injective env.uuid)
    (horder : InOrder items) (happ : Applicable accountId items ses.store)
    (hspare : Spare env ses.tick ses.store) (hu : UniqueProviders ses.store)
    (hclear : PermalinksClear items ses.store) :
    (applyStagedItems accountId now items).Ends env ses fun _ ses' =>
      Spare env ses'.tick ses'.store := by
  induction items generalizing ses with
  | nil => exact .pure hspare
  | cons item rest ih =>
    have hone : Applicable accountId [item] ses.store :=
      ⟨happ.account, fun i hi => happ.raws i (by simp at hi; simp [hi])⟩
    obtain ⟨u, mid, hcommit, hspare'⟩ := applyStagedItem_ends now hq hinj hone hspare hu
      fun m hm hp => hclear.head horder hm hp
    obtain ⟨base, revisionId, hclaim⟩ := applyStagedItem_yields hcommit.yields
    refine .bind ⟨u, mid, hcommit, ?_⟩
    exact ih (List.pairwise_cons.mp horder).2 (happ.tail.of_onlyMedia hclaim.others) hspare'
      (hclaim.unique hu) ((PermalinksClear.tail_iff hclaim hu horder).mp hclear).2

end Items

/-! ## The publication -/

/-- The contracts accept every fact of an own-media content. -/
structure Publishable (lib : Externals) (owner : Uuid) (content : OwnMediaContent) : Prop where
  digest : (lib.digestOwnMedia content).isSome
  text : ∀ text, content.caption = some text → text.isEmpty = false → (lib.parsePostText text).isSome
  refusal : ∀ (kind : FactKind) (snapshot : SocialSourceSnapshot), snapshot.owner = owner →
    snapshot.externalPostId = content.providerMediaId →
      snapshot.permalink = some content.permalink → lib.refusal (kind.payload snapshot) = none

section Publication

variable {lib : Externals} {env : Env} {owner : Uuid} {checkpoint : Option String}
  {capturedAt : Instant} {ses : Session Db}

theorem Publishable.ownMediaText {content : OwnMediaContent} (h : Publishable lib owner content)
    (mediaId : Uuid) : ∃ text, ownMediaText lib mediaId content.caption = .ok text := by
  cases hcaption : content.caption with
  | none => exact ⟨none, rfl⟩
  | some text =>
    cases hempty : text.isEmpty with
    | true => exact ⟨none, by simp [InstagramArchive.ownMediaText, hempty]⟩
    | false =>
      obtain ⟨parsed, hparsed⟩ := Option.isSome_iff_exists.mp (h.text text hcaption hempty)
      exact ⟨some parsed, by simp [InstagramArchive.ownMediaText, hempty, hparsed]⟩

theorem appendOwnMediaFact_ends (hq : env.Quiet) (hinj : Function.Injective env.uuid)
    {row : OwnMediaPublishRow} (h : Publishable lib owner row.content)
    (hspare : Spare env ses.tick ses.store) :
    (appendOwnMediaFact lib owner checkpoint capturedAt row).Ends env ses fun _ ses' =>
      Spare env ses'.tick ses'.store := by
  obtain ⟨digest, hdigest⟩ := Option.isSome_iff_exists.mp h.digest
  obtain ⟨text, htext⟩ := h.ownMediaText row.mediaId
  refine .bind (.ofExcept (a := digest) (by simp [ownMediaContentDigest, hdigest]) ?_)
  refine .bind (.query hq ?_)
  split
  · exact .pure (hspare.mono (by simp))
  · refine .bind (.ofExcept (a := text) htext ?_)
    refine .bind (.ofExcept (a := ()) ?_ ?_)
    · unfold accepted
      rw [h.refusal]
      · rfl
      · rfl
      · rfl
    refine .bind (.nowV7 (.insertUnless hq (fun _ => hspare.mono (by simp; omega)) fun _ => ?_))
    refine ⟨rfl, fun e he => hspare.events (ses.tick + 1) (by omega) e he, fun t ht => ?_⟩
    refine ⟨fun k hk => hspare.media k (by simp at hk; omega),
      fun k hk => hspare.revisions k (by simp at hk; omega), fun k hk e he => ?_⟩
    simp only at hk
    rcases (Table.mem_of_insert? ht e).mp he with he | rfl
    · exact hspare.events k (by omega) e he
    · exact fun heq => absurd (hinj heq) (by simp; omega)

/-- The facts of a run are appended, by induction on its rows. -/
theorem appendEachOwnMediaFact_ends (hq : env.Quiet) (hinj : Function.Injective env.uuid)
    {rows : List OwnMediaPublishRow} (h : ∀ row ∈ rows, Publishable lib owner row.content)
    (hspare : Spare env ses.tick ses.store) :
    (appendEachOwnMediaFact lib owner checkpoint capturedAt rows).Ends env ses fun _ _ => True := by
  induction rows generalizing ses with
  | nil => exact .pure trivial
  | cons row rest ih =>
    refine .bind ((appendOwnMediaFact_ends hq hinj (h row List.mem_cons_self) hspare).mono ?_)
    intro appended mid hspare'
    refine .bind ((ih (fun r hr => h r (List.mem_cons_of_mem row hr)) hspare').mono ?_)
    exact fun more ses' _ => .pure trivial

end Publication

/-! ## The completion -/

/-- The items of a run have permalinks of their own. -/
def DistinctPermalinks (runId : Uuid) (db : Db) : Prop :=
  ∀ i ∈ runItems runId db, ∀ j ∈ runItems runId db, i.permalink = j.permalink → i = j

instance (runId : Uuid) (db : Db) : Decidable (DistinctPermalinks runId db) :=
  inferInstanceAs (Decidable (∀ i ∈ runItems runId db, ∀ j ∈ runItems runId db,
    i.permalink = j.permalink → i = j))

section Completion

variable {lib : Externals} {config : OwnMediaSyncConfig} {ctx : SyncContext} {runId : Uuid}
  {candidate : Option String} {now : Instant} {env : Env} {db : Db}

theorem stagedItems_inOrder (h : DistinctPermalinks runId db) :
    InOrder (stagedItems runId db) := by
  have hsorted : (stagedItems runId db).Pairwise
      fun i j => i.providerMediaId ≤ j.providerMediaId := by
    have : IsTrans SyncItem fun i j => i.providerMediaId ≤ j.providerMediaId :=
      ⟨fun _ _ _ => le_trans⟩
    have : Std.Total fun i j : SyncItem => i.providerMediaId ≤ j.providerMediaId :=
      ⟨fun i j => le_total i.providerMediaId j.providerMediaId⟩
    exact List.pairwise_insertionSort _ _
  have hnodup : ((stagedItems runId db).map SyncItem.providerMediaId).Nodup := stagedItems_nodup
  rw [List.Nodup, List.pairwise_map] at hnodup
  refine (hsorted.and hnodup).imp_of_mem fun {i j} hi hj hij => ?_
  refine ⟨lt_of_le_of_ne hij.1 hij.2, fun hp => hij.2 ?_⟩
  rw [h i (mem_runItems.mpr (mem_stagedItems.mp hi)) j (mem_runItems.mpr (mem_stagedItems.mp hj)) hp]

theorem readCapability_lookup {accountId : Uuid} {read : CapabilityRead}
    (h : readCapability accountId db = some read) : (db.accounts.lookup accountId).isSome := by
  obtain ⟨a, ha, hid, -⟩ := readCapability_account h
  rw [← hid, Table.lookup_mem ha]
  rfl

theorem SyncContext.current_account (h : ctx.current (readCapability ctx.accountId db) = true) :
    (db.accounts.lookup ctx.accountId).isSome := by
  cases hread : readCapability ctx.accountId db with
  | none => simp [hread, SyncContext.current] at h
  | some read => exact readCapability_lookup hread

theorem nextDueAt_eq_ok {due : Instant} :
    nextDueAt config now = .ok due ↔
      config.cadenceSeconds ≤ i64Max ∧ due = now + seconds config.cadenceSeconds := by
  unfold nextDueAt
  split <;> simp_all [eq_comm]

/-- What a completion needs to commit. -/
structure Completable (lib : Externals) (config : OwnMediaSyncConfig) (ctx : SyncContext)
    (runId : Uuid) (db : Db) : Prop where
  due : config.cadenceSeconds ≤ i64Max
  current : ctx.current (readCapability ctx.accountId db) = true
  run : (db.syncRuns.lookup runId).isSome
  raws : ∀ i ∈ runItems runId db, (db.rawRecords.lookup i.rawRecordId).isSome
  unique : UniqueProviders db
  distinct : DistinctPermalinks runId db
  clear : PermalinksClear (stagedItems runId db) db
  publishable : ∀ i ∈ runItems runId db, Publishable lib ctx.userRef i.content

/-- **A completion commits** when it can. -/
theorem finalizeRun_ends (hq : env.Quiet) (hinj : Function.Injective env.uuid)
    (hspare : Spare env 0 db) (h : Completable lib config ctx runId db) :
    (finalizeRun lib config ctx runId candidate now).Ends env ⟨db, 0⟩ fun completed _ =>
      completed = true := by
  have haccount := SyncContext.current_account h.current
  refine .bind (.ofExcept (nextDueAt_eq_ok.mpr ⟨h.due, rfl⟩) ?_)
  refine .bind (.query hq ?_)
  rw [h.current]
  refine .bind (.query hq ?_)
  have happ : Applicable ctx.accountId (stagedItems runId db) db :=
    ⟨haccount, fun i hi => h.raws i (mem_runItems.mpr (mem_stagedItems.mp hi))⟩
  have hends : (applyStagedItems ctx.accountId now (stagedItems runId db)).Ends env ⟨db, 2⟩
      fun _ ses' => Spare env ses'.tick ses'.store :=
    applyStagedItems_ends hq hinj (stagedItems_inOrder h.distinct) happ
      (hspare.mono (Nat.zero_le 2)) h.unique h.clear
  obtain ⟨u, ⟨applied, n⟩, happly, hspare'⟩ := hends
  refine .bind ⟨u, _, happly, ?_⟩
  obtain ⟨media, revisions, rfl⟩ := applyStagedItems_onlyMedia _ _ _ _ _ _ _ happly.yields
  -- the rows to publish are the run's items
  have hrows : ∀ row ∈ ownMediaPublishRows runId { db with media, mediaRevisions := revisions },
      Publishable lib ctx.userRef row.content := by
    intro row hrow
    obtain ⟨i, hi, m, -, -, -, hc⟩ := mem_ownMediaPublishRows hrow
    rw [hc]
    exact h.publishable i (mem_runItems.mpr (mem_stagedItems.mp hi))
  have hpublish : (appendOwnMediaFacts lib runId ctx.userRef candidate now).Ends env
      ⟨{ db with media, mediaRevisions := revisions }, n⟩ fun _ _ => True := by
    exact .bind (.query hq
      (appendEachOwnMediaFact_ends hq hinj hrows (hspare'.mono (Nat.le_succ n))))
  obtain ⟨count, ⟨published, n'⟩, hcommit, -⟩ := hpublish
  refine .bind (.mapError ⟨count, _, hcommit, ?_⟩)
  obtain ⟨outbox, rfl⟩ := appendOwnMediaFacts_onlyOutbox _ _ _ _ _ _ _ _ hcommit.yields
  have haccount' : (db.accounts.lookup ctx.accountId).isNone = false := by
    simpa [Option.isNone_iff_eq_none, Option.isSome_iff_ne_none] using haccount
  have hrun : (db.syncRuns.lookup runId).isNone = false := by
    simpa [Option.isNone_iff_eq_none, Option.isSome_iff_ne_none] using h.run
  refine .bind (.executeChecked hq (by simp [authorityGuard, haccount', hrun]) ?_)
  refine .bind (.executeChecked hq (by simp [stateGuard, haccount', hrun]) ?_)
  refine .bind (.execute hq ?_)
  refine .bind (.commit hq ?_)
  exact .pure rfl

end Completion

end InstagramArchive

import InstagramArchive.OwnMedia

/-!
# What the synchronization writes

One lemma for each transaction of a pass: the tables it leaves when it commits, with the
conditions its statements checked.
-/

namespace InstagramArchive

open Relational Relational.Tx

variable {lib : Externals} {env : Env} {db db' : Db}

/-! ## Runs, states and the authority -/

theorem mem_updateRuns {p : SyncRun → Bool} {f : SyncRun → SyncRun}
    {hf : ∀ r, (f r).runId = r.runId} {x : SyncRun} :
    x ∈ (updateRuns p f hf db).syncRuns ↔ ∃ r ∈ db.syncRuns, x = if p r then f r else r :=
  Table.mem_update db.syncRuns p f hf x

theorem activeRun_eq_none {accountId : Uuid} :
    activeRun accountId db = none ↔
      ∀ r ∈ db.syncRuns, r.accountId = accountId → r.status.active = false := by
  simp [activeRun, List.find?_eq_none, SyncRun.activeFor, Table.mem_rows]

theorem activeRun_eq_some {accountId : Uuid} {r : SyncRun} (h : activeRun accountId db = some r) :
    r ∈ db.syncRuns ∧ r.accountId = accountId ∧ r.status.active = true := by
  have hp := List.find?_some h
  simp only [SyncRun.activeFor, Bool.and_eq_true, decide_eq_true_eq] at hp
  exact ⟨List.mem_of_find?_eq_some h, hp.1, hp.2⟩

theorem insertRun_yields {row : SyncRun} {u : Unit} (h : (insertRun row).Yields env db u db') :
    ∃ t : Table SyncRun SyncRun.runId, db' = { db with syncRuns := t } ∧
      t.rows = db.syncRuns.rows ++ [row] ∧ (∀ r ∈ db.syncRuns, r.runId ≠ row.runId) ∧
      (row.status.active = true →
        ∀ r ∈ db.syncRuns, r.accountId = row.accountId → r.status.active = false) ∧
      (db.accounts.lookup row.accountId).isSome := by
  obtain ⟨hguard, t, hinsert, rfl⟩ := Yields.insertInto h
  obtain ⟨hrows, hfresh⟩ := Table.insert?_eq_some hinsert
  unfold runGuard at hguard
  split at hguard
  · cases hguard
  · rename_i hactive
    split at hguard
    · cases hguard
    · rename_i haccount
      refine ⟨t, rfl, hrows, hfresh, fun ha => ?_, by simpa [Option.isSome_iff_ne_none] using haccount⟩
      apply activeRun_eq_none.mp
      simpa [ha] using hactive

theorem writeState_yields {row : SyncState} {u : Unit} (h : (writeState row).Yields env db u db') :
    db' = { db with syncStates := db.syncStates.upsert row } := (Yields.executeChecked h).2

theorem writeAuthority_yields {row : SyncAuthority} {u : Unit}
    (h : (writeAuthority row).Yields env db u db') :
    db' = { db with syncAuthorities := db.syncAuthorities.upsert row } :=
  (Yields.executeChecked h).2

theorem syncWatermark_upsert (db : Db) (row : SyncState) :
    syncWatermark row.accountId { db with syncStates := db.syncStates.upsert row } =
      row.watermark := by
  simp [syncWatermark, Table.lookup_upsert]

/-! ## The no-op -/

theorem recordNoop_yields {config : OwnMediaSyncConfig} {accountId : Uuid} {read : CapabilityRead}
    {now : Instant} {runId : Uuid} (h : (recordNoop config accountId read now).Yields env db runId db') :
    ∃ (row : SyncRun) (due : Instant) (t : Table SyncRun SyncRun.runId),
      row.runId = runId ∧ row.accountId = accountId ∧ row.status = .capabilityNoop ∧
      t.rows = (closeActiveRuns accountId now db).syncRuns.rows ++ [row] ∧
      (∀ r ∈ db.syncRuns, r.runId ≠ runId) ∧
      db' = { db with
        syncRuns := t
        syncStates := db.syncStates.upsert
          (noopState accountId runId due now (db.syncStates.lookup accountId)) } := by
  obtain ⟨id, _, h1, h⟩ := h.bind
  obtain rfl := h1.nowV7
  obtain ⟨due, _, h1, h⟩ := h.bind
  obtain ⟨-, rfl⟩ := h1.ofExcept
  cases hreason : read.noopReason.runReason with
  | none =>
    rw [hreason] at h
    exact h.throw.elim
  | some reason =>
    rw [hreason] at h
    obtain ⟨_, _, h1, h⟩ := h.bind
    obtain rfl := h1.execute
    obtain ⟨_, _, h1, h⟩ := h.bind
    obtain ⟨t, rfl, hrows, hfresh, -, -⟩ := insertRun_yields h1
    obtain ⟨prior, _, h1, h⟩ := h.bind
    obtain ⟨rfl, rfl⟩ := h1.query
    obtain ⟨_, _, h1, h⟩ := h.bind
    obtain rfl := writeState_yields h1
    obtain ⟨_, _, h1, h⟩ := h.bind
    obtain rfl := h1.commit
    obtain ⟨rfl, rfl⟩ := yields_pure.mp h
    refine ⟨_, due, t, rfl, rfl, rfl, hrows, fun r hr => ?_, rfl⟩
    have hkeys := hfresh _ (mem_updateRuns.mpr ⟨r, hr, rfl⟩)
    simp only [apply_ite SyncRun.runId, ite_self] at hkeys
    exact hkeys

/-! ## Opening -/

theorem copyVisible_yields {accountId runId : Uuid} {u : Unit}
    (h : (copyVisible accountId runId).Yields env db u db') :
    ∃ t : Table SyncItem SyncItem.key, db' = { db with syncItems := t } ∧
      t.rows = db.syncItems.rows ++ (visibleItems accountId db).map fun i => { i with runId } := by
  have h := Yields.statement h
  split at h
  · rename_i t ht
    simp only [Except.ok.injEq, Prod.mk.injEq] at h
    exact ⟨t, h.2.symm, Table.insertAll?_eq_some ht⟩
  · cases h

/-- The row of a run as it is opened. -/
def openedRun (accountId userRef generationId : Uuid) (watermark : Option String) (now : Instant)
    (runId : Uuid) : SyncRun :=
  { runId, accountId, userRef, capabilityGenerationId := generationId,
    startWatermark := watermark, status := .running, startedAt := now, updatedAt := now }

theorem openRun_yields {accountId userRef generationId runId : Uuid} {watermark : Option String}
    {now : Instant}
    (h : (openRun accountId userRef generationId watermark now).Yields env db runId db') :
    ∃ (t : Table SyncRun SyncRun.runId) (items : Table SyncItem SyncItem.key),
      t.rows = db.syncRuns.rows ++ [openedRun accountId userRef generationId watermark now runId] ∧
      items.rows = db.syncItems.rows ++ (visibleItems accountId db).map (fun i => { i with runId }) ∧
      (∀ r ∈ db.syncRuns, r.runId ≠ runId) ∧
      (∀ r ∈ db.syncRuns, r.accountId = accountId → r.status.active = false) ∧
      db' = { db with syncRuns := t, syncItems := items } := by
  obtain ⟨id, _, h1, h⟩ := h.bind
  obtain rfl := h1.nowV7
  obtain ⟨_, _, h1, h⟩ := h.bind
  obtain ⟨t, rfl, hrows, hfresh, hidle, -⟩ := insertRun_yields h1
  obtain ⟨_, _, h1, h⟩ := h.bind
  obtain ⟨items, rfl, hitems⟩ := copyVisible_yields h1
  obtain ⟨_, _, h1, h⟩ := h.bind
  obtain rfl := h1.commit
  obtain ⟨rfl, rfl⟩ := yields_pure.mp h
  exact ⟨t, items, hrows, hitems, hfresh, hidle rfl, rfl⟩

/-! ## Pages -/

theorem stageItem_yields {row : SyncItem} {u : Unit} (h : (stageItem row).Yields env db u db') :
    itemGuard row db = none ∧ db' = { db with syncItems := db.syncItems.upsert row } :=
  Yields.executeChecked h

/-- The items a run holds after a page is staged onto them. -/
def stagedOnto (runId rawRecordId : Uuid) (now : Instant) (t : Table SyncItem SyncItem.key)
    (items : List ProviderOwnMediaItem) : Table SyncItem SyncItem.key :=
  items.foldl (fun t item => t.upsert (SyncItem.observed runId rawRecordId now item)) t

theorem stageItems_yields {runId rawRecordId : Uuid} {providerAccountId : String} {now : Instant}
    {items : List ProviderOwnMediaItem} {u : Unit}
    (h : (stageItems runId rawRecordId providerAccountId now items).Yields env db u db') :
    (∀ item ∈ items, item.ownerProviderAccountId = providerAccountId) ∧
      db' = { db with syncItems := stagedOnto runId rawRecordId now db.syncItems items } := by
  induction items generalizing db with
  | nil =>
    obtain ⟨-, rfl⟩ := yields_pure.mp h
    exact ⟨by simp, rfl⟩
  | cons item rest ih =>
    unfold stageItems at h
    split at h
    · exact h.throw.elim
    · rename_i howner
      obtain ⟨_, _, h1, h⟩ := h.bind
      obtain ⟨-, rfl⟩ := stageItem_yields h1
      obtain ⟨hrest, rfl⟩ := ih h
      refine ⟨fun x hx => ?_, rfl⟩
      rcases List.mem_cons.mp hx with rfl | hx
      · simpa using howner
      · exact hrest x hx

/-- An item of the table afterwards is an untouched one or read from the page. -/
theorem mem_stagedOnto {runId rawRecordId : Uuid} {now : Instant} {t : Table SyncItem SyncItem.key}
    {items : List ProviderOwnMediaItem} {i : SyncItem}
    (h : i ∈ stagedOnto runId rawRecordId now t items) :
    i ∈ t ∨ ∃ item ∈ items, i = SyncItem.observed runId rawRecordId now item := by
  induction items generalizing t with
  | nil => exact Or.inl h
  | cons item rest ih =>
    rcases ih h with h | ⟨x, hx, rfl⟩
    · rcases Table.mem_upsert.mp h with ⟨h, -⟩ | rfl
      · exact Or.inl h
      · exact Or.inr ⟨item, List.mem_cons_self, rfl⟩
    · exact Or.inr ⟨x, List.mem_cons_of_mem item hx, rfl⟩

/-- The identities of a run afterwards: those it had and those of the page. -/
theorem staged_stagedOnto {runId rawRecordId : Uuid} {now : Instant}
    {t : Table SyncItem SyncItem.key} {items : List ProviderOwnMediaItem} {id : String} :
    (∃ i ∈ stagedOnto runId rawRecordId now t items, i.runId = runId ∧ i.providerMediaId = id) ↔
      (∃ i ∈ t, i.runId = runId ∧ i.providerMediaId = id) ∨
        ∃ item ∈ items, item.providerMediaId = id := by
  induction items generalizing t with
  | nil => simp [stagedOnto]
  | cons item rest ih =>
    have hone : (∃ i ∈ t.upsert (SyncItem.observed runId rawRecordId now item),
        i.runId = runId ∧ i.providerMediaId = id) ↔
          (∃ i ∈ t, i.runId = runId ∧ i.providerMediaId = id) ∨ item.providerMediaId = id := by
      constructor
      · rintro ⟨i, hi, hrun, hid⟩
        rcases Table.mem_upsert.mp hi with ⟨hi, -⟩ | rfl
        · exact Or.inl ⟨i, hi, hrun, hid⟩
        · exact Or.inr hid
      · intro h
        by_cases hid : item.providerMediaId = id
        · exact ⟨_, Table.mem_upsert.mpr (Or.inr rfl), rfl, hid⟩
        · obtain ⟨i, hi, hrun, hi'⟩ := h.resolve_right hid
          refine ⟨i, Table.mem_upsert.mpr (Or.inl ⟨hi, fun hk => hid ?_⟩), hrun, hi'⟩
          exact (congrArg Prod.snd hk).symm.trans hi'
    have hrest : (∃ i ∈ stagedOnto runId rawRecordId now t (item :: rest),
        i.runId = runId ∧ i.providerMediaId = id) ↔ _ :=
      ih (t := t.upsert (SyncItem.observed runId rawRecordId now item))
    rw [hrest, hone]
    simp only [List.mem_cons, exists_eq_or_imp, or_assoc]

/-- The items of the other runs stay where they are. -/
theorem filter_stagedOnto {runId other rawRecordId : Uuid} (hne : other ≠ runId) {now : Instant}
    {t : Table SyncItem SyncItem.key} {items : List ProviderOwnMediaItem} :
    ((stagedOnto runId rawRecordId now t items).rows.filter fun i => i.runId = other) =
      t.rows.filter fun i => i.runId = other := by
  induction items generalizing t with
  | nil => rfl
  | cons item rest ih =>
    refine (ih (t := t.upsert (SyncItem.observed runId rawRecordId now item))).trans ?_
    have hnew : (SyncItem.observed runId rawRecordId now item).runId ≠ other := fun h => hne h.symm
    rw [Table.upsert, List.filter_append, List.filter_filter,
      List.filter_singleton, decide_eq_false hnew]
    simp only [cond_false, List.append_nil]
    apply List.filter_congr
    intro i _
    by_cases hi : i.runId = other
    · have hkey : SyncItem.key i ≠ SyncItem.key (SyncItem.observed runId rawRecordId now item) :=
        fun hk => hne (hi.symm.trans (congrArg Prod.fst hk))
      simp [hi, hkey]
    · simp [hi]

theorem persistPage_yields {runId : Uuid} {providerAccountId : String} {page : ProviderOwnMediaPage}
    {candidate : Option String} {now : Instant} {u : Unit}
    (h : (persistPage lib runId providerAccountId page candidate now).Yields env db u db') :
    ∃ (rawRecordId : Uuid) (raws : Table RawRecord RawRecord.rawRecordId),
      raws.rows = db.rawRecords.rows ++ [rawPage lib page.rawBody now rawRecordId] ∧
      (∀ item ∈ page.items, item.ownerProviderAccountId = providerAccountId) ∧
      db' = recordPage runId page candidate now
        { db with
          rawRecords := raws
          syncItems := stagedOnto runId rawRecordId now db.syncItems page.items } := by
  unfold persistPage at h
  split at h
  · exact h.throw.elim
  · obtain ⟨rawRecordId, _, h1, h⟩ := h.bind
    obtain rfl := h1.nowV7
    obtain ⟨_, _, h1, h⟩ := h.bind
    obtain ⟨-, raws, hraws, rfl⟩ := h1.insertInto
    obtain ⟨_, _, h1, h⟩ := h.bind
    obtain ⟨howner, rfl⟩ := stageItems_yields h1
    obtain ⟨_, _, h1, h⟩ := h.bind
    obtain rfl := h1.execute
    obtain rfl := h.commit
    exact ⟨rawRecordId, raws, (Table.insert?_eq_some hraws).1, howner, rfl⟩

/-! ## Completion -/

/-- Only media rows and their revisions change. -/
def OnlyMedia (db db' : Db) : Prop :=
  ∃ media revisions, db' = { db with media := media, mediaRevisions := revisions }

instance : IsPreorder Db OnlyMedia where
  refl db := ⟨db.media, db.mediaRevisions, rfl⟩
  trans := by
    rintro a _ _ ⟨m, r, rfl⟩ ⟨m', r', rfl⟩
    exact ⟨m', r', rfl⟩

/-- Only the outbox changes. -/
def OnlyOutbox (db db' : Db) : Prop := ∃ outbox, db' = { db with outboxEvents := outbox }

instance : IsPreorder Db OnlyOutbox where
  refl db := ⟨db.outboxEvents, rfl⟩
  trans := by
    rintro a _ _ ⟨t, rfl⟩ ⟨t', rfl⟩
    exact ⟨t', rfl⟩

theorem applyStagedItem_onlyMedia (accountId : Uuid) (now : Instant) (item : SyncItem) :
    (applyStagedItem accountId now item).Respects OnlyMedia := by
  have hid : (officialMediaId accountId item).Respects OnlyMedia := by
    refine .bind (.query _) fun found => ?_
    cases found with
    | some m => exact .pure _
    | none =>
      refine .bind .nowV7 fun mediaId => .bind .now fun createdAt => ?_
      exact .bind (.insertInto fun db t => ⟨t, db.mediaRevisions, rfl⟩) fun _ => .pure _
  refine .bind hid fun mediaId => ?_
  refine .bind (.executeChecked fun db => ⟨_, db.mediaRevisions, rfl⟩) fun _ => ?_
  refine .bind .nowV7 fun revisionId => ?_
  refine .bind (.insertInto fun db t => ⟨db.media, t, rfl⟩) fun _ => ?_
  exact .execute fun db => ⟨_, db.mediaRevisions, rfl⟩

theorem applyStagedItems_onlyMedia (accountId : Uuid) (now : Instant) (items : List SyncItem) :
    (applyStagedItems accountId now items).Respects OnlyMedia := by
  induction items with
  | nil => exact .pure ()
  | cons item rest ih => exact .bind (applyStagedItem_onlyMedia accountId now item) fun _ => ih

theorem appendOwnMediaFact_onlyOutbox (owner : Uuid) (checkpoint : Option String)
    (capturedAt : Instant) (row : OwnMediaPublishRow) :
    (appendOwnMediaFact lib owner checkpoint capturedAt row).Respects OnlyOutbox := by
  refine .bind (.ofExcept _) fun digest => .bind (.query _) fun prior => ?_
  split
  · exact .pure false
  · refine .bind (.ofExcept _) fun text => .bind (.ofExcept _) fun _ => .bind .nowV7 fun eventId => ?_
    exact .insertUnless fun db t => ⟨t, rfl⟩

theorem appendOwnMediaFacts_onlyOutbox (runId owner : Uuid) (checkpoint : Option String)
    (capturedAt : Instant) :
    (appendOwnMediaFacts lib runId owner checkpoint capturedAt).Respects OnlyOutbox := by
  refine .bind (.query _) fun rows => ?_
  induction rows with
  | nil => exact .pure 0
  | cons row rest ih =>
    refine .bind (appendOwnMediaFact_onlyOutbox owner checkpoint capturedAt row) fun appended => ?_
    exact .bind ih fun more => .pure _

/-- The own-media tables after a completion. -/
def activated (config : OwnMediaSyncConfig) (ctx : SyncContext) (runId : Uuid)
    (candidate : Option String) (now : Instant) (db : Db) : Db :=
  completeRun runId now
    { db with
      syncAuthorities := db.syncAuthorities.upsert ⟨ctx.accountId, runId, now⟩
      syncStates := db.syncStates.upsert
        { accountId := ctx.accountId, watermark := candidate,
          nextDueAt := now + seconds config.cadenceSeconds,
          lastRunId := some runId, lastOutcome := some .completed, updatedAt := now } }

/-- A finalization closes the run of a changed account, or applies and publishes what the
run staged and makes it authoritative. -/
theorem finalizeRun_yields {config : OwnMediaSyncConfig} {ctx : SyncContext} {runId : Uuid}
    {candidate : Option String} {now : Instant} {completed : Bool}
    (h : (finalizeRun lib config ctx runId candidate now).Yields env db completed db') :
    (completed = false ∧ ctx.current (readCapability ctx.accountId db) = false ∧
        db' = failRun runId now db) ∨
      (completed = true ∧ ctx.current (readCapability ctx.accountId db) = true ∧
        ∃ applied published n,
          (applyStagedItems ctx.accountId now (stagedItems runId db)).Yields env db () applied ∧
          (appendOwnMediaFacts lib runId ctx.userRef candidate now).Yields env applied n
            published ∧
          db' = activated config ctx runId candidate now published) := by
  obtain ⟨due, _, h1, h⟩ := h.bind
  obtain ⟨hdue, rfl⟩ := h1.ofExcept
  obtain ⟨read, _, h1, h⟩ := h.bind
  obtain ⟨rfl, rfl⟩ := h1.query
  cases hcurrent : ctx.current (readCapability ctx.accountId db) with
  | false =>
    rw [hcurrent] at h
    obtain ⟨_, _, h1, h⟩ := h.bind
    obtain rfl := h1.execute
    obtain ⟨_, _, h1, h⟩ := h.bind
    obtain rfl := h1.commit
    obtain ⟨rfl, rfl⟩ := yields_pure.mp h
    exact Or.inl ⟨rfl, rfl, rfl⟩
  | true =>
    rw [hcurrent] at h
    obtain ⟨staged, _, h1, h⟩ := h.bind
    obtain ⟨rfl, rfl⟩ := h1.query
    obtain ⟨_, applied, happly, h⟩ := h.bind
    obtain ⟨n, published, hpublish, h⟩ := h.bind
    obtain ⟨_, _, h1, h⟩ := h.bind
    obtain rfl := writeAuthority_yields h1
    obtain ⟨_, _, h1, h⟩ := h.bind
    obtain rfl := writeState_yields h1
    obtain ⟨_, _, h1, h⟩ := h.bind
    obtain rfl := h1.execute
    obtain ⟨_, _, h1, h⟩ := h.bind
    obtain rfl := h1.commit
    obtain ⟨rfl, rfl⟩ := yields_pure.mp h
    refine Or.inr ⟨rfl, rfl, applied, published, n, happly, hpublish.mapError, ?_⟩
    unfold nextDueAt at hdue
    split at hdue
    · cases hdue
      rfl
    · cases hdue

end InstagramArchive

import InstagramArchive.OwnMediaCommit
import InstagramArchive.StaleGeneration

/-!
# One page of a pass

Under an environment that fails nowhere and identifiers that are new, the page loop reserves
an attempt, asks, completes the attempt and persists the page. `traverse_accepts` says so in
one equation: the loop leaves the event of the page and goes on in the database with the page
in it. What that database holds is `PageAccepted`.
-/

namespace InstagramArchive

open Relational Relational.Tx

/-- The identifier occurs nowhere a pass would put it. -/
structure Unused (u : Uuid) (db : Db) : Prop where
  usage : ∀ r ∈ db.providerUsage, r.usageId ≠ u ∧ r.operationId ≠ u
  runs : ∀ r ∈ db.syncRuns, r.runId ≠ u
  items : ∀ i ∈ db.syncItems, i.runId ≠ u
  raws : ∀ r ∈ db.rawRecords, r.rawRecordId ≠ u
  media : ∀ m ∈ db.media, m.mediaId ≠ u
  revisions : ∀ r ∈ db.mediaRevisions, r.revisionId ≠ u
  events : ∀ e ∈ db.outboxEvents, e.eventId ≠ u

/-- What the client lets through as a page of an account: `parse_own_media_page`. -/
structure ProviderOwnMediaPage.Fits (provider : String) (page : ProviderOwnMediaPage) : Prop where
  owner : ∀ i ∈ page.items, i.ownerProviderAccountId = provider
  mediaType : ∀ i ∈ page.items,
    i.mediaType = "IMAGE" ∨ i.mediaType = "VIDEO" ∨ i.mediaType = "CAROUSEL_ALBUM"
  distinct : (page.items.map ProviderOwnMediaItem.providerMediaId).Nodup
  body : page.rawBody.utf8ByteSize ≤ i64Max

/-! ## Attempts -/

section Attempts

variable {env : Env} {ses : Session Db}

/-- The last attempt after a row of the operation is appended. -/
theorem lastAttempt_append {db : Db} {t : Table ProviderUsage ProviderUsage.usageId}
    {row : ProviderUsage} (h : t.rows = db.providerUsage.rows ++ [row]) :
    lastAttempt row.operationId { db with providerUsage := t } =
      max (lastAttempt row.operationId db) row.attemptOrdinal := by
  rw [lastAttempt_eq, attempts_append h, if_pos rfl, foldr_max_append, ← lastAttempt_eq]

/-- The last attempt reads operations and ordinals only. -/
theorem lastAttempt_update (db : Db) (operationId : Uuid) (p : ProviderUsage → Bool)
    (f : ProviderUsage → ProviderUsage) (hf : ∀ u, (f u).usageId = u.usageId)
    (hoperation : ∀ u, (f u).operationId = u.operationId)
    (hordinal : ∀ u, (f u).attemptOrdinal = u.attemptOrdinal) :
    lastAttempt operationId { db with providerUsage := db.providerUsage.update p f hf } =
      lastAttempt operationId db := by
  rw [lastAttempt_eq, attempts_update db operationId p f hf hoperation hordinal, lastAttempt_eq]

/-- The row of a reservation. -/
def startedAttempt (budget : ProviderBudget) (requestClass : RequestClass) (startedAt : Instant)
    (usageId : Uuid) : ProviderUsage :=
  { usageId
    operationId := budget.operationId
    accountId := budget.accountId
    requestClass
    attemptOrdinal := budget.nextOrdinal
    startedAt }

theorem ProviderBudget.reserve_ends (budget : ProviderBudget) (requestClass : RequestClass)
    (startedAt : Instant) (ses : Session Db) (hq : env.Quiet) (hunit : budget.exhausted = false)
    (hordinal : budget.nextOrdinal ≤ i32Max)
    (haccount : ∀ id, budget.accountId = some id → (ses.store.accounts.lookup id).isSome)
    (hlast : lastAttempt budget.operationId ses.store < budget.nextOrdinal)
    (hid : ∀ r ∈ ses.store.providerUsage, r.usageId ≠ env.uuid ses.tick) :
    (budget.reserve requestClass startedAt).Ends env ses fun reserved ses' =>
      reserved = (⟨env.uuid ses.tick, budget.nextOrdinal, requestClass⟩,
        { budget with nextOrdinal := budget.nextOrdinal + 1 }) ∧
      ∃ t : Table ProviderUsage ProviderUsage.usageId, t.rows = ses.store.providerUsage.rows ++
          [startedAttempt budget requestClass startedAt (env.uuid ses.tick)] ∧
        ses'.store = { ses.store with providerUsage := t } := by
  unfold ProviderBudget.reserve
  rw [if_neg (by simp [hunit]), if_neg (by omega)]
  refine .bind (.nowV7 (.bind (.insertInto hq ?_ hid fun t ht => .pure ⟨rfl, t, ?_, rfl⟩)))
  · -- no attempt of the operation has the ordinal, and the account is there
    have hfresh : (ses.store.providerUsage.rows.any fun u =>
        u.operationId = budget.operationId && u.attemptOrdinal = budget.nextOrdinal) = false := by
      rw [List.any_eq_false]
      intro u hu hboth
      simp only [Bool.and_eq_true, decide_eq_true_eq] at hboth
      have hle := attemptOrdinal_le_lastAttempt (show u ∈ ses.store.providerUsage from hu)
      rw [hboth.1] at hle
      omega
    have hexists : (budget.accountId.any fun id => (ses.store.accounts.lookup id).isNone) = false := by
      cases hb : budget.accountId with
      | none => rfl
      | some id =>
        simpa [Option.isNone_iff_eq_none, Option.isSome_iff_ne_none] using haccount id hb
    simp only [usageGuard, hfresh, hexists, Bool.false_eq_true, if_false]
  · exact (Table.insert?_eq_some ht).1

/-- The ledger with a reservation completed. -/
def finishedAttempts (budget : ProviderBudget) (reservation : UsageReservation)
    (outcome : UsageOutcome) (finishedAt : Instant)
    (ledger : Table ProviderUsage ProviderUsage.usageId) :
    Table ProviderUsage ProviderUsage.usageId :=
  ledger.update (budget.completes reservation) fun u =>
    { u with outcome := some outcome, httpStatus := none, finishedAt := some finishedAt }

theorem ProviderBudget.complete_ends (budget : ProviderBudget) (reservation : UsageReservation)
    (outcome : UsageOutcome) (finishedAt : Instant) (hq : env.Quiet) (ses : Session Db)
    {before : List ProviderUsage} {row : ProviderUsage}
    (hrows : ses.store.providerUsage.rows = before ++ [row])
    (hother : ∀ u ∈ before, u.usageId ≠ reservation.usageId)
    (hrow : budget.completes reservation row = true) :
    (budget.complete reservation outcome none finishedAt).Ends env ses fun _ ses' =>
      ses'.store = { ses.store with
        providerUsage :=
          finishedAttempts budget reservation outcome finishedAt ses.store.providerUsage } := by
  have hone : (ses.store.providerUsage.rows.filter (budget.completes reservation)).length = 1 := by
    have hnone : before.filter (budget.completes reservation) = [] := by
      refine List.filter_eq_nil_iff.mpr fun u hu hc => ?_
      simp only [ProviderBudget.completes, Bool.and_eq_true, decide_eq_true_eq] at hc
      exact hother u hu hc.1.1
    rw [hrows, List.filter_append, hnone]
    simp [hrow]
  unfold ProviderBudget.complete
  rw [if_neg (by simp)]
  refine .bind (.statement hq rfl ?_)
  rw [if_neg (by simp [hone])]
  exact .pure rfl

end Attempts

/-! ## Pages -/

section Pages

variable {lib : Externals} {env : Env} {ses : Session Db} {runId : Uuid} {provider : String}
  {now : Instant}

theorem normalizedMediaType_ne {i : ProviderOwnMediaItem}
    (h : i.mediaType = "IMAGE" ∨ i.mediaType = "VIDEO" ∨ i.mediaType = "CAROUSEL_ALBUM") :
    ¬ (normalizedMediaType i = .unknown ∨ normalizedMediaType i = .story) := by
  unfold normalizedMediaType
  rcases h with h | h | h
  · simp [h]
  · by_cases hreels : i.mediaProductType = "REELS" <;> simp [h, hreels]
  · simp [h]

theorem stageItems_ends (hq : env.Quiet) {rawRecordId : Uuid} {items : List ProviderOwnMediaItem}
    (howner : ∀ i ∈ items, i.ownerProviderAccountId = provider)
    (htype : ∀ i ∈ items,
      i.mediaType = "IMAGE" ∨ i.mediaType = "VIDEO" ∨ i.mediaType = "CAROUSEL_ALBUM")
    (hrun : (ses.store.syncRuns.lookup runId).isSome)
    (hraw : (ses.store.rawRecords.lookup rawRecordId).isSome) :
    (stageItems runId rawRecordId provider now items).Ends env ses fun _ ses' =>
      ses'.store = { ses.store with
        syncItems := stagedOnto runId rawRecordId now ses.store.syncItems items } := by
  induction items generalizing ses with
  | nil => exact .pure rfl
  | cons item rest ih =>
    unfold stageItems
    rw [if_neg (by simp [howner item List.mem_cons_self])]
    have hguard : itemGuard (SyncItem.observed runId rawRecordId now item) ses.store = none := by
      have hrun' : (ses.store.syncRuns.lookup runId).isNone = false := by
        simpa [Option.isNone_iff_eq_none, Option.isSome_iff_ne_none] using hrun
      have hraw' : (ses.store.rawRecords.lookup rawRecordId).isNone = false := by
        simpa [Option.isNone_iff_eq_none, Option.isSome_iff_ne_none] using hraw
      have htype' := normalizedMediaType_ne (htype item List.mem_cons_self)
      rw [not_or] at htype'
      simp [itemGuard, SyncItem.observed, htype'.1, htype'.2, hrun', hraw']
    refine .bind (.executeChecked hq hguard ?_)
    exact ih (fun i hi => howner i (List.mem_cons_of_mem item hi))
      (fun i hi => htype i (List.mem_cons_of_mem item hi)) hrun hraw

/-- The tables with a page in them, its evidence stored under an identifier. -/
def withPage (runId rawRecordId : Uuid) (page : ProviderOwnMediaPage)
    (candidate : Option String) (now : Instant) (raws : Table RawRecord RawRecord.rawRecordId)
    (db : Db) : Db :=
  recordPage runId page candidate now
    { db with
      rawRecords := raws
      syncItems := stagedOnto runId rawRecordId now db.syncItems page.items }

theorem persistPage_ends (hq : env.Quiet) {page : ProviderOwnMediaPage} {candidate : Option String}
    (hfits : page.Fits provider) (hrun : (ses.store.syncRuns.lookup runId).isSome)
    (hid : ∀ r ∈ ses.store.rawRecords, r.rawRecordId ≠ env.uuid ses.tick) :
    (persistPage lib runId provider page candidate now).Ends env ses fun _ ses' =>
      ∃ raws, raws.rows = ses.store.rawRecords.rows ++
          [rawPage lib page.rawBody now (env.uuid ses.tick)] ∧
        ses'.store = withPage runId (env.uuid ses.tick) page candidate now raws ses.store := by
  unfold persistPage
  rw [if_neg (by have := hfits.body; omega)]
  refine .bind (.nowV7 (.bind (.insertInto hq rfl hid fun raws hraws => ?_)))
  have hraw : (raws.lookup (env.uuid ses.tick)).isSome := by
    rw [Table.lookup_of_insert? hraws, if_pos (by rfl)]
    rfl
  have hstaged : (stageItems runId (env.uuid ses.tick) provider now page.items).Ends env
      ⟨{ ses.store with rawRecords := raws }, ses.tick + 2⟩ fun _ ses' =>
        ses'.store = { ses.store with
          rawRecords := raws
          syncItems := stagedOnto runId (env.uuid ses.tick) now ses.store.syncItems page.items } :=
    stageItems_ends hq hfits.owner hfits.mediaType hrun hraw
  refine .bind (hstaged.mono ?_)
  rintro _ ⟨_, tick⟩ rfl
  exact .bind (.execute hq (.commit hq ⟨raws, (Table.insert?_eq_some hraws).1, rfl⟩))

end Pages

/-! ## The loop -/

/-- What follows an accepted page. -/
def continueWalk (lib : Externals) (config : OwnMediaSyncConfig) (ctx : SyncContext)
    (token : String) (now : Instant) (pages : Nat) (budget : ProviderBudget) (walk : Walk)
    (page : ProviderOwnMediaPage) : SyncScript OwnMediaSyncOutcome :=
  if walk.completes page then complete lib config ctx (walk.after page) now
  else if page.nextCursor.isNone then stopRetryable (walk.after page) .pageLimit now
  else traverse lib config ctx token now pages budget (walk.after page)

/-- The budget whose next attempt follows the last one of a run. -/
def budgetOf (runId accountId : Uuid) (limit attempts : Nat) : ProviderBudget :=
  ⟨runId, some accountId, limit, attempts + 1⟩

/-- The database after the loop has accepted one more page. -/
structure PageAccepted (lib : Externals) (walk : Walk) (page : ProviderOwnMediaPage)
    (now : Instant) (first last : Env) (db db' : Db) : Prop where
  attempts : lastAttempt walk.runId db' = lastAttempt walk.runId db + 1
  /-- The page is there, over a usage ledger with one more attempt. -/
  stored : ∃ raws usage, raws.rows = db.rawRecords.rows ++
      [rawPage lib page.rawBody now (last.uuid 0)] ∧
    db' = withPage walk.runId (last.uuid 0) page (walk.candidateAfter page) now raws
      { db with providerUsage := usage } ∧
    ∀ u ∈ usage, (∃ u' ∈ db.providerUsage, u.usageId = u'.usageId ∧ u.operationId = u'.operationId) ∨
      (u.usageId = first.uuid 0 ∧ u.operationId = walk.runId)

section Loop

variable {lib : Externals} {config : OwnMediaSyncConfig} {ctx : SyncContext} {token : String}
  {now : Instant} {turns : Nat → Env × (OwnMediaRequest → OwnMediaAnswer)} {n limit : Nat}
  {walk : Walk} {page : ProviderOwnMediaPage} {db : Db}

/-- The loop where it stands after the last attempt of its run. -/
def loopAt (lib : Externals) (config : OwnMediaSyncConfig) (ctx : SyncContext) (token : String)
    (now : Instant) (limit pages : Nat) (walk : Walk) (db : Db) : SyncScript OwnMediaSyncOutcome :=
  traverse lib config ctx token now pages
    (budgetOf walk.runId ctx.accountId limit (lastAttempt walk.runId db)) walk

/-- **The loop accepts a page** while an attempt is left: it leaves the event of the page and
goes on with what follows. -/
theorem loopAt_accepts (lib : Externals) (config : OwnMediaSyncConfig) (token : String)
    (now : Instant) (walk : Walk) (db : Db) (pages : Nat) (hq : ∀ n, (turns n).1.Quiet)
    (hleft : lastAttempt walk.runId db < min limit i32Max)
    (haccount : (db.accounts.lookup ctx.accountId).isSome)
    (hrun : (db.syncRuns.lookup walk.runId).isSome)
    (hanswer : (turns (n + 1)).2 ⟨ctx.providerAccountId, token, walk.nextCursor⟩ = .ok page)
    (hfits : page.Fits ctx.providerAccountId)
    (hfirst : ∀ r ∈ db.providerUsage, r.usageId ≠ (turns n).1.uuid 0)
    (hlast : ∀ r ∈ db.rawRecords, r.rawRecordId ≠ (turns (n + 3)).1.uuid 0) :
    ∃ db' rest, PageAccepted lib walk page now (turns n).1 (turns (n + 3)).1 db db' ∧
      (continueWalk lib config ctx token now pages
        (budgetOf walk.runId ctx.accountId limit (lastAttempt walk.runId db')) walk page).run turns
          (n + 4) db' = rest ∧
      (loopAt lib config ctx token now limit (pages + 1) walk db).run turns n db =
        (rest.1, rest.2.1, .accepted walk.runId walk.nextCursor page :: rest.2.2) := by
  generalize hattempts : lastAttempt walk.runId db = attempts at hleft
  let budget := budgetOf walk.runId ctx.accountId limit attempts
  have hunit : budget.exhausted = false := by
    simp [budget, budgetOf, ProviderBudget.exhausted]
    omega
  have hordinal : budget.nextOrdinal ≤ i32Max := by
    change attempts + 1 ≤ i32Max
    omega
  -- the reservation
  have hreserve := (budget.reserve_ends .ownMediaPage now ⟨db, 0⟩ (hq n) hunit hordinal
    (by rintro id ⟨⟩; exact haccount) (by change lastAttempt walk.runId db < attempts + 1; omega)
    hfirst).mapError (g := OwnMediaSyncError.budget)
  obtain ⟨_, ⟨_, n1⟩, hreserved, rfl, usage, husage, rfl⟩ := hreserve.exec
  -- its completion
  have hcomplete := (ProviderBudget.complete_ends
    (budgetOf walk.runId ctx.accountId limit (attempts + 1))
    ⟨(turns n).1.uuid 0, attempts + 1, .ownMediaPage⟩ .succeeded now (hq (n + 2))
    ⟨{ db with providerUsage := usage }, 0⟩ husage hfirst
    (by simp [ProviderBudget.completes, startedAttempt, budgetOf, budget])).mapError
    (g := OwnMediaSyncError.budget)
  obtain ⟨_, ⟨_, n2⟩, hcompleted, rfl⟩ := hcomplete.exec
  let ledger := finishedAttempts (budgetOf walk.runId ctx.accountId limit (attempts + 1))
    ⟨(turns n).1.uuid 0, attempts + 1, .ownMediaPage⟩ .succeeded now usage
  -- the page
  have hpersist : (persistPage lib walk.runId ctx.providerAccountId page (walk.candidateAfter page)
      now).Ends (turns (n + 3)).1 ⟨{ db with providerUsage := ledger }, 0⟩ fun _ ses' =>
        ∃ raws, raws.rows = db.rawRecords.rows ++
            [rawPage lib page.rawBody now ((turns (n + 3)).1.uuid 0)] ∧
          ses'.store = withPage walk.runId ((turns (n + 3)).1.uuid 0) page
            (walk.candidateAfter page) now raws { db with providerUsage := ledger } :=
    persistPage_ends (hq (n + 3)) hfits hrun hlast
  obtain ⟨_, ⟨_, n3⟩, hpersisted, raws, hraws, rfl⟩ := hpersist.exec
  let stored := withPage walk.runId ((turns (n + 3)).1.uuid 0) page (walk.candidateAfter page) now
    raws { db with providerUsage := ledger }
  have hcount : lastAttempt walk.runId stored = attempts + 1 := by
    have hkept : lastAttempt walk.runId { db with providerUsage := ledger } =
        lastAttempt walk.runId { db with providerUsage := usage } :=
      lastAttempt_update { db with providerUsage := usage } _ _ _ _ (fun _ => rfl) (fun _ => rfl)
    have hone : lastAttempt walk.runId { db with providerUsage := usage } =
        max (lastAttempt walk.runId db) (attempts + 1) := lastAttempt_append husage
    change lastAttempt walk.runId { db with providerUsage := ledger } = attempts + 1
    rw [hkept, hone]
    omega
  refine ⟨stored, _, ⟨by rw [hcount, hattempts], raws, ledger, hraws, rfl, fun u hu => ?_⟩, rfl, ?_⟩
  · obtain ⟨u', hu', rfl⟩ := Table.exists_of_mem_update hu
    rw [Table.mem_rows, husage, List.mem_append, List.mem_singleton] at hu'
    rcases hu' with hu' | rfl
    · refine Or.inl ⟨u', hu', ?_⟩
      split <;> exact ⟨rfl, rfl⟩
    · refine Or.inr ?_
      split <;> exact ⟨rfl, rfl⟩
  · unfold loopAt traverse
    rw [hattempts, hcount, if_neg (by simpa using hunit)]
    refine (Script.run_tx_ok hreserved).trans ?_
    refine (Script.run_answer hanswer).trans ?_
    refine (Script.run_tx_ok hcompleted).trans ?_
    exact Script.run_emit_ok hpersisted

end Loop

end InstagramArchive

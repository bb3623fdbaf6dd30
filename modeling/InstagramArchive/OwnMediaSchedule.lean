import InstagramArchive.OwnMediaProgress

/-!
# Passes until a run completes

Passes one after the other over a feed that does not change: each of them accepts pages from
where the run stands, and every page costs one of the attempts the run has left. The sum of
the pages to go and the attempts made is the same before and after a pass, so the run
completes after finitely many passes exactly when its attempts suffice for its pages.
-/

namespace InstagramArchive

open Relational Relational.Tx

/-- Nothing stands in the way of a completion: the contracts accept the contents in `S`, and
two of them, or one of them and a media row, share a permalink only under one identity. -/
structure Unobstructed (lib : Externals) (owner runId : Uuid) (S : OwnMediaContent → Prop) (db : Db) :
    Prop where
  staged : ∀ i ∈ db.syncItems, i.runId = runId → S i.content
  raws : ∀ i ∈ db.syncItems, i.runId = runId → ∃ r ∈ db.rawRecords, r.rawRecordId = i.rawRecordId
  publishable : ∀ c, S c → Publishable lib owner c
  apart : ∀ c c', S c → S c' → c.permalink = c'.permalink → c.providerMediaId = c'.providerMediaId
  clear : ∀ c, S c → ∀ m ∈ db.media, m.permalink = c.permalink →
    m.providerMediaId = some c.providerMediaId
  unique : UniqueProviders db

/-- A run between two pages, with what the next ones rely on. -/
structure Halfway (lib : Externals) (keys : CredentialKeyring) (ctx : SyncContext) (token : String)
    (S : OwnMediaContent → Prop) (ids : Set Uuid) (walk : Walk) (db : Db) : Prop where
  run : ∃ run, activeRun ctx.accountId db = some run ∧ run.walk = walk ∧
    run.capabilityGenerationId = ctx.generationId
  current : ctx.current (readCapability ctx.accountId db) = true
  credential : ∃ envelope, readCredential ctx.accountId ctx.userRef db =
    some (ctx.providerAccountId, envelope) ∧ keys.openAccess ctx.accountId envelope = some token
  unobstructed : Unobstructed lib ctx.userRef walk.runId S db
  unused : ∀ u ∈ ids, Unused u db

/-- The content of a provider item. -/
def ProviderOwnMediaItem.content (item : ProviderOwnMediaItem) : OwnMediaContent :=
  ⟨item.providerMediaId, item.permalink, item.caption, item.publishedAt⟩

section Halfway

variable {lib : Externals} {keys : CredentialKeyring} {ctx : SyncContext} {token : String}
  {S : OwnMediaContent → Prop} {ids ids' : Set Uuid} {walk : Walk} {db db' : Db}

theorem Unobstructed.completable {config : OwnMediaSyncConfig} {runId : Uuid}
    (h : Unobstructed lib ctx.userRef runId S db) (hdue : config.cadenceSeconds ≤ i64Max)
    (hcurrent : ctx.current (readCapability ctx.accountId db) = true)
    (hrun : (db.syncRuns.lookup runId).isSome) : Completable lib config ctx runId db where
  due := hdue
  current := hcurrent
  run := hrun
  raws i hi := by
    obtain ⟨hi, hid⟩ := mem_runItems.mp hi
    obtain ⟨r, hr, hrid⟩ := h.raws i hi hid
    rw [← hrid, Table.lookup_mem hr]
    rfl
  unique := h.unique
  distinct i hi j hj hp := by
    obtain ⟨hi, hid⟩ := mem_runItems.mp hi
    obtain ⟨hj, hjd⟩ := mem_runItems.mp hj
    have hsame := h.apart i.content j.content (h.staged i hi hid) (h.staged j hj hjd) hp
    exact Table.eq_of_key_eq hi hj (Prod.ext (hid.trans hjd.symm) hsame)
  clear i hi m hm hp := by
    obtain ⟨hmem, hid⟩ := mem_stagedItems.mp hi
    exact ⟨i, hi, h.clear i.content (h.staged i hmem hid) m hm hp, le_rfl⟩
  publishable i hi := by
    obtain ⟨hi, hid⟩ := mem_runItems.mp hi
    exact h.publishable i.content (h.staged i hi hid)

/-- The active run after an update that leaves activity alone. -/
theorem activeRun_updateRuns {accountId : Uuid} {p : SyncRun → Bool} {f : SyncRun → SyncRun}
    {hf : ∀ r, (f r).runId = r.runId}
    (hactive : ∀ r, p r = true → (f r).activeFor accountId = r.activeFor accountId) :
    activeRun accountId (updateRuns p f hf db) =
      (activeRun accountId db).map fun r => if p r then f r else r := by
  have hsame : (SyncRun.activeFor accountId ∘ fun r => if p r then f r else r) =
      SyncRun.activeFor accountId := by
    funext r
    by_cases hp : p r = true
    · simp [hp, hactive r hp]
    · simp [hp]
  change ((db.syncRuns.rows.map fun r => if p r then f r else r).find?
    (SyncRun.activeFor accountId)) = _
  rw [List.find?_map, hsame]
  rfl

theorem Unused.updateRuns {u : Uuid} (h : Unused u db) {p : SyncRun → Bool} {f : SyncRun → SyncRun}
    {hf : ∀ r, (f r).runId = r.runId} : Unused u (updateRuns p f hf db) := by
  refine { h with runs := fun r hr => ?_ }
  obtain ⟨r', hr', rfl⟩ := mem_updateRuns.mp hr
  split
  · rw [hf]
    exact h.runs r' hr'
  · exact h.runs r' hr'

/-- A run that is resumed or suspended stands where it stood. -/
theorem Halfway.updateRuns (h : Halfway lib keys ctx token S ids walk db) {p : SyncRun → Bool}
    {f : SyncRun → SyncRun} {hf : ∀ r, (f r).runId = r.runId}
    (hactive : ∀ r, p r = true → (f r).activeFor ctx.accountId = r.activeFor ctx.accountId)
    (hwalk : ∀ r, (f r).walk = r.walk)
    (hgeneration : ∀ r, (f r).capabilityGenerationId = r.capabilityGenerationId) :
    Halfway lib keys ctx token S ids walk (InstagramArchive.updateRuns p f hf db) := by
  obtain ⟨run, hrun, hw, hg⟩ := h.run
  refine ⟨⟨if p run then f run else run, ?_, ?_, ?_⟩, h.current, h.credential, ?_,
    fun u hu => (h.unused u hu).updateRuns⟩
  · rw [activeRun_updateRuns hactive, hrun]
    rfl
  · split
    · rw [hwalk, hw]
    · exact hw
  · split
    · rw [hgeneration, hg]
    · exact hg
  · exact { h.unobstructed with }

theorem Halfway.suspend (h : Halfway lib keys ctx token S ids walk db) (reason : SyncRunReason)
    (now : Instant) : Halfway lib keys ctx token S ids walk (suspendRun walk.runId reason now db) := by
  refine h.updateRuns (fun r hr => ?_) (fun _ => rfl) (fun _ => rfl)
  simp only [SyncRun.runningAs, Bool.and_eq_true, decide_eq_true_eq] at hr
  simp [SyncRun.activeFor, hr.2, SyncRunStatus.active]

theorem Halfway.resume (h : Halfway lib keys ctx token S ids walk db) (now : Instant) :
    Halfway lib keys ctx token S ids walk (resumeRun walk.runId now db) := by
  refine h.updateRuns (fun r hr => ?_) (fun _ => rfl) (fun _ => rfl)
  simp only [Bool.and_eq_true, decide_eq_true_eq] at hr
  simp [SyncRun.activeFor, hr.2, SyncRunStatus.active]

theorem Halfway.mono (h : Halfway lib keys ctx token S ids walk db) (hids : ids' ⊆ ids) :
    Halfway lib keys ctx token S ids' walk db :=
  { h with unused := fun u hu => h.unused u (hids hu) }

/-- The run of the walk is running. -/
def Running (ctx : SyncContext) (walk : Walk) (db : Db) : Prop :=
  ∃ run ∈ activeRun ctx.accountId db, SyncRun.runningAs walk.runId run = true

theorem Halfway.running (h : Halfway lib keys ctx token S ids walk db) (now : Instant) :
    Running ctx walk (resumeRun walk.runId now db) := by
  obtain ⟨run, hrun, rfl, -⟩ := h.run
  obtain ⟨-, -, hactive⟩ := activeRun_eq_some hrun
  refine ⟨if run.runId = run.walk.runId && run.status = .retryable then
    { run with status := .running, outcomeReason := none, updatedAt := now } else run, ?_, ?_⟩
  · have hkeep : ∀ r : SyncRun, (decide (r.runId = run.walk.runId) && decide (r.status = .retryable)) =
        true → SyncRun.activeFor ctx.accountId
          { r with status := .running, outcomeReason := none, updatedAt := now } =
            r.activeFor ctx.accountId := by
      intro r hr
      simp only [Bool.and_eq_true, decide_eq_true_eq] at hr
      simp [SyncRun.activeFor, hr.2, SyncRunStatus.active]
    change activeRun ctx.accountId (resumeRun run.walk.runId now db) = _
    rw [resumeRun, activeRun_updateRuns hkeep, hrun]
    rfl
  · cases hstatus : run.status with
    | running => simp [SyncRun.runningAs, SyncRun.walk, hstatus]
    | retryable => simp [SyncRun.runningAs, SyncRun.walk]
    | completed | capabilityNoop | failed => simp [hstatus, SyncRunStatus.active] at hactive

/-- **After a page** the run stands one page further, and only the two identifiers of the page
are taken. -/
theorem Halfway.page {page : ProviderOwnMediaPage} {now : Instant} {first last : Env}
    (h : Halfway lib keys ctx token S ids walk db) (hrunning : Running ctx walk db)
    (hS : ∀ i ∈ page.items, S i.content) (hids : ∀ u ∈ ids', u ∈ ids ∧ u ≠ first.uuid 0 ∧
      u ≠ last.uuid 0) (hpage : PageAccepted lib walk page now first last db db') :
    Halfway lib keys ctx token S ids' (walk.after page) db' ∧ Running ctx (walk.after page) db' := by
  obtain ⟨raws, usage, hraws, rfl, husage⟩ := hpage.stored
  obtain ⟨run, hrun, hwalk, hgeneration⟩ := h.run
  obtain ⟨run', hrun', hstatus⟩ := hrunning
  obtain rfl : run = run' := Option.some.inj (hrun.symm.trans hrun')
  obtain ⟨hmem, -, -⟩ := activeRun_eq_some hrun
  have hraw : ∀ r ∈ db.rawRecords, r ∈ raws := by
    intro r hr
    rw [Table.mem_rows, hraws]
    exact List.mem_append_left _ hr
  have hactive : activeRun ctx.accountId
      (withPage walk.runId (last.uuid 0) page (walk.candidateAfter page) now raws
        { db with providerUsage := usage }) =
        some { run with
          nextCursor := page.nextCursor
          candidateWatermark := run.candidateWatermark <|> walk.candidateAfter page
          pageCount := run.pageCount + 1
          itemCount := run.itemCount + page.items.length
          updatedAt := now } := by
    rw [withPage, recordPage, activeRun_updateRuns]
    · change (activeRun ctx.accountId db).map _ = _
      rw [hrun]
      simp [hstatus]
    · exact fun _ _ => rfl
  constructor
  · refine ⟨⟨_, hactive, ?_, hgeneration⟩, h.current, h.credential, ?_, fun u hu => ?_⟩
    · subst hwalk
      simp only [SyncRun.walk, Walk.after, Walk.candidateAfter, Walk.mk.injEq, true_and, and_true]
      cases run.candidateWatermark <;> rfl
    · have ho := h.unobstructed
      refine { ho with staged := fun i hi hid => ?_, raws := fun i hi hid => ?_ }
      · rcases mem_stagedOnto hi with hi | ⟨item, hitem, rfl⟩
        · exact ho.staged i hi hid
        · exact hS item hitem
      · rcases mem_stagedOnto hi with hi | ⟨item, hitem, rfl⟩
        · obtain ⟨r, hr, hrid⟩ := ho.raws i hi hid
          exact ⟨r, hraw r hr, hrid⟩
        · refine ⟨rawPage lib page.rawBody now (last.uuid 0), ?_, rfl⟩
          change _ ∈ raws.rows
          rw [hraws]
          simp
    · obtain ⟨hu, hfirst, hlast⟩ := hids u hu
      have hunused := h.unused u hu
      have hrunId : walk.runId ≠ u := by
        rw [← hwalk]
        exact hunused.runs run hmem
      apply Unused.updateRuns
      refine { hunused with usage := fun r hr => ?_, items := fun i hi => ?_, raws := fun r hr => ?_ }
      · rcases husage r hr with ⟨r', hr', hid, hop⟩ | ⟨hid, hop⟩
        · rw [hid, hop]
          exact hunused.usage r' hr'
        · rw [hid, hop]
          exact ⟨fun he => hfirst he.symm, hrunId⟩
      · rcases mem_stagedOnto hi with hi | ⟨item, hitem, rfl⟩
        · exact hunused.items i hi
        · exact hrunId
      · change r ∈ raws.rows at hr
        rw [hraws, List.mem_append, List.mem_singleton] at hr
        rcases hr with hr | rfl
        · exact hunused.raws r hr
        · exact fun he => hlast he.symm
  · exact ⟨_, hactive, hstatus⟩

end Halfway

/-! ## The loop to its end -/

section Loop

variable {lib : Externals} {keys : CredentialKeyring} {config : OwnMediaSyncConfig}
  {ctx : SyncContext} {token : String} {now : Instant}
  {turns : Nat → Env × (OwnMediaRequest → OwnMediaAnswer)}
  {feed : Option String → ProviderOwnMediaPage} {S : OwnMediaContent → Prop} {later : Set Uuid}

/-- What the passes of a schedule take from outside: environments without failures whose
identifiers are drawn once, and the pages of a feed. -/
structure Tape (feed : Option String → ProviderOwnMediaPage) (later : Set Uuid)
    (turns : Nat → Env × (OwnMediaRequest → OwnMediaAnswer)) : Prop where
  quiet : ∀ n, (turns n).1.Quiet
  apart : ∀ n k n' k', (turns n).1.uuid k = (turns n').1.uuid k' → n = n' ∧ k = k'
  later : ∀ n k, (turns n).1.uuid k ∉ later
  answers : ∀ n request, (turns n).2 request = .ok (feed request.after)

/-- The identifiers of the turns from one on, and those of later passes. -/
def idsFrom (turns : Nat → Env × (OwnMediaRequest → OwnMediaAnswer)) (later : Set Uuid) (n : Nat) :
    Set Uuid := { u | u ∈ later ∨ ∃ m k, n ≤ m ∧ u = (turns m).1.uuid k }

theorem idsFrom_mono {n n' : Nat} (h : n ≤ n') : idsFrom turns later n' ⊆ idsFrom turns later n := by
  rintro u (hu | ⟨m, k, hm, rfl⟩)
  · exact Or.inl hu
  · exact Or.inr ⟨m, k, by omega, rfl⟩

theorem later_subset_idsFrom {n : Nat} : later ⊆ idsFrom turns later n := fun _ hu => Or.inl hu

/-- How a loop ends that had `k` pages to go: the run completed and its attempts sufficed, or
the run stands further on with what is left. -/
def LoopEnds (lib : Externals) (keys : CredentialKeyring) (config : OwnMediaSyncConfig)
    (ctx : SyncContext) (token : String) (feed : Option String → ProviderOwnMediaPage)
    (S : OwnMediaContent → Prop) (later : Set Uuid) (walk : Walk) (k pages : Nat) (db : Db)
    (result : Except OwnMediaSyncError OwnMediaSyncOutcome × Db × List SyncEvent) : Prop :=
  ((∃ w, SyncEvent.completed walk.runId w ∈ result.2.2) ∧ k ≤ attemptsLeft config walk.runId db) ∨
    ((∀ w, SyncEvent.completed walk.runId w ∉ result.2.2) ∧
      ∃ walk' k', walk'.runId = walk.runId ∧ Halfway lib keys ctx token S later walk' result.2.1 ∧
        PagesTo feed walk' k' ∧
        k' + lastAttempt walk.runId result.2.1 = k + lastAttempt walk.runId db ∧ k' ≤ k ∧
        (0 < pages → 0 < attemptsLeft config walk.runId db → k' < k))

theorem suspended_not_completed {runId : Uuid} :
    ∀ w, SyncEvent.completed runId w ∉ [SyncEvent.suspended runId] := by simp

/-- A loop that stops where it stands. -/
theorem LoopEnds.stopped {walk walk' : Walk} {k k' pages : Nat} {db db' : Db}
    {events : List SyncEvent} {result : Except OwnMediaSyncError OwnMediaSyncOutcome}
    (hevents : ∀ w, SyncEvent.completed walk.runId w ∉ events) (hid : walk'.runId = walk.runId)
    (h : Halfway lib keys ctx token S later walk' db') (hk : PagesTo feed walk' k')
    (hsum : k' + lastAttempt walk.runId db' = k + lastAttempt walk.runId db) (hle : k' ≤ k)
    (hlt : 0 < pages → 0 < attemptsLeft config walk.runId db → k' < k) :
    LoopEnds lib keys config ctx token feed S later walk k pages db (result, db', events) :=
  Or.inr ⟨hevents, walk', k', hid, h, hk, hsum, hle, hlt⟩

/-- What follows an accepted page ends the loop, when what follows does. -/
theorem LoopEnds.accepted {walk : Walk} {page : ProviderOwnMediaPage} {k pages pages' : Nat}
    {db db' : Db} {rest : Except OwnMediaSyncError OwnMediaSyncOutcome × Db × List SyncEvent}
    (h : LoopEnds lib keys config ctx token feed S later (walk.after page) k pages db' rest)
    (hattempts : lastAttempt walk.runId db' = lastAttempt walk.runId db + 1)
    (hleft : lastAttempt walk.runId db < min config.callBudget i32Max) :
    LoopEnds lib keys config ctx token feed S later walk (k + 1) pages' db
      (rest.1, rest.2.1, .accepted walk.runId walk.nextCursor page :: rest.2.2) := by
  rcases h with ⟨⟨w, hw⟩, hk⟩ | ⟨hnone, walk', k', hid, hhalf, hpages, hsum, hle, -⟩
  · refine Or.inl ⟨⟨w, List.mem_cons_of_mem _ hw⟩, ?_⟩
    change k ≤ min config.callBudget i32Max - lastAttempt walk.runId db' at hk
    unfold attemptsLeft
    omega
  · refine Or.inr ⟨fun w hw => ?_, walk', k', hid, hhalf, hpages, ?_, by omega, fun _ _ => by omega⟩
    · rcases List.mem_cons.mp hw with hw | hw
      · cases hw
      · exact hnone w hw
    · change k' + lastAttempt walk.runId rest.2.1 = k + lastAttempt walk.runId db' at hsum
      change k' + lastAttempt walk.runId rest.2.1 = _
      omega

/-- The completing page ends the loop with a completion. -/
theorem complete_completes (now : Instant) {walk : Walk} {n : Nat} {db : Db} (hq : (turns n).1.Quiet)
    (hinj : Function.Injective (turns n).1.uuid) (hdue : config.cadenceSeconds ≤ i64Max)
    (h : Halfway lib keys ctx token S (idsFrom turns later n) walk db) :
    SyncEvent.completed walk.runId walk.candidate ∈
      ((complete lib config ctx walk now).run turns n db).2.2 := by
  obtain ⟨run, hrun, hwalk, -⟩ := h.run
  obtain ⟨hmem, -, -⟩ := activeRun_eq_some hrun
  have hlookup : (db.syncRuns.lookup walk.runId).isSome := by
    rw [← hwalk]
    change (db.syncRuns.lookup run.runId).isSome
    rw [Table.lookup_mem hmem]
    rfl
  have hunused : ∀ k, Unused ((turns n).1.uuid k) db :=
    fun k => h.unused _ (Or.inr ⟨n, k, le_rfl, rfl⟩)
  have hends : (finalizeRun lib config ctx walk.runId walk.candidate now).Ends (turns n).1 ⟨db, 0⟩ _ :=
    finalizeRun_ends hq hinj ⟨fun k _ => (hunused k).media, fun k _ => (hunused k).revisions,
      fun k _ => (hunused k).events⟩ (h.unobstructed.completable hdue h.current hlookup)
  obtain ⟨_, ses', hexec, rfl⟩ := hends.exec
  unfold complete
  rw [Script.run_emit_ok hexec]
  simp

/-- **The page loop over a feed**, by induction on the pages it may take. -/
theorem loopAt_ends (ht : Tape feed later turns) (hdue : config.cadenceSeconds ≤ i64Max)
    (hfits : ∀ cursor, (feed cursor).Fits ctx.providerAccountId)
    (hS : ∀ cursor, ∀ i ∈ (feed cursor).items, S i.content) (pages : Nat) {n k : Nat} {walk : Walk}
    {db : Db} (h : Halfway lib keys ctx token S (idsFrom turns later n) walk db)
    (hrunning : Running ctx walk db) (hk : PagesTo feed walk k) :
    LoopEnds lib keys config ctx token feed S later walk k pages db
      ((loopAt lib config ctx token now config.callBudget pages walk db).run turns n db) := by
  induction pages generalizing n k walk db with
  | zero =>
    unfold loopAt traverse stopRetryable
    rw [Script.run_emit_ok (exec_execute (ht.quiet n) _ db)]
    exact .stopped suspended_not_completed rfl ((h.suspend _ now).mono later_subset_idsFrom) hk rfl
      le_rfl fun hpos => absurd hpos (by omega)
  | succ pages ih =>
    by_cases hleft : lastAttempt walk.runId db < min config.callBudget i32Max
    · obtain ⟨run, hrun, hwalk, -⟩ := h.run
      obtain ⟨hmem, -, -⟩ := activeRun_eq_some hrun
      have hlookup : (db.syncRuns.lookup walk.runId).isSome := by
        rw [← hwalk]
        change (db.syncRuns.lookup run.runId).isSome
        rw [Table.lookup_mem hmem]
        rfl
      have hunused : ∀ m, n ≤ m → Unused ((turns m).1.uuid 0) db :=
        fun m hm => h.unused _ (Or.inr ⟨m, 0, hm, rfl⟩)
      obtain ⟨db', rest, hpage, hrest, hloop⟩ := loopAt_accepts lib config token now walk db
        pages ht.quiet hleft (SyncContext.current_account h.current) hlookup (ht.answers (n + 1) _) (hfits _)
        (fun r hr => ((hunused n le_rfl).usage r hr).1) (hunused (n + 3) (by omega)).raws
      have hids : ∀ u ∈ idsFrom turns later (n + 4), u ∈ idsFrom turns later n ∧
          u ≠ (turns n).1.uuid 0 ∧ u ≠ (turns (n + 3)).1.uuid 0 := by
        intro u hu
        refine ⟨idsFrom_mono (by omega) hu, ?_, ?_⟩
        · rintro rfl
          rcases hu with hu | ⟨m, j, hm, heq⟩
          · exact ht.later n 0 hu
          · have := (ht.apart n 0 m j heq).1
            omega
        · rintro rfl
          rcases hu with hu | ⟨m, j, hm, heq⟩
          · exact ht.later (n + 3) 0 hu
          · have := (ht.apart (n + 3) 0 m j heq).1
            omega
      obtain ⟨hnext, hrunning'⟩ := h.page hrunning (hS _) hids hpage
      rw [hloop]
      -- what follows the page: a completion, the end of the feed, or the rest of the loop
      unfold continueWalk at hrest
      cases hk with
      | last hlast =>
        rw [if_pos hlast] at hrest
        have hcompleted := complete_completes now (ht.quiet (n + 4))
          (fun a b hab => (ht.apart _ a _ b hab).2) hdue hnext
        rw [hrest] at hcompleted
        refine Or.inl ⟨⟨_, List.mem_cons_of_mem _ hcompleted⟩, ?_⟩
        unfold attemptsLeft
        omega
      | @next _ k hmore hk =>
        rw [if_neg (by simp [hmore])] at hrest
        split at hrest
        · have hstopped : LoopEnds lib keys config ctx token feed S later
              (walk.after (feed walk.nextCursor)) k 0 db' rest := by
            unfold stopRetryable at hrest
            rw [Script.run_emit_ok (exec_execute (ht.quiet (n + 4)) _ db')] at hrest
            rw [← hrest]
            exact .stopped suspended_not_completed rfl
              ((hnext.suspend .pageLimit now).mono later_subset_idsFrom) hk rfl le_rfl
              fun hpos => absurd hpos (by omega)
          exact hstopped.accepted hpage.attempts hleft
        · have hrest' : LoopEnds lib keys config ctx token feed S later
              (walk.after (feed walk.nextCursor)) k pages db' rest := by
            rw [← hrest]
            exact ih hnext hrunning' hk
          exact hrest'.accepted hpage.attempts hleft
    · have hnone : ¬ 0 < attemptsLeft config walk.runId db := by
        unfold attemptsLeft
        omega
      rcases loopAt_spent lib config token now n walk db config.callBudget pages ht.quiet (by omega) with hloop | hloop
      · rw [hloop]
        exact .stopped suspended_not_completed rfl ((h.suspend _ now).mono later_subset_idsFrom) hk
          rfl le_rfl fun _ hpos => absurd hpos hnone
      · rw [hloop]
        exact .stopped (by simp) rfl (h.mono later_subset_idsFrom) hk rfl le_rfl
          fun _ hpos => absurd hpos hnone

end Loop

/-! ## Passes -/

/-- Passes one after the other, under one configuration and over one feed. -/
structure Schedule where
  keys : CredentialKeyring
  config : OwnMediaSyncConfig
  feed : Option String → ProviderOwnMediaPage
  now : Nat → Instant
  /-- The environment of a turn of a pass. -/
  env : Nat → Nat → Env

namespace Schedule

def pass (s : Schedule) (i : Nat) : Pass :=
  { keys := s.keys
    config := s.config
    now := s.now i
    turns := fun n => (s.env i n, fun request => .ok (s.feed request.after)) }

/-- The database a pass begins in. -/
def before (lib : Externals) (accountId : Uuid) (s : Schedule) (db : Db) (i : Nat) : Db :=
  afterPasses lib accountId ((List.range i).map s.pass) db

theorem before_succ (lib : Externals) (accountId : Uuid) (s : Schedule) (db : Db) (i : Nat) :
    s.before lib accountId db (i + 1) =
      ((s.pass i).perform lib accountId (s.before lib accountId db i)).2.1 := by
  simp [before, afterPasses, List.range_succ]

/-- One of the passes completes the run. -/
def Completes (lib : Externals) (accountId runId : Uuid) (s : Schedule) (db : Db) : Prop :=
  ∃ i w, SyncEvent.completed runId w ∈
    ((s.pass i).perform lib accountId (s.before lib accountId db i)).2.2

/-- The contents a run can come to stage. -/
def Stages (s : Schedule) (runId : Uuid) (db : Db) (c : OwnMediaContent) : Prop :=
  (∃ i ∈ runItems runId db, i.content = c) ∨ ∃ cursor, ∃ i ∈ (s.feed cursor).items, i.content = c

/-- What a schedule takes from outside. -/
structure Served (s : Schedule) (provider : String) (db : Db) : Prop where
  quiet : ∀ i n, (s.env i n).Quiet
  apart : ∀ i n k i' n' k', (s.env i n).uuid k = (s.env i' n').uuid k' → i = i' ∧ n = n' ∧ k = k'
  unused : ∀ i n k, Unused ((s.env i n).uuid k) db
  fits : ∀ cursor, (s.feed cursor).Fits provider

/-- The identifiers of the passes from one on. -/
def idsAfter (s : Schedule) (i : Nat) : Set Uuid := { u | ∃ j n k, i ≤ j ∧ u = (s.env j n).uuid k }

section Passes

variable {lib : Externals} {s : Schedule} {ctx : SyncContext} {token : String}
  {S : OwnMediaContent → Prop} {db : Db} {walk : Walk} {k : Nat}

theorem Served.tape {provider : String} (h : s.Served provider db) (i : Nat) :
    Tape s.feed (s.idsAfter (i + 1)) (s.pass i).turns where
  quiet n := h.quiet i n
  apart n k n' k' heq := (h.apart i n k i n' k' heq).2
  later n k := by
    rintro ⟨j, n', k', hj, heq⟩
    have := (h.apart i n k j n' k' heq).1
    omega
  answers _ _ := rfl

theorem idsAfter_eq (i : Nat) :
    idsFrom (s.pass i).turns (s.idsAfter (i + 1)) 0 ⊆ s.idsAfter i := by
  rintro u (⟨j, n, k, hj, rfl⟩ | ⟨n, k, -, rfl⟩)
  · exact ⟨j, n, k, by omega, rfl⟩
  · exact ⟨i, n, k, le_rfl, rfl⟩

/-- **One pass of a schedule** completes the run or moves it on. -/
theorem pass_ends {provider : Db} (h : s.Served ctx.providerAccountId provider)
    (hdue : s.config.cadenceSeconds ≤ i64Max) (hpages : 1 ≤ s.config.pagesPerRun)
    (hbudget : 1 ≤ s.config.callBudget)
    (hS : ∀ cursor, ∀ i ∈ (s.feed cursor).items, S i.content) (i : Nat)
    (hhalf : Halfway lib s.keys ctx token S (s.idsAfter i) walk db) (hk : PagesTo s.feed walk k) :
    LoopEnds lib s.keys s.config ctx token s.feed S (s.idsAfter (i + 1)) walk k
      s.config.pagesPerRun db ((s.pass i).perform lib ctx.accountId db) := by
  have ht := h.tape i
  have hready : (s.pass i).Ready ctx token db :=
    ⟨hhalf.current, hhalf.credential, hpages, hbudget⟩
  obtain ⟨run, hrun, hwalk, hgeneration⟩ := hhalf.run
  rw [hready.perform ht.quiet, hrun]
  obtain ⟨rest, heq, hrest⟩ := resumeActive_run lib s.config token (s.now i) 3 db ht.quiet hgeneration
  have hsub : idsFrom (s.pass i).turns (s.idsAfter (i + 1)) 5 ⊆ s.idsAfter i :=
    (idsFrom_mono (by omega)).trans (idsAfter_eq i)
  have hrunId : run.runId = walk.runId := by rw [← hwalk]; rfl
  have hresumed : Halfway lib s.keys ctx token S
      (idsFrom (s.pass i).turns (s.idsAfter (i + 1)) 5) walk (resumeRun run.runId (s.now i) db) := by
    rw [hrunId]
    exact (hhalf.mono hsub).resume (s.now i)
  have hrunning : Running ctx walk (resumeRun run.runId (s.now i) db) := by
    rw [hrunId]
    exact hhalf.running (s.now i)
  -- the resumption itself leaves attempts and pages as they are
  have hloop : LoopEnds lib s.keys s.config ctx token s.feed S (s.idsAfter (i + 1)) walk k
      s.config.pagesPerRun db rest := by
    rcases hrest with rfl | ⟨hover, rfl⟩
    · rw [hwalk]
      exact loopAt_ends ht hdue h.fits hS s.config.pagesPerRun hresumed hrunning hk
    · refine .stopped (by simp) rfl (hresumed.mono later_subset_idsFrom) hk rfl le_rfl ?_
      intro _ hpos
      have hi32 : i32Max < u32Max := by decide
      unfold attemptsLeft at hpos
      rw [hrunId] at hover
      omega
  change LoopEnds _ _ _ _ _ _ _ _ _ _ _ _
    ((resumeActive lib s.config ctx token (s.now i) run).run (s.pass i).turns 3 db)
  rw [heq]
  rcases hloop with ⟨⟨w, hw⟩, hle⟩ | ⟨hnone, hmoved⟩
  · exact Or.inl ⟨⟨w, List.mem_cons_of_mem _ hw⟩, hle⟩
  · refine Or.inr ⟨fun w hw => ?_, hmoved⟩
    rcases List.mem_cons.mp hw with hw | hw
    · cases hw
    · exact hnone w hw

/-- After any passes, one of them has completed the run or the run stands further on. -/
theorem before_cases {start : Db} (h : s.Served ctx.providerAccountId start)
    (hdue : s.config.cadenceSeconds ≤ i64Max) (hpages : 1 ≤ s.config.pagesPerRun)
    (hbudget : 1 ≤ s.config.callBudget)
    (hS : ∀ cursor, ∀ i ∈ (s.feed cursor).items, S i.content)
    (hhalf : Halfway lib s.keys ctx token S (s.idsAfter 0) walk db) (hk : PagesTo s.feed walk k)
    (i : Nat) :
    (∃ j < i, ∃ w, SyncEvent.completed walk.runId w ∈
        ((s.pass j).perform lib ctx.accountId (s.before lib ctx.accountId db j)).2.2) ∨
      ∃ walk' k', walk'.runId = walk.runId ∧
        Halfway lib s.keys ctx token S (s.idsAfter i) walk' (s.before lib ctx.accountId db i) ∧
        PagesTo s.feed walk' k' ∧
        k' + lastAttempt walk.runId (s.before lib ctx.accountId db i) =
          k + lastAttempt walk.runId db := by
  induction i with
  | zero => exact Or.inr ⟨walk, k, rfl, hhalf, hk, rfl⟩
  | succ i ih =>
    rcases ih with ⟨j, hj, hw⟩ | ⟨walk', k', hid, hhalf', hk', hsum⟩
    · exact Or.inl ⟨j, by omega, hw⟩
    · rcases pass_ends h hdue hpages hbudget hS i hhalf' hk' with
        ⟨hw, -⟩ | ⟨-, walk'', k'', hid', hhalf'', hk'', hsum', -⟩
      · rw [hid] at hw
        exact Or.inl ⟨i, by omega, hw⟩
      · refine Or.inr ⟨walk'', k'', hid'.trans hid, ?_, hk'', ?_⟩
        · rw [before_succ]
          exact hhalf''
        · rw [before_succ, ← hsum]
          rw [hid] at hsum'
          exact hsum'

/-- A run whose attempts suffice is completed, by strong induction on the pages to go. -/
theorem completes_of_le {start : Db} (h : s.Served ctx.providerAccountId start)
    (hdue : s.config.cadenceSeconds ≤ i64Max) (hpages : 1 ≤ s.config.pagesPerRun)
    (hbudget : 1 ≤ s.config.callBudget)
    (hS : ∀ cursor, ∀ i ∈ (s.feed cursor).items, S i.content) (i : Nat)
    (hhalf : Halfway lib s.keys ctx token S (s.idsAfter i) walk (s.before lib ctx.accountId db i))
    (hk : PagesTo s.feed walk k)
    (hle : k ≤ attemptsLeft s.config walk.runId (s.before lib ctx.accountId db i)) :
    s.Completes lib ctx.accountId walk.runId db := by
  induction k using Nat.strong_induction_on generalizing i walk with
  | h k ih =>
    have hpos := hk.pos
    rcases pass_ends h hdue hpages hbudget hS i hhalf hk with
      ⟨⟨w, hw⟩, -⟩ | ⟨-, walk', k', hid, hhalf', hk', hsum, -, hlt⟩
    · exact ⟨i, w, hw⟩
    · rw [← before_succ] at hhalf' hsum
      rw [← hid]
      refine ih k' (hlt (by omega) (by omega)) (i + 1) hhalf' hk' ?_
      unfold attemptsLeft at hle ⊢
      rw [hid]
      omega

/-- **A run completes after finitely many passes exactly when its attempts suffice.** -/
theorem completes_iff {start : Db} (h : s.Served ctx.providerAccountId start)
    (hdue : s.config.cadenceSeconds ≤ i64Max) (hpages : 1 ≤ s.config.pagesPerRun)
    (hbudget : 1 ≤ s.config.callBudget)
    (hS : ∀ cursor, ∀ i ∈ (s.feed cursor).items, S i.content)
    (hhalf : Halfway lib s.keys ctx token S (s.idsAfter 0) walk db) (hk : PagesTo s.feed walk k) :
    s.Completes lib ctx.accountId walk.runId db ↔ k ≤ attemptsLeft s.config walk.runId db := by
  constructor
  · intro hcompletes
    classical
    -- the first pass that completes the run found it standing with the same sum
    have hfirst := Nat.find_spec hcompletes
    rcases before_cases h hdue hpages hbudget hS hhalf hk (Nat.find hcompletes) with
      ⟨j, hj, hw⟩ | ⟨walk', k', hid, hhalf', hk', hsum⟩
    · exact (Nat.find_min hcompletes hj hw).elim
    · have hpos := hk'.pos
      rcases pass_ends h hdue hpages hbudget hS _ hhalf' hk' with ⟨-, hle⟩ | ⟨hnone, -⟩
      · rw [hid] at hle
        unfold attemptsLeft at hle ⊢
        omega
      · rw [hid] at hnone
        obtain ⟨w, hw⟩ := hfirst
        exact (hnone w hw).elim
  · intro hle
    exact completes_of_le h hdue hpages hbudget hS 0 hhalf hk hle

end Passes

end Schedule

/-- **Own-media runs make progress exactly while they have attempts left.** The next pass
accepts a page or completes the run when the account has no run, or one of the current
generation that has not spent the call budget. A run over a finite feed that still contains
its start watermark completes after finitely many passes when its attempts suffice for the
pages to go, and never otherwise. -/
theorem own_media_progress (lib : Externals) :
    (∀ (pass : Pass) (ctx : SyncContext) (token : String) (db : Db), pass.Ready ctx token db →
      pass.Served ctx.providerAccountId db →
        ((∃ e ∈ (pass.perform lib ctx.accountId db).2.2, e.advances = true) ↔
          CanAdvance pass.config ctx db)) ∧
      ∀ (s : Schedule) (ctx : SyncContext) (token : String) (db : Db) (run : SyncRun),
        (s.pass 0).Ready ctx token db → s.config.cadenceSeconds ≤ i64Max →
        s.Served ctx.providerAccountId db → activeRun ctx.accountId db = some run →
        run.capabilityGenerationId = ctx.generationId → FeedEnds s.feed run.nextCursor →
        (∀ w, run.startWatermark = some w → FeedContains s.feed w) →
        Unobstructed lib ctx.userRef run.runId (s.Stages run.runId db) db →
          ∃ k, PagesTo s.feed run.walk k ∧
            (s.Completes lib ctx.accountId run.runId db ↔
              k ≤ attemptsLeft s.config run.runId db) := by
  refine ⟨fun pass ctx token db hready hserved => hready.advances_iff hserved, ?_⟩
  intro s ctx token db run hready hdue hserved hrun hgeneration hends hcontains hopen
  have hends' : FeedEnds s.feed run.walk.nextCursor := hends
  obtain ⟨k, hk⟩ := PagesTo.of_finite hends' hcontains
  have hhalf : Halfway lib s.keys ctx token (s.Stages run.runId db) (s.idsAfter 0) run.walk db := by
    refine ⟨⟨run, hrun, rfl, hgeneration⟩, hready.current, hready.credential, hopen, ?_⟩
    rintro _ ⟨j, n, k, -, rfl⟩
    exact hserved.unused j n k
  exact ⟨k, hk, Schedule.completes_iff hserved hdue hready.pages hready.budget
    (fun cursor i hi => Or.inr ⟨cursor, i, hi, rfl⟩) hhalf hk⟩

/-! ### Two pages, one a pass -/

/-- A feed of two pages. -/
def twoPages : Option String → ProviderOwnMediaPage
  | none => ownPage ["b"] (some "c")
  | some _ => ownPage ["a"] none

/-- Passes over the two pages, one page each, under a call budget. -/
def pageAPass (callBudget : Nat) : Schedule where
  keys := plainKeys
  config := pageByPage callBudget
  feed := twoPages
  now _ := 0
  env i n :=
    { now := 0, wall := fun _ => 0, uuid := fun k => 1000 + 2 * Nat.pair i (Nat.pair n k),
      fault := fun _ => false }

/-- The database after one pass of a call budget over the first page. -/
def afterFirstPage (callBudget : Nat) : Db :=
  (({ pageAPass callBudget with
      env := fun _ n => quietEnv 0 (1001 + 32 * n) }.pass 0).perform reference 1 connectedDb).2.1

def pausedRun : SyncRun :=
  { runId := 1129, accountId := 1, userRef := 9, capabilityGenerationId := 5,
    candidateWatermark := some "b", nextCursor := some "c", status := .retryable,
    outcomeReason := some .pageLimit, pageCount := 1, itemCount := 1, startedAt := 0,
    updatedAt := 0 }

def pausedContext : SyncContext := ⟨1, 9, 5, "p"⟩

section TwoPages

variable {callBudget : Nat}

/-- Every identifier that the first pass drew is odd. -/
def OddIdentifiers (db : Db) : Prop :=
  (∀ r ∈ db.providerUsage.rows, r.usageId % 2 = 1 ∧ r.operationId % 2 = 1) ∧
    (∀ r ∈ db.syncRuns.rows, r.runId % 2 = 1) ∧ (∀ r ∈ db.syncItems.rows, r.runId % 2 = 1) ∧
    (∀ r ∈ db.rawRecords.rows, r.rawRecordId % 2 = 1) ∧
    (∀ r ∈ db.media.rows, r.mediaId % 2 = 1) ∧
    (∀ r ∈ db.mediaRevisions.rows, r.revisionId % 2 = 1) ∧
    ∀ r ∈ db.outboxEvents.rows, r.eventId % 2 = 1

instance (db : Db) : Decidable (OddIdentifiers db) := by
  unfold OddIdentifiers
  infer_instance

/-- What the first pass leaves: the run stands behind its first page, and nothing is published. -/
theorem afterFirstPage_facts (h : callBudget ∈ [1, 2]) :
    activeRun pausedContext.accountId (afterFirstPage callBudget) = some pausedRun ∧
      (pausedContext.current
          (readCapability pausedContext.accountId (afterFirstPage callBudget)) = true ∧
        readCredential pausedContext.accountId pausedContext.userRef (afterFirstPage callBudget) =
          some (pausedContext.providerAccountId, [116]) ∧ 1 ≤ callBudget) ∧
      OddIdentifiers (afterFirstPage callBudget) ∧
      (∀ i ∈ runItems pausedRun.runId (afterFirstPage callBudget),
        i.content = (ownItem "b" "https://www.instagram.com/p/b/" none).content) ∧
      (∀ i ∈ (afterFirstPage callBudget).syncItems.rows, i.runId = pausedRun.runId →
        ∃ r ∈ (afterFirstPage callBudget).rawRecords.rows, r.rawRecordId = i.rawRecordId) ∧
      (afterFirstPage callBudget).media.rows = [] := by
  revert callBudget
  decide +kernel

theorem pausedRun_active (h : callBudget ∈ [1, 2]) :
    activeRun pausedContext.accountId (afterFirstPage callBudget) = some pausedRun :=
  (afterFirstPage_facts h).1

theorem pageAPass_ready (h : callBudget ∈ [1, 2]) :
    ((pageAPass callBudget).pass 0).Ready pausedContext "t" (afterFirstPage callBudget) := by
  have hread := (afterFirstPage_facts h).2.1
  have hopen : plainKeys.openAccess pausedContext.accountId [116] = some "t" := rfl
  exact ⟨hread.1, ⟨[116], hread.2.1, hopen⟩, le_rfl, hread.2.2⟩

theorem twoPages_fits (cursor : Option String) :
    (twoPages cursor).Fits pausedContext.providerAccountId := by
  have hbody : "[]".utf8ByteSize ≤ i64Max := by decide
  have hpage : ∀ id next, (ownPage [id] next).Fits "p" := fun id next =>
    ⟨by simp [ownPage, ownItem], by simp [ownPage, ownItem], by simp [ownPage], hbody⟩
  cases cursor with
  | none => exact hpage "b" (some "c")
  | some cursor => exact hpage "a" none

/-- The identifiers of the first pass are odd, those of the schedule even. -/
theorem afterFirstPage_unused (h : callBudget ∈ [1, 2]) (i n k : Nat) :
    Unused (((pageAPass callBudget).env i n).uuid k) (afterFirstPage callBudget) := by
  have hodd : ∀ u : Nat, u % 2 = 1 → u ≠ 1000 + 2 * Nat.pair i (Nat.pair n k) := by omega
  obtain ⟨husage, hruns, hitems, hraws, hmedia, hrevisions, hevents⟩ :=
    (afterFirstPage_facts h).2.2.1
  exact ⟨fun r hr => ⟨hodd _ (husage r hr).1, hodd _ (husage r hr).2⟩,
    fun r hr => hodd _ (hruns r hr), fun r hr => hodd _ (hitems r hr),
    fun r hr => hodd _ (hraws r hr), fun r hr => hodd _ (hmedia r hr),
    fun r hr => hodd _ (hrevisions r hr), fun r hr => hodd _ (hevents r hr)⟩

theorem pageAPass_served (h : callBudget ∈ [1, 2]) :
    (pageAPass callBudget).Served pausedContext.providerAccountId (afterFirstPage callBudget) where
  quiet _ _ _ := rfl
  apart i n k i' n' k' heq := by
    have hpair : Nat.pair i (Nat.pair n k) = Nat.pair i' (Nat.pair n' k') := by
      change 1000 + 2 * Nat.pair i (Nat.pair n k) = 1000 + 2 * Nat.pair i' (Nat.pair n' k') at heq
      omega
    obtain ⟨hi, hnk⟩ := Nat.pair_eq_pair.mp hpair
    exact ⟨hi, Nat.pair_eq_pair.mp hnk⟩
  unused := afterFirstPage_unused h
  fits := twoPages_fits

theorem pageAPass_pass_served (h : callBudget ∈ [1, 2]) :
    ((pageAPass callBudget).pass 0).Served pausedContext.providerAccountId
      (afterFirstPage callBudget) where
  quiet _ _ := rfl
  apart n k n' k' heq := ((pageAPass_served h).apart 0 n k 0 n' k' heq).2
  unused := afterFirstPage_unused h 0
  answers _ request := ⟨twoPages request.after, rfl, twoPages_fits _⟩

/-- Both posts, and nothing else, can come to be staged. -/
theorem pageAPass_stages (h : callBudget ∈ [1, 2]) {c : OwnMediaContent}
    (hc : (pageAPass callBudget).Stages pausedRun.runId (afterFirstPage callBudget) c) :
    c = (ownItem "a" "https://www.instagram.com/p/a/" none).content ∨
      c = (ownItem "b" "https://www.instagram.com/p/b/" none).content := by
  rcases hc with ⟨i, hi, rfl⟩ | ⟨cursor, i, hi, rfl⟩
  · have hstaged : ∀ i ∈ runItems pausedRun.runId (afterFirstPage callBudget),
        i.content = (ownItem "b" "https://www.instagram.com/p/b/" none).content := by
      clear hi i
      revert callBudget
      decide +kernel
    exact Or.inr (hstaged i hi)
  · cases cursor with
    | none =>
      obtain rfl : i = ownItem "b" ("https://www.instagram.com/p/" ++ "b" ++ "/") none := by
        simpa [pageAPass, twoPages, ownPage] using hi
      exact Or.inr (by decide)
    | some cursor =>
      obtain rfl : i = ownItem "a" ("https://www.instagram.com/p/" ++ "a" ++ "/") none := by
        simpa [pageAPass, twoPages, ownPage] using hi
      exact Or.inl (by decide)

theorem pageAPass_unobstructed (h : callBudget ∈ [1, 2]) :
    Unobstructed reference pausedContext.userRef pausedRun.runId
      ((pageAPass callBudget).Stages pausedRun.runId (afterFirstPage callBudget))
      (afterFirstPage callBudget) where
  staged i hi hid := Or.inl ⟨i, mem_runItems.mpr ⟨hi, hid⟩, rfl⟩
  raws := (afterFirstPage_facts h).2.2.2.2.1
  publishable c hc := by
    have hcaption : c.caption = none := by
      rcases pageAPass_stages h hc with rfl | rfl <;> rfl
    exact ⟨rfl, fun text htext => absurd (hcaption.symm.trans htext) (by simp), fun _ _ _ _ _ => rfl⟩
  apart c c' hc hc' hp := by
    rcases pageAPass_stages h hc with rfl | rfl <;> rcases pageAPass_stages h hc' with rfl | rfl
    · rfl
    · exact absurd hp (by decide)
    · exact absurd hp (by decide)
    · rfl
  clear c hc m hm := by
    rw [Table.mem_rows, (afterFirstPage_facts h).2.2.2.2.2] at hm
    cases hm
  unique := by
    intro m hm
    rw [Table.mem_rows, (afterFirstPage_facts h).2.2.2.2.2] at hm
    cases hm

theorem twoPages_ends : FeedEnds (pageAPass callBudget).feed pausedRun.nextCursor := .last rfl

/-- **With two attempts** the second pass accepts the second page, and the run completes. -/
theorem own_media_progress_with_two_attempts :
    (∃ e ∈ (((pageAPass 2).pass 0).perform reference pausedContext.accountId
        (afterFirstPage 2)).2.2, e.advances = true) ∧
      (pageAPass 2).Completes reference pausedContext.accountId pausedRun.runId
        (afterFirstPage 2) := by
  have h : 2 ∈ [1, 2] := by decide
  have hprogress := own_media_progress reference
  constructor
  · exact (hprogress.1 _ pausedContext "t" _ (pageAPass_ready h) (pageAPass_pass_served h)).mpr
      (by decide +kernel)
  · obtain ⟨k, hk, hiff⟩ := hprogress.2 (pageAPass 2) pausedContext "t" (afterFirstPage 2) pausedRun
      (pageAPass_ready h) (by decide +kernel) (pageAPass_served h) (pausedRun_active h) rfl
      twoPages_ends (by simp [pausedRun]) (pageAPass_unobstructed h)
    refine hiff.mpr ?_
    have hone : k = 1 := by
      cases hk with
      | last => rfl
      | next hmore => exact absurd hmore (by decide)
    rw [hone]
    decide +kernel

/-- **With one attempt** the run has spent its budget on the first page: the provider goes on
answering, and neither the next pass nor any later one advances the run. -/
theorem own_media_progress_spent :
    ((pageAPass 1).pass 0).Ready pausedContext "t" (afterFirstPage 1) ∧
      ((pageAPass 1).pass 0).Served pausedContext.providerAccountId (afterFirstPage 1) ∧
      (∀ e ∈ (((pageAPass 1).pass 0).perform reference pausedContext.accountId
        (afterFirstPage 1)).2.2,
        e.advances = false) ∧
      FeedEnds (pageAPass 1).feed pausedRun.nextCursor ∧
      ¬ (pageAPass 1).Completes reference pausedContext.accountId pausedRun.runId
        (afterFirstPage 1) := by
  have h : 1 ∈ [1, 2] := by decide
  refine ⟨pageAPass_ready h, pageAPass_pass_served h, by decide +kernel, twoPages_ends, ?_⟩
  have hk : PagesTo (pageAPass 1).feed pausedRun.walk 1 := .last (by decide)
  have hhalf : Halfway reference (pageAPass 1).keys pausedContext "t"
      ((pageAPass 1).Stages pausedRun.runId (afterFirstPage 1)) ((pageAPass 1).idsAfter 0)
      pausedRun.walk (afterFirstPage 1) := by
    refine ⟨⟨pausedRun, pausedRun_active h, rfl, rfl⟩, (pageAPass_ready h).current,
      (pageAPass_ready h).credential, pageAPass_unobstructed h, ?_⟩
    rintro _ ⟨j, n, k, -, rfl⟩
    exact afterFirstPage_unused h j n k
  intro hcompletes
  have hle := (Schedule.completes_iff (pageAPass_served h) (by decide) le_rfl le_rfl
    (fun cursor i hi => Or.inr ⟨cursor, i, hi, rfl⟩) hhalf hk).mp hcompletes
  revert hle
  decide +kernel

end TwoPages

end InstagramArchive

import InstagramArchive.OwnMediaPages

/-!
# Progress of own-media runs

A pass over an account that may read its media accepts a page when it opens a run of its own,
and when it resumes a run of the current generation that has an attempt left. The attempts of
a run are counted over all of its passes: `ProviderBudget::resume` continues after the last
ordinal in the ledger, so a run that has spent the call budget is suspended by every further
pass and keeps the account's one active slot.
-/

namespace InstagramArchive

open Relational Relational.Tx

/-- The attempts a run has left. -/
def attemptsLeft (config : OwnMediaSyncConfig) (runId : Uuid) (db : Db) : Nat :=
  min config.callBudget i32Max - lastAttempt runId db

/-- Whether an event accepts a page or completes a run. -/
def SyncEvent.advances : SyncEvent → Bool
  | .accepted _ _ _ | .completed _ _ => true
  | _ => false

/-- A pass over an account that may read its media, whose provider answers. -/
structure Pass.Ready (pass : Pass) (ctx : SyncContext) (token : String) (db : Db) : Prop where
  current : ctx.current (readCapability ctx.accountId db) = true
  credential : ∃ envelope, readCredential ctx.accountId ctx.userRef db =
    some (ctx.providerAccountId, envelope) ∧ pass.keys.openAccess ctx.accountId envelope = some token
  pages : 1 ≤ pass.config.pagesPerRun
  budget : 1 ≤ pass.config.callBudget

/-- What a pass takes from outside: no connection fails, identifiers are drawn once, and the
provider answers every request with a page of the account. -/
structure Pass.Served (pass : Pass) (provider : String) (db : Db) : Prop where
  quiet : ∀ n, (pass.turns n).1.Quiet
  apart : ∀ n k n' k', (pass.turns n).1.uuid k = (pass.turns n').1.uuid k' → n = n' ∧ k = k'
  unused : ∀ n k, Unused ((pass.turns n).1.uuid k) db
  answers : ∀ n request, ∃ page, (pass.turns n).2 request = .ok page ∧ page.Fits provider

/-- The account's run can go on: there is none yet, or it is of the current generation and has
an attempt left. -/
def CanAdvance (config : OwnMediaSyncConfig) (ctx : SyncContext) (db : Db) : Prop :=
  ∀ run ∈ activeRun ctx.accountId db,
    run.capabilityGenerationId = ctx.generationId ∧ 0 < attemptsLeft config run.runId db

instance (config : OwnMediaSyncConfig) (ctx : SyncContext) (db : Db) :
    Decidable (CanAdvance config ctx db) :=
  inferInstanceAs (Decidable (∀ run ∈ activeRun ctx.accountId db,
    run.capabilityGenerationId = ctx.generationId ∧ 0 < attemptsLeft config run.runId db))

/-! ## The beginning of a pass -/

section Beginning

variable {lib : Externals} {pass : Pass} {ctx : SyncContext} {token : String} {db : Db}

theorem SyncContext.current_reads (h : ctx.current (readCapability ctx.accountId db) = true) :
    ∃ read, readCapability ctx.accountId db = some read ∧ read.userRef = ctx.userRef ∧
      read.providerAccountId = ctx.providerAccountId ∧ read.generationId = ctx.generationId ∧
      read.eligible = true := by
  cases hread : readCapability ctx.accountId db with
  | none => simp [hread, SyncContext.current] at h
  | some read =>
    simp only [hread, SyncContext.current, Option.any_some, Bool.and_eq_true, decide_eq_true_eq] at h
    obtain ⟨⟨⟨⟨huser, hprovider⟩, hconnected⟩, hgeneration⟩, havailable⟩ := h
    exact ⟨read, rfl, huser, hprovider, hgeneration, by simp [CapabilityRead.eligible, hconnected,
      havailable]⟩

/-- **A pass that may read reaches its run.** -/
theorem Pass.Ready.perform (h : pass.Ready ctx token db) (hq : ∀ n, (pass.turns n).1.Quiet) :
    pass.perform lib ctx.accountId db =
      match activeRun ctx.accountId db with
      | some run => (resumeActive lib pass.config ctx token pass.now run).run pass.turns 3 db
      | none => (startFresh lib pass.config ctx token pass.now).run pass.turns 3 db := by
  obtain ⟨read, hread, huser, -, hgeneration, heligible⟩ := SyncContext.current_reads h.current
  obtain ⟨envelope, hcredential, hopen⟩ := h.credential
  unfold Pass.perform runAccountOnce
  refine (Script.run_tx_ok (exec_query (hq 0) _ db)).trans ?_
  rw [hread]
  change (if read.eligible = true then runEligible lib pass.keys pass.config ctx.accountId
    read.userRef read.generationId pass.now else _ : SyncScript OwnMediaSyncOutcome).run _ _ _ = _
  rw [if_pos heligible, huser, hgeneration]
  unfold runEligible
  refine (Script.run_tx_ok (exec_query (hq 1) _ db)).trans ?_
  rw [hcredential]
  dsimp only
  rw [hopen]
  refine (Script.run_tx_ok (exec_query (hq 2) _ db)).trans ?_
  cases activeRun ctx.accountId db with
  | none => rfl
  | some run => rfl

/-- A resumption restores the budget after the last attempt, or fails beyond the ordinals. -/
theorem ProviderBudget.resume_exec {env : Env} (hq : env.Quiet) (runId accountId : Uuid)
    (limit : Nat) (db : Db) :
    (lastAttempt runId db < u32Max ∧
        ((ProviderBudget.resume runId (some accountId) limit).mapError
          OwnMediaSyncError.budget).exec env db =
          (.ok (budgetOf runId accountId limit (lastAttempt runId db)), db)) ∨
      (u32Max ≤ lastAttempt runId db ∧
        ((ProviderBudget.resume runId (some accountId) limit).mapError
          OwnMediaSyncError.budget).exec env db = (.error (.budget .invalidMetadata), db)) := by
  by_cases hle : lastAttempt runId db + 1 ≤ u32Max
  · have hends : (ProviderBudget.resume runId (some accountId) limit).Ends env ⟨db, 0⟩
        fun budget ses' => budget = budgetOf runId accountId limit (lastAttempt runId db) ∧
          ses'.store = db := by
      refine .bind (.query hq ?_)
      rw [if_pos hle]
      exact .pure ⟨rfl, rfl⟩
    obtain ⟨_, ses', hexec, rfl, hstore⟩ := (hends.mapError (g := OwnMediaSyncError.budget)).exec
    rw [hstore] at hexec
    exact Or.inl ⟨hle, hexec⟩
  · have hstops : (ProviderBudget.resume runId (some accountId) limit).Stops env ⟨db, 0⟩
        .invalidMetadata := by
      refine Ends.stops (.query (Q := fun previous _ => previous = lastAttempt runId db) hq rfl) ?_
      rintro _ _ rfl
      rw [if_neg hle]
      rfl
    exact Or.inr ⟨by omega, (hstops.mapError (g := OwnMediaSyncError.budget)).exec⟩

/-- A spent budget ends the loop without a request. -/
theorem loopAt_spent (lib : Externals) (config : OwnMediaSyncConfig) (token : String)
    (now : Instant) {turns : Nat → Env × (OwnMediaRequest → OwnMediaAnswer)} (n : Nat) (walk : Walk) (db : Db)
    (limit pages : Nat) (hq : ∀ n, (turns n).1.Quiet)
    (hspent : min limit i32Max ≤ lastAttempt walk.runId db) :
    (loopAt lib config ctx token now limit (pages + 1) walk db).run turns n db =
        (.ok (.retryable walk.runId walk.nextCursor), suspendRun walk.runId .budgetExhausted now db,
          [.suspended walk.runId]) ∨
      (loopAt lib config ctx token now limit (pages + 1) walk db).run turns n db =
        (.error (.budget .invalidMetadata), db, []) := by
  unfold loopAt traverse
  generalize lastAttempt walk.runId db = attempts at hspent
  by_cases hexhausted : (budgetOf walk.runId ctx.accountId limit attempts).exhausted = true
  · rw [if_pos hexhausted]
    exact Or.inl (Script.run_emit_ok (exec_execute (hq n) _ db))
  · rw [if_neg hexhausted]
    refine Or.inr (Script.run_tx_error ?_)
    have hlimit : ¬ limit < attempts + 1 := fun hlt => hexhausted (decide_eq_true hlt)
    have hordinal : i32Max < (budgetOf walk.runId ctx.accountId limit attempts).nextOrdinal := by
      change i32Max < attempts + 1
      omega
    have hstops : ((budgetOf walk.runId ctx.accountId limit attempts).reserve .ownMediaPage
        now).Stops (turns n).1 ⟨db, 0⟩ .invalidMetadata := by
      unfold ProviderBudget.reserve
      rw [if_neg hexhausted, if_pos hordinal]
      rfl
    exact (hstops.mapError (g := OwnMediaSyncError.budget)).exec

theorem copyVisible_ends {env : Env} (ses : Session Db) {accountId runId : Uuid} (hq : env.Quiet)
    (hid : ∀ i ∈ ses.store.syncItems, i.runId ≠ runId) :
    (copyVisible accountId runId).Ends env ses fun _ ses' =>
      ∃ items, ses'.store = { ses.store with syncItems := items } := by
  have hnodup : (((visibleItems accountId ses.store).map fun i => { i with runId }).map
      SyncItem.key).Nodup := by
    have hpids : ((visibleItems accountId ses.store).map SyncItem.providerMediaId).Nodup := by
      unfold visibleItems
      split
      · exact (((List.perm_insertionSort _ _).map _).nodup_iff).mp stagedItems_nodup
      · exact List.nodup_nil
    rw [List.Nodup, List.pairwise_map] at hpids
    rw [List.map_map, List.Nodup, List.pairwise_map]
    exact hpids.imp fun hne hkey => hne (congrArg Prod.snd hkey)
  obtain ⟨items, hitems⟩ := Table.insertAll?_isSome hnodup fun x hx r hr hkey => by
    obtain ⟨i, -, rfl⟩ := List.mem_map.mp hr
    exact hid x hx (congrArg Prod.fst hkey)
  exact .statement hq (by rw [hitems]) ⟨items, rfl⟩

theorem openRun_ends {env : Env} {ses : Session Db} {accountId userRef generationId : Uuid}
    {watermark : Option String} {now : Instant} (hq : env.Quiet)
    (hidle : activeRun accountId ses.store = none)
    (haccount : (ses.store.accounts.lookup accountId).isSome)
    (hid : Unused (env.uuid ses.tick) ses.store) :
    (openRun accountId userRef generationId watermark now).Ends env ses fun runId ses' =>
      runId = env.uuid ses.tick ∧ ∃ runs items,
        runs.rows = ses.store.syncRuns.rows ++
          [openedRun accountId userRef generationId watermark now runId] ∧
        ses'.store = { ses.store with syncRuns := runs, syncItems := items } := by
  have haccount' : (ses.store.accounts.lookup accountId).isNone = false := by
    simpa [Option.isNone_iff_eq_none, Option.isSome_iff_ne_none] using haccount
  refine .bind (.nowV7 (.bind (.insertInto hq ?_ hid.runs fun runs hruns => ?_)))
  · simp [runGuard, hidle, haccount']
  · refine .bind (Ends.mono (copyVisible_ends _ hq ?_) ?_)
    · exact hid.items
    rintro _ ⟨_, tick⟩ ⟨items, rfl⟩
    refine .bind (.commit hq (.pure ⟨rfl, runs, items, ?_, rfl⟩))
    exact (Table.insert?_eq_some hruns).1

end Beginning

/-! ## The next pass -/

section Next

variable {lib : Externals} {pass : Pass} {ctx : SyncContext} {token : String} {db : Db}

/-- The walk a run stands at. -/
def SyncRun.walk (run : SyncRun) : Walk :=
  ⟨run.runId, run.startWatermark, run.candidateWatermark, run.nextCursor⟩

theorem lookup_updateRuns (p : SyncRun → Bool) (f : SyncRun → SyncRun)
    (hf : ∀ r, (f r).runId = r.runId) (runId : Uuid) (db : Db) :
    ((updateRuns p f hf db).syncRuns.lookup runId).isSome = (db.syncRuns.lookup runId).isSome := by
  change ((db.syncRuns.update p f hf).lookup runId).isSome = _
  rw [Table.lookup_update, Option.isSome_map]

/-- A resumption reaches the loop, or fails beyond the ordinals. -/
theorem resumeActive_run (lib : Externals) (config : OwnMediaSyncConfig) (token : String)
    (now : Instant) (n : Nat) (db : Db) {turns : Nat → Env × (OwnMediaRequest → OwnMediaAnswer)}
    {run : SyncRun} (hq : ∀ n, (turns n).1.Quiet) (hgeneration : run.capabilityGenerationId = ctx.generationId) :
    ∃ rest, (resumeActive lib config ctx token now run).run turns n db =
        (rest.1, rest.2.1, .resumed run.runId :: rest.2.2) ∧
      (rest = (loopAt lib config ctx token now config.callBudget config.pagesPerRun run.walk
          (resumeRun run.runId now db)).run turns (n + 2) (resumeRun run.runId now db) ∨
        (u32Max ≤ lastAttempt run.runId db ∧
          rest = (.error (.budget .invalidMetadata), resumeRun run.runId now db, []))) := by
  unfold resumeActive
  rw [if_neg (by simp [hgeneration])]
  refine ⟨_, Script.run_emit_ok (exec_execute (hq n) _ db), ?_⟩
  rcases ProviderBudget.resume_exec (hq (n + 1)) run.runId ctx.accountId config.callBudget
    (resumeRun run.runId now db) with ⟨-, hexec⟩ | ⟨hover, hexec⟩
  · exact Or.inl (Script.run_tx_ok hexec)
  · exact Or.inr ⟨hover, Script.run_tx_error hexec⟩

/-- A resumed run accepts a page exactly while it has an attempt left. -/
theorem Pass.Ready.resumed_advances_iff (h : pass.Ready ctx token db) (hs : pass.Served ctx.providerAccountId db)
    {run : SyncRun} (hactive : activeRun ctx.accountId db = some run)
    (hgeneration : run.capabilityGenerationId = ctx.generationId) :
    (∃ e ∈ ((resumeActive lib pass.config ctx token pass.now run).run pass.turns 3 db).2.2,
        e.advances = true) ↔ 0 < attemptsLeft pass.config run.runId db := by
  obtain ⟨hmem, -, -⟩ := activeRun_eq_some hactive
  obtain ⟨rest, heq, hrest⟩ := resumeActive_run lib pass.config token pass.now 3 db hs.quiet
    hgeneration
  have hsame : lastAttempt run.walk.runId (resumeRun run.runId pass.now db) =
    lastAttempt run.runId db := rfl
  have hi32 : i32Max < u32Max := by decide
  obtain ⟨pages, hpages⟩ := Nat.exists_eq_add_of_le' h.pages
  rw [heq]
  unfold attemptsLeft
  by_cases hleft : lastAttempt run.runId db < min pass.config.callBudget i32Max
  · refine ⟨fun _ => by omega, fun _ => ?_⟩
    rcases hrest with rfl | ⟨hover, -⟩
    · obtain ⟨page, hanswer, hfits⟩ := hs.answers 6 ⟨ctx.providerAccountId, token, run.nextCursor⟩
      have hrun : ((resumeRun run.runId pass.now db).syncRuns.lookup run.walk.runId).isSome := by
        rw [resumeRun, lookup_updateRuns]
        change (db.syncRuns.lookup run.runId).isSome
        rw [Table.lookup_mem hmem]
        rfl
      obtain ⟨db', rest, -, -, hloop⟩ := loopAt_accepts lib pass.config token pass.now run.walk
        (resumeRun run.runId pass.now db) pages hs.quiet (by rw [hsame]; exact hleft)
        (SyncContext.current_account h.current) hrun hanswer hfits
        (fun r hr => ((hs.unused 5 0).usage r hr).1) (hs.unused 8 0).raws
      rw [hpages, hloop]
      exact ⟨.accepted run.runId run.nextCursor page, by simp [SyncRun.walk], rfl⟩
    · omega
  · refine ⟨?_, fun hpos => by omega⟩
    rintro ⟨e, he, hadvances⟩
    have hspent : rest.2.2 = [] ∨ rest.2.2 = [.suspended run.runId] := by
      rcases hrest with rfl | ⟨-, rfl⟩
      · rw [hpages]
        rcases loopAt_spent lib pass.config token pass.now 5 run.walk
          (resumeRun run.runId pass.now db) pass.config.callBudget pages hs.quiet (by rw [hsame]; omega) with hloop | hloop
        · rw [hloop]
          exact Or.inr rfl
        · rw [hloop]
          exact Or.inl rfl
      · exact Or.inl rfl
    rcases hspent with hspent | hspent
    · rw [hspent] at he
      simp only [List.mem_singleton] at he
      subst he
      cases hadvances
    · rw [hspent] at he
      simp only [List.mem_cons, List.not_mem_nil, or_false] at he
      rcases he with rfl | rfl
      · cases hadvances
      · cases hadvances

/-- A pass that opens a run accepts its first page. -/
theorem Pass.Ready.fresh_advances (h : pass.Ready ctx token db) (hs : pass.Served ctx.providerAccountId db)
    (hidle : activeRun ctx.accountId db = none) :
    ∃ e ∈ ((startFresh lib pass.config ctx token pass.now).run pass.turns 3 db).2.2,
      e.advances = true := by
  have hopen : (openRun ctx.accountId ctx.userRef ctx.generationId (syncWatermark ctx.accountId db)
      pass.now).Ends (pass.turns 4).1 ⟨db, 0⟩ _ :=
    openRun_ends (hs.quiet 4) hidle (SyncContext.current_account h.current) (hs.unused 4 0)
  obtain ⟨_, ⟨_, n⟩, hopened, rfl, runs, items, hrows, rfl⟩ := hopen.exec
  let walk : Walk := ⟨(pass.turns 4).1.uuid 0, syncWatermark ctx.accountId db, none, none⟩
  let opened : Db := { db with syncRuns := runs, syncItems := items }
  -- no attempt carries the identifier of the new run
  have hattempts : lastAttempt walk.runId opened = 0 := by
    have hnone : (db.providerUsage.rows.filter fun u => u.operationId = walk.runId) = [] := by
      refine List.filter_eq_nil_iff.mpr fun u hu hid => ?_
      exact ((hs.unused 4 0).usage u hu).2 (by simpa using hid)
    change ((db.providerUsage.rows.filter fun u => u.operationId = walk.runId).map
      ProviderUsage.attemptOrdinal).foldr max 0 = 0
    rw [hnone]
    rfl
  have hrun : (opened.syncRuns.lookup walk.runId).isSome := by
    have hmem : openedRun ctx.accountId ctx.userRef ctx.generationId
        (syncWatermark ctx.accountId db) pass.now walk.runId ∈ opened.syncRuns := by
      change _ ∈ runs.rows
      rw [hrows]
      simp [walk]
    rw [show walk.runId = (openedRun ctx.accountId ctx.userRef ctx.generationId
      (syncWatermark ctx.accountId db) pass.now walk.runId).runId from rfl, Table.lookup_mem hmem]
    rfl
  obtain ⟨pages, hpages⟩ := Nat.exists_eq_add_of_le' h.pages
  obtain ⟨page, hanswer, hfits⟩ := hs.answers 6 ⟨ctx.providerAccountId, token, none⟩
  have hi32 : 0 < i32Max := by decide
  have hbudget := h.budget
  have hleft : lastAttempt walk.runId opened < min pass.config.callBudget i32Max := by
    rw [hattempts]
    omega
  obtain ⟨db', rest, -, -, hloop⟩ := loopAt_accepts lib pass.config token pass.now walk opened
    pages hs.quiet hleft
    (SyncContext.current_account h.current) hrun hanswer hfits
    (fun r hr => ((hs.unused 5 0).usage r hr).1) (hs.unused 8 0).raws
  unfold startFresh
  rw [Script.run_tx_ok (exec_query (hs.quiet 3) _ db), Script.run_emit_ok hopened]
  have hloop' : (traverse lib pass.config ctx token pass.now pass.config.pagesPerRun
      (ProviderBudget.new walk.runId (some ctx.accountId) pass.config.callBudget) walk).run
        pass.turns 5 opened =
          (rest.1, rest.2.1, .accepted walk.runId none page :: rest.2.2) := by
    have hsame : budgetOf walk.runId ctx.accountId pass.config.callBudget
        (lastAttempt walk.runId opened) =
          ProviderBudget.new walk.runId (some ctx.accountId) pass.config.callBudget := by
      rw [hattempts]
      rfl
    unfold loopAt at hloop
    rw [hsame] at hloop
    rw [hpages]
    exact hloop
  refine ⟨.accepted walk.runId none page, List.mem_append_right _ ?_, rfl⟩
  change SyncEvent.accepted walk.runId none page ∈ ((traverse lib pass.config ctx token pass.now
    pass.config.pagesPerRun (ProviderBudget.new walk.runId (some ctx.accountId)
      pass.config.callBudget) walk).run pass.turns 5 opened).2.2
  rw [hloop']
  exact List.mem_cons_self

/-- **The next pass** accepts a page or completes the run exactly when the run can go on. -/
theorem Pass.Ready.advances_iff (h : pass.Ready ctx token db) (hs : pass.Served ctx.providerAccountId db) :
    (∃ e ∈ (pass.perform lib ctx.accountId db).2.2, e.advances = true) ↔
      CanAdvance pass.config ctx db := by
  rw [h.perform hs.quiet]
  unfold CanAdvance
  cases hactive : activeRun ctx.accountId db with
  | none =>
    simp only [Option.mem_def, reduceCtorEq, false_implies, implies_true, iff_true]
    exact h.fresh_advances hs hactive
  | some run =>
    simp only [Option.mem_def, Option.some.injEq, forall_eq']
    by_cases hgeneration : run.capabilityGenerationId = ctx.generationId
    · rw [h.resumed_advances_iff hs hactive hgeneration]
      simp [hgeneration]
    · unfold resumeActive
      rw [if_pos hgeneration]
      simp [hgeneration, Script.fail, Script.run]

end Next

/-! ## Feeds -/

/-- The number of pages to the first one that completes the walk. -/
inductive PagesTo (feed : Option String → ProviderOwnMediaPage) : Walk → Nat → Prop
  | last {walk : Walk} (h : walk.completes (feed walk.nextCursor) = true) : PagesTo feed walk 1
  | next {walk : Walk} {k : Nat} (h : walk.completes (feed walk.nextCursor) = false)
      (rest : PagesTo feed (walk.after (feed walk.nextCursor)) k) : PagesTo feed walk (k + 1)

/-- The feed ends after finitely many pages from a cursor on. -/
inductive FeedEnds (feed : Option String → ProviderOwnMediaPage) : Option String → Prop
  | last {cursor : Option String} (h : (feed cursor).nextCursor = none) : FeedEnds feed cursor
  | next {cursor : Option String} {after : String} (h : (feed cursor).nextCursor = some after)
      (rest : FeedEnds feed (some after)) : FeedEnds feed cursor

/-- Reading on from one cursor asks at the other. -/
inductive ReadsOn (feed : Option String → ProviderOwnMediaPage) : Option String → Option String → Prop
  | here (cursor : Option String) : ReadsOn feed cursor cursor
  | next {cursor target : Option String} {after : String}
      (h : (feed cursor).nextCursor = some after) (rest : ReadsOn feed (some after) target) :
      ReadsOn feed cursor target

/-- The feed still contains the identity. -/
def FeedContains (feed : Option String → ProviderOwnMediaPage) (id : String) : Prop :=
  ∃ cursor, ReadsOn feed none cursor ∧ ∃ i ∈ (feed cursor).items, i.providerMediaId = id

section Feeds

variable {feed : Option String → ProviderOwnMediaPage} {walk : Walk} {k : Nat}

theorem PagesTo.pos (h : PagesTo feed walk k) : 0 < k := by
  cases h <;> omega

theorem Walk.completes_of_mem {w : String} {page : ProviderOwnMediaPage}
    (hw : walk.oldWatermark = some w) (h : ∃ i ∈ page.items, i.providerMediaId = w) :
    walk.completes page = true := by
  obtain ⟨i, hi, hid⟩ := h
  have hreached : walk.reached page = true := by
    simp only [Walk.reached, hw, Option.any_some, List.any_eq_true]
    exact ⟨i, hi, by simpa using hid⟩
  simp [Walk.completes, hreached]

/-- From a place before the watermark the walk reaches it. -/
theorem PagesTo.of_readsOn {w : String} {target : Option String} (hw : walk.oldWatermark = some w)
    (hitems : ∃ i ∈ (feed target).items, i.providerMediaId = w)
    (h : ReadsOn feed walk.nextCursor target) : ∃ k, PagesTo feed walk k := by
  generalize hcursor : walk.nextCursor = cursor at h
  induction h generalizing walk with
  | here cursor =>
    subst hcursor
    exact ⟨1, .last (Walk.completes_of_mem hw hitems)⟩
  | next hnext rest ih =>
    subst hcursor
    cases hcompletes : walk.completes (feed walk.nextCursor) with
    | true => exact ⟨1, .last hcompletes⟩
    | false =>
      have hafter : (walk.after (feed walk.nextCursor)).oldWatermark = some w := hw
      obtain ⟨k, hk⟩ := ih hafter hitems hnext
      exact ⟨k + 1, .next hcompletes hk⟩

/-- **Over a finite feed that still contains the start watermark** a walk completes: at the end
of the feed the next request starts over at the top. -/
theorem PagesTo.of_finite (hends : FeedEnds feed walk.nextCursor)
    (hcontains : ∀ w, walk.oldWatermark = some w → FeedContains feed w) :
    ∃ k, PagesTo feed walk k := by
  generalize hcursor : walk.nextCursor = cursor at hends
  induction hends generalizing walk with
  | last hend =>
    subst hcursor
    cases hcompletes : walk.completes (feed walk.nextCursor) with
    | true => exact ⟨1, .last hcompletes⟩
    | false =>
      cases hw : walk.oldWatermark with
      | none => simp [Walk.completes, Walk.reached, hw, hend] at hcompletes
      | some w =>
        obtain ⟨target, hreads, hitems⟩ := hcontains w hw
        have hafter : (walk.after (feed walk.nextCursor)).oldWatermark = some w := hw
        have htop : ReadsOn feed (walk.after (feed walk.nextCursor)).nextCursor target := by
          change ReadsOn feed (feed walk.nextCursor).nextCursor target
          rw [hend]
          exact hreads
        obtain ⟨k, hk⟩ := PagesTo.of_readsOn hafter hitems htop
        exact ⟨k + 1, .next hcompletes hk⟩
  | next hnext rest ih =>
    subst hcursor
    cases hcompletes : walk.completes (feed walk.nextCursor) with
    | true => exact ⟨1, .last hcompletes⟩
    | false =>
      have hafter : (walk.after (feed walk.nextCursor)).nextCursor = some _ := hnext
      have hcontains' : ∀ w, (walk.after (feed walk.nextCursor)).oldWatermark = some w →
          FeedContains feed w := hcontains
      obtain ⟨k, hk⟩ := ih hcontains' hafter
      exact ⟨k + 1, .next hcompletes hk⟩

end Feeds

end InstagramArchive

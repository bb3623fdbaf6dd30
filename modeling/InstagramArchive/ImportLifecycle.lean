import InstagramArchive.ImportStages
import InstagramArchive.Reference
import InstagramArchive.Relational.Execution

/-!
# The life of an import run

Any number of workers and callers take the stages of the same runs, each step interleaved with
every other. A stage moves its run only from the state it checked in the same transaction, so
whoever comes second aborts. What a run has recorded is therefore the path it went: its
transitions are the edges of the path, its staged rows those of the one stage that parsed it, its
report that of the one that reconciled it.
-/

namespace InstagramArchive.DataExport

open Relational Relational.Tx Relational.Script

/-! ## Paths -/

/-- An edge of the state machine and the ordinal of its transition. -/
inductive Stage : Nat → ImportState → ImportState → Prop
  | inspect : Stage 2 .received .inspected
  | refuse : Stage 2 .received .failed
  | parse : Stage 3 .inspected .parsed
  | failParse : Stage 3 .inspected .failed
  | reconcile : Stage 4 .parsed .reconciled

/-- The states of a run that is not refused. -/
def importStages : List ImportState := [.received, .inspected, .parsed, .reconciled]

/-- The states a run has been in. -/
def runPaths : List (List ImportState) :=
  [[.received], [.received, .inspected], [.received, .inspected, .parsed], importStages,
    [.received, .failed], [.received, .inspected, .failed]]

/-- The edges of a path with their ordinals. -/
def edges (path : List ImportState) : List (Nat × Option ImportState × ImportState) :=
  (List.range' 1 path.length).zip ((none :: path.map some).zip path)

section Paths

variable {path : List ImportState} {n : Nat} {source target : ImportState}

theorem Stage.extends (h : Stage n source target) (hpath : path ∈ runPaths)
    (hlast : path.getLast? = some source) :
    path ++ [target] ∈ runPaths ∧
      edges (path ++ [target]) = edges path ++ [(n, some source, target)] := by
  simp only [runPaths, List.mem_cons, List.not_mem_nil, or_false] at hpath
  rcases hpath with rfl | rfl | rfl | rfl | rfl | rfl <;> cases h <;>
    first
    | exact ⟨by decide, rfl⟩
    | cases hlast

/-- A state is entered once. -/
theorem Stage.target_not_mem (h : Stage n source target) (hpath : path ∈ runPaths)
    (hlast : path.getLast? = some source) : target ∉ path := by
  simp only [runPaths, List.mem_cons, List.not_mem_nil, or_false] at hpath
  rcases hpath with rfl | rfl | rfl | rfl | rfl | rfl <;> cases h <;>
    first
    | decide
    | cases hlast

/-- A path is a prefix of the stages, or such a prefix and a failure. -/
theorem runPaths_prefix (h : path ∈ runPaths) :
    path <+: importStages ∨ ∃ p, p ≠ [] ∧ p <+: importStages ∧ path = p ++ [.failed] := by
  simp only [runPaths, List.mem_cons, List.not_mem_nil, or_false] at h
  rcases h with rfl | rfl | rfl | rfl | rfl | rfl
  · exact Or.inl (by decide)
  · exact Or.inl (by decide)
  · exact Or.inl (by decide)
  · exact Or.inl (by decide)
  · exact Or.inr ⟨[.received], by decide, by decide, rfl⟩
  · exact Or.inr ⟨[.received, .inspected], by decide, by decide, rfl⟩

/-- A run is reconciled from parsed, and a run that was parsed does not fail. -/
theorem parsed_mem_iff (hpath : path ∈ runPaths) {state : ImportState}
    (hlast : path.getLast? = some state) :
    (.parsed ∈ path ↔ state = .parsed ∨ state = .reconciled) ∧
      (.reconciled ∈ path ↔ state = .reconciled) := by
  simp only [runPaths, List.mem_cons, List.not_mem_nil, or_false] at hpath
  rcases hpath with rfl | rfl | rfl | rfl | rfl | rfl <;> cases hlast <;> decide

theorem Stage.pending (h : Stage n source target) : ImportState.pending source = true := by
  cases h <;> rfl

end Paths

/-! ## The rows of a run -/

def runTransitions (runId : Uuid) (db : Db) : List ImportRunTransition :=
  db.importRunTransitions.rows.filter fun t => t.runId = runId

def runRecords (runId : Uuid) (db : Db) : List ExportRecord :=
  db.exportRecords.rows.filter fun x => x.runId = runId

/-- What staging wrote; the other rows are the conflicts of the reconciliation. -/
def stagedRecords (runId : Uuid) (db : Db) : List ExportRecord :=
  (runRecords runId db).filter fun x => x.recordKind ≠ .conflict

def runReports (runId : Uuid) (db : Db) : List ExportCompletenessReport :=
  db.exportReports.rows.filter fun x => x.runId = runId

def ImportRunTransition.edge (t : ImportRunTransition) : Nat × Option ImportState × ImportState :=
  (t.ordinal, t.fromState, t.toState)

/-- A fact of the run: about its owner, with its archive. -/
def RunFact (db : Db) (r : ImportRun) (e : OutboxEvent) : Prop :=
  ∃ s ∈ db.exportSnapshots, s.snapshotId = r.snapshotId ∧ ExportFact r.userRef s.archive e

/-- The outbox has a new row. -/
def Appended (db db' : Db) (e : OutboxEvent) : Prop :=
  e ∈ db'.outboxEvents ∧ ∀ x ∈ db.outboxEvents, x.eventId ≠ e.eventId

/-- What a run that went along `path` has recorded. -/
structure RunHistory (db : Db) (r : ImportRun) (path : List ImportState) : Prop where
  legal : path ∈ runPaths
  state : path.getLast? = some r.state
  transitions : (runTransitions r.runId db).map ImportRunTransition.edge = edges path
  staged : (stagedRecords r.runId db).length =
    if .parsed ∈ path then r.recordsProcessed else 0
  conflicts : .reconciled ∉ path → runRecords r.runId db = stagedRecords r.runId db
  reports : (runReports r.runId db).length = if .reconciled ∈ path then 1 else 0

/-- What the import tables keep. -/
structure ImportTables (db : Db) : Prop where
  receipts : ReceiptTables db
  histories : ∀ r ∈ db.importRuns, ∃ path, RunHistory db r path
  transition_run : ∀ t ∈ db.importRunTransitions, ∃ r ∈ db.importRuns, r.runId = t.runId
  record_run : ∀ x ∈ db.exportRecords, ∃ r ∈ db.importRuns, r.runId = x.runId
  report_run : ∀ x ∈ db.exportReports, ∃ r ∈ db.importRuns, r.runId = x.runId

/-! ## Transactions -/

/-- A move of a run with the rows it appends. -/
structure RunMove (runId : Uuid) (n : Nat) (source target : ImportState) (g : ImportRun → ImportRun)
    (records : List ExportRecord) (reports : List ExportCompletenessReport)
    (facts : List OutboxEvent) (db db' : Db) : Prop where
  move : StateMove runId n source target g db db'
  stage : Stage n source target
  snapshots : db'.exportSnapshots = db.exportSnapshots
  recordRows : db'.exportRecords.rows = db.exportRecords.rows ++ records
  records_run : ∀ x ∈ records, x.runId = runId ∧ (x.recordKind = .conflict ↔ target = .reconciled)
  records_stage : records ≠ [] → target = .parsed ∨ target = .reconciled
  processed : ∀ r, (g r).recordsProcessed =
    if target = .parsed then records.length else r.recordsProcessed
  reportRows : db'.exportReports.rows = db.exportReports.rows ++ reports
  reports_run : ∀ x ∈ reports, x.runId = runId
  reported : reports.length = if target = .reconciled then 1 else 0
  factRows : db'.outboxEvents.rows = db.outboxEvents.rows ++ facts
  facts_run : ∀ e ∈ facts, target = .reconciled ∧
    ∃ r ∈ db.importRuns, r.runId = runId ∧ RunFact db r e

/-- What a transaction of the import lane does to the import tables. -/
inductive ImportChange (db db' : Db) : Prop
  | kept (h : db' = db)
  | created {userRef : Uuid} {stored : StoredArchive} {snapshotId runId transitionId : Uuid}
      {receivedAt : Instant} (hnew : snapshotOf userRef stored.digest db = none)
      (hstored : stored.archive = archiveRef stored.digest stored.byteSize)
      (hfirst : FirstReceipt userRef stored snapshotId runId transitionId receivedAt db db')
      (hframe : db' = { db with
        exportSnapshots := db'.exportSnapshots
        importRuns := db'.importRuns
        importRunTransitions := db'.importRunTransitions })
  | moved {runId : Uuid} {n : Nat} {source target : ImportState} {g : ImportRun → ImportRun}
      {records : List ExportRecord} {reports : List ExportCompletenessReport}
      {facts : List OutboxEvent}
      (h : RunMove runId n source target g records reports facts db db')

section Changes

variable {lib : Externals} {env : Env} {db db' : Db}

/-- A move that writes nothing but its run and its transition. -/
theorem RunMove.ofOnlyRuns {runId : Uuid} {n : Nat} {source target : ImportState}
    {g : ImportRun → ImportRun} (hmove : StateMove runId n source target g db db')
    (hstage : Stage n source target) (htarget : target ≠ .parsed ∧ target ≠ .reconciled)
    (hprocessed : ∀ r, (g r).recordsProcessed = r.recordsProcessed) (honly : OnlyRuns db db') :
    RunMove runId n source target g [] [] [] db db' := by
  obtain ⟨runs, transitions, rfl⟩ := honly
  constructor
  case move => exact hmove
  case stage => exact hstage
  case processed =>
    intro r
    rw [if_neg htarget.1, hprocessed]
  case reported => simp [htarget.2]
  all_goals simp

/-- The tables a receipt writes. -/
def OnlyReceipts (db db' : Db) : Prop :=
  db' = { db with
    exportSnapshots := db'.exportSnapshots
    importRuns := db'.importRuns
    importRunTransitions := db'.importRunTransitions }

instance : IsPreorder Db OnlyReceipts where
  refl _ := rfl
  trans a b c h h' := by
    unfold OnlyReceipts at *
    rw [h', h]

theorem persistReceipt_frame {userRef : Uuid} {stored : StoredArchive} :
    (persistReceipt userRef stored).Respects OnlyReceipts := by
  refine Tx.Respects.bind .nowUtc fun receivedAt => Tx.Respects.bind .nowV7 fun snapshotId => ?_
  refine Tx.Respects.bind (.insertUnless fun _ _ => rfl) fun created => ?_
  split
  · refine Tx.Respects.bind .nowV7 fun runId => ?_
    refine Tx.Respects.bind (.insertInto fun _ _ => rfl) fun _ => ?_
    refine Tx.Respects.bind .nowV7 fun transitionId => ?_
    refine Tx.Respects.bind (.insertInto fun _ _ => rfl) fun _ => ?_
    exact Tx.Respects.bind (.query _) fun _ => .pure _
  · refine Tx.Respects.bind (.fetchOne _ _) ?_
    rintro ⟨runId, state, existing⟩
    dsimp only
    split
    · exact .throw
    · exact Tx.Respects.bind (.query _) fun _ => .pure _

theorem importContext_some {runId : Uuid} {state : ImportState} {ctx : RunContext}
    (h : importContext runId db = some (state, ctx)) :
    ∃ r ∈ db.importRuns, r.runId = runId ∧ r.state = state ∧ ctx.runId = runId ∧
      ctx.owner = r.userRef ∧
      ∃ s ∈ db.exportSnapshots, s.snapshotId = r.snapshotId ∧ ctx.archive = s.archive := by
  obtain ⟨r, hr, h⟩ := Option.bind_eq_some_iff.mp h
  obtain ⟨s, hs, h⟩ := Option.bind_eq_some_iff.mp h
  obtain ⟨hr, hid⟩ := Table.lookup_eq_some.mp hr
  obtain ⟨hs, hsid⟩ := Table.lookup_eq_some.mp hs
  cases h
  exact ⟨r, hr, hid, rfl, rfl, rfl, s, hs, hsid, rfl⟩

/-- The transaction moved the run, or did nothing. -/
def MovesRun (runId : Uuid) (db db' : Db) : Prop :=
  db' = db ∨ ∃ n source target g records reports facts,
    RunMove runId n source target g records reports facts db db'

theorem MovesRun.change {runId : Uuid} (h : MovesRun runId db db') : ImportChange db db' := by
  rcases h with h | ⟨n, source, target, g, records, reports, facts, h⟩
  · exact .kept h
  · exact .moved h

theorem finishInspection_moves {runId : Uuid} {failure : Option ArchiveFailureClass} {u : Unit}
    (h : (finishInspection runId failure).Yields env db u db') : MovesRun runId db db' := by
  obtain ⟨⟨g, hg, hmove⟩, honly⟩ := finishInspection_yields h
  cases failure with
  | none =>
    exact Or.inr ⟨_, _, _, _, _, _, _, .ofOnlyRuns hmove .inspect (by simp) hg honly⟩
  | some failure =>
    exact Or.inr ⟨_, _, _, _, _, _, _, .ofOnlyRuns hmove .refuse (by simp) hg honly⟩

theorem failParse_moves {runId : Uuid} {failureClass : String} {u : Unit}
    (h : (failParse runId failureClass).Yields env db u db') : MovesRun runId db db' := by
  obtain ⟨⟨g, hg, hmove⟩, honly⟩ := failParse_yields h
  exact Or.inr ⟨_, _, _, _, _, _, _, .ofOnlyRuns hmove .failParse (by decide) hg honly⟩

theorem persistParsed_moves {runId : Uuid} {parsed : ParsedExport} {u : Unit}
    (h : (persistParsed lib runId parsed).Yields env db u db') : MovesRun runId db db' := by
  obtain ⟨processedAt, hmove, staged, records, runs, transitions, rfl, hrows, hkeys, hstaged, -⟩ :=
    persistParsed_yields h
  have hlength : staged.length = (evidenceKeys parsed).length := by
    rw [← hkeys, List.length_map]
  refine Or.inr ⟨3, .inspected, .parsed, parsedRun parsed processedAt, staged, [], [], ?_⟩
  constructor
  case move => exact hmove
  case stage => exact .parse
  case recordRows => exact hrows
  case records_run =>
    intro x hx
    obtain ⟨hrun, hkind, -⟩ := (hstaged x hx).facts
    simp [hrun, hkind]
  case processed => exact fun r => by simp [parsedRun, hlength]
  all_goals simp

theorem reconcile_moves {runId : Uuid} {report : CompletenessReport}
    (h : (reconcile lib runId).Yields env db report db') : MovesRun runId db db' := by
  rcases reconcile_yields h with ⟨rfl, -⟩ | ⟨ctx, m, hctx, hreconciles, ⟨g, hg, hmove⟩, reports, runs,
    transitions, row, hreport, hrow, rfl⟩
  · exact Or.inl rfl
  obtain ⟨r, hr, hid, -, hctxRun, howner, s, hs, hsid, harchive⟩ := importContext_some hctx
  obtain ⟨conflicts, hconflicts, hconflict⟩ := hreconciles.records
  obtain ⟨facts, hfacts, hfact⟩ := hreconciles.facts
  obtain ⟨media, raws, revisions, outbox, records, rfl⟩ := hreconciles.same
  refine Or.inr ⟨4, .parsed, .reconciled, g, conflicts, [row], facts, ?_⟩
  constructor
  case move => exact hmove
  case stage => exact .reconcile
  case recordRows => exact hconflicts
  case records_run =>
    intro x hx
    obtain ⟨hrun, hkind, -⟩ := hconflict x hx
    simp [hrun, hkind, hctxRun]
  case processed => exact fun r => by simp [hg]
  case reportRows => exact (Table.insert?_eq_some hreport).1
  case reports_run => simp [hrow]
  case factRows => exact hfacts
  case facts_run =>
    intro e he
    refine ⟨rfl, r, hr, hid, s, hs, hsid, ?_⟩
    rw [← howner, ← harchive]
    exact hfact e he
  all_goals simp

/-- **What the import lane commits.** -/
theorem ImportWrite.change (h : ImportWrite lib env db db') : ImportChange db db' := by
  cases h with
  | idle => exact .kept rfl
  | received h =>
    rcases persistReceipt_yields h with ⟨_, _, -, -, rfl⟩ | ⟨hnew, _, _, _, _, hfirst, -⟩
    · exact .kept rfl
    · exact .created hnew rfl hfirst (persistReceipt_frame _ _ _ _ h)
  | inspected h => exact (finishInspection_moves h).change
  | refused h => exact (failParse_moves h).change
  | parsed hparse h => exact (persistParsed_moves h).change
  | reconciled h => exact (reconcile_moves h).change

end Changes

/-! ## What a move does to the runs -/

section Moves

variable {db db' : Db} {runId : Uuid} {n : Nat} {source target : ImportState}
  {g : ImportRun → ImportRun} {records : List ExportRecord}
  {reports : List ExportCompletenessReport} {facts : List OutboxEvent}

theorem ImportTables.run_id (h : ReceiptTables db) {r r' : ImportRun} (hr : r ∈ db.importRuns)
    (hr' : r' ∈ db.importRuns) (hsnapshot : r.snapshotId = r'.snapshotId) : r = r' :=
  Table.eq_of_key_eq hr hr' (h.run_unique r hr r' hr' hsnapshot)

/-- Every run is the moved one, in the state it moved from, or is passed over. -/
theorem RunMove.run_cases (h : RunMove runId n source target g records reports facts db db')
    {r : ImportRun} (hr : r ∈ db.importRuns) :
    (r.runId ≠ runId ∧ ImportRun.inState runId source r = false) ∨
      (r.runId = runId ∧ r.state = source ∧ ImportRun.inState runId source r = true) := by
  obtain ⟨q, hq, hqid, hqstate⟩ := h.move.run
  by_cases hid : r.runId = runId
  · obtain rfl : r = q := Table.eq_of_key_eq hr hq (hid.trans hqid.symm)
    exact Or.inr ⟨hid, hqstate, inState_iff.mpr ⟨hid, hqstate⟩⟩
  · refine Or.inl ⟨hid, ?_⟩
    rw [Bool.eq_false_iff]
    exact fun hin => hid (inState_iff.mp hin).1

theorem filter_append_other {α : Type} {l l' new : List α} {p : α → Bool} (h : l' = l ++ new)
    (hnew : ∀ x ∈ new, p x = false) : l'.filter p = l.filter p := by
  have hnone : new.filter p = [] := List.filter_eq_nil_iff.mpr fun x hx => by simp [hnew x hx]
  rw [h, List.filter_append, hnone, List.append_nil]

theorem filter_append_all {α : Type} {l l' new : List α} {p : α → Bool} (h : l' = l ++ new)
    (hnew : ∀ x ∈ new, p x = true) : l'.filter p = l.filter p ++ new := by
  rw [h, List.filter_append, List.filter_eq_self.mpr hnew]

/-- The transition of the move. -/
theorem RunMove.transitions (h : RunMove runId n source target g records reports facts db db') :
    ∃ t, db'.importRunTransitions.rows = db.importRunTransitions.rows ++ [t] ∧ t.runId = runId ∧
      ImportRunTransition.edge t = (n, some source, target) := by
  obtain ⟨t, ht, hrun, hordinal, hsource, htarget⟩ := h.move.transition
  refine ⟨t, (Table.insert?_eq_some ht).1, hrun, ?_⟩
  rw [ImportRunTransition.edge, hordinal, hsource, htarget]

/-- The rows of a run that is passed over stay. -/
theorem RunMove.other (h : RunMove runId n source target g records reports facts db db') {id : Uuid}
    (hid : id ≠ runId) :
    runTransitions id db' = runTransitions id db ∧ runRecords id db' = runRecords id db ∧
      runReports id db' = runReports id db := by
  obtain ⟨t, ht, hrun, -⟩ := h.transitions
  refine ⟨filter_append_other ht ?_, filter_append_other h.recordRows ?_,
    filter_append_other h.reportRows ?_⟩
  · simpa [hrun] using hid.symm
  · intro x hx
    simpa [(h.records_run x hx).1] using hid.symm
  · intro x hx
    simpa [h.reports_run x hx] using hid.symm

/-- The rows of the moved run. -/
theorem RunMove.own (h : RunMove runId n source target g records reports facts db db') :
    (runTransitions runId db').map ImportRunTransition.edge =
        (runTransitions runId db).map ImportRunTransition.edge ++ [(n, some source, target)] ∧
      runRecords runId db' = runRecords runId db ++ records ∧
      runReports runId db' = runReports runId db ++ reports := by
  obtain ⟨t, ht, hrun, hedge⟩ := h.transitions
  refine ⟨?_, filter_append_all h.recordRows ?_, filter_append_all h.reportRows ?_⟩
  · have happ : runTransitions runId db' = runTransitions runId db ++ [t] :=
      filter_append_all ht (by simp [hrun])
    rw [happ, List.map_append, List.map_singleton, hedge]
  · exact fun x hx => by simp [(h.records_run x hx).1]
  · exact fun x hx => by simp [h.reports_run x hx]

theorem RunMove.staged (h : RunMove runId n source target g records reports facts db db') :
    stagedRecords runId db' =
      stagedRecords runId db ++ if target = .parsed then records else [] := by
  unfold stagedRecords
  rw [h.own.2.1, List.filter_append]
  congr 1
  by_cases htarget : target = .parsed
  · rw [if_pos htarget, List.filter_eq_self]
    intro x hx
    have hkind := (h.records_run x hx).2
    simp [hkind, htarget]
  · rw [if_neg htarget, List.filter_eq_nil_iff]
    intro x hx
    rcases h.records_stage (List.ne_nil_of_mem hx) with hparsed | hreconciled
    · exact (htarget hparsed).elim
    · simp [(h.records_run x hx).2, hreconciled]

/-- **A move takes its run one edge further.** -/
theorem RunMove.history (h : RunMove runId n source target g records reports facts db db')
    {r : ImportRun} {path : List ImportState} (hid : r.runId = runId) (hstate : r.state = source)
    (hr : RunHistory db r path) : RunHistory db' (g r) (path ++ [target]) := by
  have hlast : path.getLast? = some source := hr.state.trans (congrArg some hstate)
  obtain ⟨hlegal, hedges⟩ := h.stage.extends hr.legal hlast
  have hnew := h.stage.target_not_mem hr.legal hlast
  obtain ⟨hreceipt, -, htarget⟩ := h.move.rewrite r
  have hgid : (g r).runId = runId := (congrArg Prod.fst hreceipt).trans hid
  subst hid
  constructor
  case legal => exact hlegal
  case state => simp [htarget]
  case transitions => rw [hgid, h.own.1, hr.transitions, hedges]
  case staged =>
    rw [hgid, h.staged, h.processed, List.length_append, hr.staged]
    by_cases hparsed : target = .parsed
    · subst hparsed
      simp [hnew]
    · simp [hparsed, Ne.symm hparsed]
  case conflicts =>
    intro hreconciled
    have htarget : target ≠ .reconciled := fun he => hreconciled (by simp [he])
    have hbefore := hr.conflicts fun hm => hreconciled (List.mem_append_left _ hm)
    rw [hgid, h.staged, h.own.2.1, hbefore]
    congr 1
    split
    · rfl
    · rename_i hparsed
      by_contra hne
      exact (h.records_stage hne).elim hparsed htarget
  case reports =>
    rw [hgid, h.own.2.2, List.length_append, hr.reports, h.reported]
    by_cases hreconciled : target = .reconciled
    · subst hreconciled
      simp [hnew]
    · simp [hreconciled, Ne.symm hreconciled]

theorem RunHistory.kept {r : ImportRun} {path : List ImportState} (h : RunHistory db r path)
    (htransitions : runTransitions r.runId db' = runTransitions r.runId db)
    (hrecords : runRecords r.runId db' = runRecords r.runId db)
    (hreports : runReports r.runId db' = runReports r.runId db) : RunHistory db' r path where
  legal := h.legal
  state := h.state
  transitions := by rw [htransitions, h.transitions]
  staged := by rw [stagedRecords, hrecords, ← stagedRecords, h.staged]
  conflicts hpath := by rw [stagedRecords, hrecords, ← stagedRecords, h.conflicts hpath]
  reports := by rw [hreports, h.reports]

theorem RunMove.sameReceipts (h : RunMove runId n source target g records reports facts db db') :
    SameReceipts db db' where
  snapshots := h.snapshots
  runs := by
    rw [h.move.runs]
    exact Table.map_update _ _ _ _ fun r _ => (h.move.rewrite r).1
  transitions := by
    obtain ⟨t, ht, -, hedge⟩ := h.transitions
    refine filter_append_other ht ?_
    simp only [ImportRunTransition.edge, Prod.mk.injEq] at hedge
    have hstage := h.stage
    simp only [List.mem_singleton, forall_eq, hedge.2.2, decide_eq_false_iff_not]
    rintro rfl
    cases hstage

/-- Every run after the move is one from before it, moved or passed over. -/
theorem RunMove.origin (h : RunMove runId n source target g records reports facts db db')
    {r' : ImportRun} (hr' : r' ∈ db'.importRuns) :
    ∃ r ∈ db.importRuns, r.runId = r'.runId ∧
      ((r.runId ≠ runId ∧ r' = r) ∨ (r.runId = runId ∧ r.state = source ∧ r' = g r)) := by
  rw [Table.mem_rows, h.move.runs] at hr'
  obtain ⟨r, hr, rfl⟩ := Table.exists_of_mem_update hr'
  refine ⟨r, hr, ?_⟩
  rcases h.run_cases hr with ⟨hid, hin⟩ | ⟨hid, hstate, hin⟩
  · simp [hin, hid]
  · have hgid : (g r).runId = r.runId := congrArg Prod.fst (h.move.rewrite r).1
    rw [if_pos hin]
    exact ⟨hgid.symm, Or.inr ⟨hid, hstate, rfl⟩⟩

theorem RunMove.image (h : RunMove runId n source target g records reports facts db db')
    {r : ImportRun} (hr : r ∈ db.importRuns) :
    (r.runId ≠ runId ∧ r ∈ db'.importRuns) ∨
      (r.runId = runId ∧ r.state = source ∧ g r ∈ db'.importRuns) := by
  have hm : (if ImportRun.inState runId source r then g r else r) ∈ db'.importRuns := by
    rw [Table.mem_rows, h.move.runs]
    exact List.mem_map.mpr ⟨r, hr, rfl⟩
  rcases h.run_cases hr with ⟨hid, hin⟩ | ⟨hid, hstate, hin⟩
  · exact Or.inl ⟨hid, by simpa [hin] using hm⟩
  · exact Or.inr ⟨hid, hstate, by simpa [hin] using hm⟩

/-- The run of a row is still there. -/
theorem RunMove.keeps_run (h : RunMove runId n source target g records reports facts db db')
    {id : Uuid} (hrun : ∃ r ∈ db.importRuns, r.runId = id) :
    ∃ r ∈ db'.importRuns, r.runId = id := by
  obtain ⟨r, hr, rfl⟩ := hrun
  rcases h.image hr with ⟨-, hm⟩ | ⟨-, -, hm⟩
  · exact ⟨r, hm, rfl⟩
  · exact ⟨g r, hm, congrArg Prod.fst (h.move.rewrite r).1⟩

/-- A move keeps the tables. -/
theorem ImportTables.moved (h : ImportTables db)
    (hmove : RunMove runId n source target g records reports facts db db') : ImportTables db' := by
  have hown : ∃ r ∈ db'.importRuns, r.runId = runId := by
    obtain ⟨r, hr, hid, -⟩ := hmove.move.run
    exact hmove.keeps_run ⟨r, hr, hid⟩
  constructor
  case receipts => exact h.receipts.others hmove.sameReceipts
  case histories =>
    intro r' hr'
    obtain ⟨r, hr, -, ⟨hid, rfl⟩ | ⟨hid, hstate, rfl⟩⟩ := hmove.origin hr'
    · obtain ⟨path, hpath⟩ := h.histories r' hr
      obtain ⟨htransitions, hrecords, hreports⟩ := hmove.other hid
      exact ⟨path, hpath.kept htransitions hrecords hreports⟩
    · obtain ⟨path, hpath⟩ := h.histories r hr
      exact ⟨_, hmove.history hid hstate hpath⟩
  case transition_run =>
    obtain ⟨t, ht, hrun, -⟩ := hmove.transitions
    intro x hx
    rw [Table.mem_rows, ht, List.mem_append, List.mem_singleton] at hx
    rcases hx with hx | rfl
    · exact hmove.keeps_run (h.transition_run x hx)
    · rwa [hrun]
  case record_run =>
    intro x hx
    rw [Table.mem_rows, hmove.recordRows, List.mem_append] at hx
    rcases hx with hx | hx
    · exact hmove.keeps_run (h.record_run x hx)
    · rwa [(hmove.records_run x hx).1]
  case report_run =>
    intro x hx
    rw [Table.mem_rows, hmove.reportRows, List.mem_append] at hx
    rcases hx with hx | hx
    · exact hmove.keeps_run (h.report_run x hx)
    · rwa [hmove.reports_run x hx]

end Moves

/-! ## What a transaction does to a run -/

/-- One transaction leaves a run alone or takes it along one edge. Staged rows come with the edge
to parsed; conflicts, the report and the facts with the edge to reconciled. -/
structure RunStep (db db' : Db) (r r' : ImportRun) : Prop where
  receipt : runReceipt r' = runReceipt r
  edge : (r' = r ∧ runTransitions r.runId db' = runTransitions r.runId db) ∨
    ∃ n, Stage n r.state r'.state ∧ (runTransitions r.runId db').map ImportRunTransition.edge =
      (runTransitions r.runId db).map ImportRunTransition.edge ++ [(n, some r.state, r'.state)]
  staged : stagedRecords r.runId db' = stagedRecords r.runId db ∨
    (r.state = .inspected ∧ r'.state = .parsed)
  records : runRecords r.runId db' = runRecords r.runId db ∨
    (r.state = .inspected ∧ r'.state = .parsed) ∨ (r.state = .parsed ∧ r'.state = .reconciled)
  report : runReports r.runId db' = runReports r.runId db ∨
    (r.state = .parsed ∧ r'.state = .reconciled)
  facts : ∀ e, Appended db db' e → RunFact db r e → r.state = .parsed ∧ r'.state = .reconciled

/-- A transaction of the rest of the service. -/
structure LeavesImports (db db' : Db) : Prop where
  snapshots : db'.exportSnapshots = db.exportSnapshots
  runs : db'.importRuns = db.importRuns
  transitions : db'.importRunTransitions = db.importRunTransitions
  records : db'.exportRecords = db.exportRecords
  reports : db'.exportReports = db.exportReports
  facts : ∀ e, Appended db db' e → ∀ owner archive, ¬ ExportFact owner archive e

section Steps

variable {lib : Externals} {env : Env} {db db' : Db}

theorem exportFact_unique {owner owner' : Uuid} {archive archive' : BlobRef} {e : OutboxEvent}
    (h : ExportFact owner archive e) (h' : ExportFact owner' archive' e) :
    owner = owner' ∧ archive = archive' := by
  obtain ⟨kind, snapshot, hpayload, -, rfl, harchive⟩ := h
  obtain ⟨kind', snapshot', hpayload', -, rfl, harchive'⟩ := h'
  have hsnapshot : snapshot = snapshot' := by
    rw [hpayload] at hpayload'
    cases kind <;> cases kind' <;> cases hpayload' <;> rfl
  subst hsnapshot
  exact ⟨rfl, Option.some.inj (harchive.symm.trans harchive')⟩

/-- **A fact belongs to one run**: its archive and its owner name one snapshot. -/
theorem runFact_unique (h : ReceiptTables db) {r r' : ImportRun} {e : OutboxEvent}
    (hr : r ∈ db.importRuns) (hr' : r' ∈ db.importRuns) (he : RunFact db r e)
    (he' : RunFact db r' e) : r = r' := by
  obtain ⟨s, hs, hsid, hfact⟩ := he
  obtain ⟨s', hs', hsid', hfact'⟩ := he'
  obtain ⟨howner, harchive⟩ := exportFact_unique hfact hfact'
  -- the snapshot of a run has its owner
  have huser : ∀ r ∈ db.importRuns, ∀ s ∈ db.exportSnapshots, s.snapshotId = r.snapshotId →
      s.userRef = r.userRef := by
    intro r hr s hs hsid
    obtain ⟨q, hq, hqid, hquser⟩ := h.has_run s hs
    rw [← hquser, ImportTables.run_id h hq hr (hqid.trans hsid)]
  rw [h.archived s hs, h.archived s' hs'] at harchive
  have hhash : s.archiveHash = s'.archiveHash :=
    hexEncode_injective (congrArg BlobRef.digest harchive)
  have hsnapshot : s = s' := h.snapshot_unique s hs s' hs'
    (by rw [huser r hr s hs hsid, huser r' hr' s' hs' hsid', howner]) hhash
  subst hsnapshot
  exact ImportTables.run_id h hr hr' (hsid.symm.trans hsid')

theorem RunStep.refl (r : ImportRun) : RunStep db db r r := by
  constructor
  case receipt => rfl
  case edge => exact Or.inl ⟨rfl, rfl⟩
  case staged => exact Or.inl rfl
  case records => exact Or.inl rfl
  case report => exact Or.inl rfl
  case facts => exact fun e he => absurd rfl (he.2 e he.1)

theorem RunMove.runStep {runId : Uuid} {n : Nat} {source target : ImportState}
    {g : ImportRun → ImportRun} {records : List ExportRecord}
    {reports : List ExportCompletenessReport} {facts : List OutboxEvent}
    (hmove : RunMove runId n source target g records reports facts db db') (h : ImportTables db)
    {r : ImportRun} (hr : r ∈ db.importRuns) : ∃ r' ∈ db'.importRuns, RunStep db db' r r' := by
  have hfacts : ∀ e, Appended db db' e → RunFact db r e →
      r.runId = runId ∧ source = .parsed ∧ target = .reconciled := by
    rintro e ⟨he, hnew⟩ hfact
    rw [Table.mem_rows, hmove.factRows, List.mem_append] at he
    rcases he with he | he
    · exact (hnew e he rfl).elim
    · obtain ⟨rfl, q, hq, hqid, hqfact⟩ := hmove.facts_run e he
      have hstage := hmove.stage
      rw [runFact_unique h.receipts hr hq hfact hqfact]
      refine ⟨hqid, ?_, rfl⟩
      cases hstage
      rfl
  rcases hmove.image hr with ⟨hid, hm⟩ | ⟨rfl, hstate, hm⟩
  · obtain ⟨htransitions, hrecords, hreports⟩ := hmove.other hid
    refine ⟨r, hm, rfl, Or.inl ⟨rfl, htransitions⟩, Or.inl ?_, Or.inl hrecords, Or.inl hreports, ?_⟩
    · rw [stagedRecords, hrecords, ← stagedRecords]
    · exact fun e he hfact => (hid (hfacts e he hfact).1).elim
  · obtain ⟨hreceipt, -, htarget⟩ := hmove.move.rewrite r
    refine ⟨g r, hm, ?_⟩
    constructor
    case receipt => exact hreceipt
    case edge =>
      rw [hstate, htarget]
      exact Or.inr ⟨n, hmove.stage, hmove.own.1⟩
    case staged =>
      rw [hmove.staged, hstate, htarget]
      have hstage := hmove.stage
      by_cases hparsed : target = .parsed
      · subst hparsed
        cases hstage
        exact Or.inr ⟨rfl, rfl⟩
      · simp [hparsed]
    case records =>
      rw [hmove.own.2.1, hstate, htarget]
      by_cases hnone : records = []
      · simp [hnone]
      · right
        have hstage := hmove.stage
        rcases hmove.records_stage hnone with rfl | rfl <;> cases hstage <;> simp
    case report =>
      rw [hmove.own.2.2, hstate, htarget]
      have hreported := hmove.reported
      have hstage := hmove.stage
      by_cases hreconciled : target = .reconciled
      · subst hreconciled
        cases hstage
        exact Or.inr ⟨rfl, rfl⟩
      · rw [if_neg hreconciled, List.length_eq_zero_iff] at hreported
        simp [hreported]
    case facts =>
      intro e he hfact
      rw [hstate, htarget]
      exact (hfacts e he hfact).2

/-- A first receipt leaves every run alone. -/
theorem FirstReceipt.runStep {userRef : Uuid} {stored : StoredArchive}
    {snapshotId runId transitionId : Uuid} {receivedAt : Instant}
    (hfirst : FirstReceipt userRef stored snapshotId runId transitionId receivedAt db db')
    (hframe : OnlyReceipts db db') {r : ImportRun} (hr : r ∈ db.importRuns) :
    r ∈ db'.importRuns ∧ r.runId ≠ runId ∧ RunStep db db' r r := by
  have hid : r.runId ≠ runId := (Table.insert?_eq_some hfirst.runs).2 r hr
  have htransitions : runTransitions r.runId db' = runTransitions r.runId db :=
    filter_append_other (Table.insert?_eq_some hfirst.transitions).1 (by simpa using hid.symm)
  refine ⟨(Table.mem_of_insert? hfirst.runs r).mpr (Or.inl hr), hid, rfl,
    Or.inl ⟨rfl, htransitions⟩, Or.inl ?_, Or.inl ?_, Or.inl ?_, ?_⟩
  · rw [hframe]
    rfl
  · rw [hframe]
    rfl
  · rw [hframe]
    rfl
  · rintro e ⟨he, hnew⟩
    rw [hframe] at he
    exact absurd rfl (hnew e he)

/-- The history of a received run. -/
theorem FirstReceipt.history {userRef : Uuid} {stored : StoredArchive}
    {snapshotId runId transitionId : Uuid} {receivedAt : Instant} (h : ImportTables db)
    (hfirst : FirstReceipt userRef stored snapshotId runId transitionId receivedAt db db')
    (hframe : OnlyReceipts db db') :
    RunHistory db' { runId, snapshotId, userRef, state := .received, receivedAt,
                     updatedAt := receivedAt } [.received] := by
  have hfresh : ∀ id, (∃ r ∈ db.importRuns, r.runId = id) → id ≠ runId := by
    rintro id ⟨r, hr, rfl⟩
    exact (Table.insert?_eq_some hfirst.runs).2 r hr
  have htransitions : runTransitions runId db = [] := by
    refine List.filter_eq_nil_iff.mpr fun t ht => ?_
    simpa using hfresh _ (h.transition_run t ht)
  have hrecords : runRecords runId db' = [] := by
    rw [hframe]
    refine List.filter_eq_nil_iff.mpr fun x hx => ?_
    simpa using hfresh _ (h.record_run x hx)
  have hreports : runReports runId db' = [] := by
    rw [hframe]
    refine List.filter_eq_nil_iff.mpr fun x hx => ?_
    simpa using hfresh _ (h.report_run x hx)
  constructor
  case legal => decide
  case state => rfl
  case transitions =>
    have hrows := filter_append_all (p := fun t : ImportRunTransition => t.runId = runId)
      (Table.insert?_eq_some hfirst.transitions).1 (by simp)
    change (runTransitions runId db').map _ = _
    rw [runTransitions, hrows, ← runTransitions, htransitions]
    rfl
  case staged => simp [stagedRecords, hrecords]
  case conflicts => exact fun _ => by simp [stagedRecords, hrecords]
  case reports => simp [hreports]

theorem ImportTables.created (h : ImportTables db) {userRef : Uuid} {stored : StoredArchive}
    {snapshotId runId transitionId : Uuid} {receivedAt : Instant}
    (hnew : snapshotOf userRef stored.digest db = none)
    (hstored : stored = storedArchive stored.digest stored.byteSize)
    (hfirst : FirstReceipt userRef stored snapshotId runId transitionId receivedAt db db')
    (hframe : OnlyReceipts db db') : ImportTables db' := by
  have hkeeps : ∀ id, (∃ r ∈ db.importRuns, r.runId = id) → ∃ r ∈ db'.importRuns, r.runId = id := by
    rintro id ⟨r, hr, rfl⟩
    exact ⟨r, (hfirst.runStep hframe hr).1, rfl⟩
  constructor
  case receipts =>
    rw [hstored] at hfirst
    exact h.receipts.created hnew hfirst
  case histories =>
    intro r hr
    rcases (Table.mem_of_insert? hfirst.runs r).mp hr with hr | rfl
    · obtain ⟨path, hpath⟩ := h.histories r hr
      obtain ⟨-, hid, -⟩ := hfirst.runStep hframe hr
      refine ⟨path, hpath.kept ?_ ?_ ?_⟩
      · exact filter_append_other (Table.insert?_eq_some hfirst.transitions).1
          (by simpa using hid.symm)
      · rw [hframe]
        rfl
      · rw [hframe]
        rfl
    · exact ⟨_, hfirst.history h hframe⟩
  case transition_run =>
    intro t ht
    rcases (Table.mem_of_insert? hfirst.transitions t).mp ht with ht | rfl
    · exact hkeeps _ (h.transition_run t ht)
    · exact ⟨_, (Table.mem_of_insert? hfirst.runs _).mpr (Or.inr rfl), rfl⟩
  case record_run =>
    intro x hx
    rw [hframe] at hx
    exact hkeeps _ (h.record_run x hx)
  case report_run =>
    intro x hx
    rw [hframe] at hx
    exact hkeeps _ (h.report_run x hx)

/-- **A transaction of the import lane** keeps the tables and takes every run along at most one
edge. -/
theorem ImportTables.write (h : ImportTables db) (hwrite : ImportWrite lib env db db') :
    ImportTables db' ∧ ∀ r ∈ db.importRuns, ∃ r' ∈ db'.importRuns, RunStep db db' r r' := by
  cases hwrite.change with
  | kept hsame =>
    subst hsame
    exact ⟨h, fun r hr => ⟨r, hr, .refl r⟩⟩
  | created hnew hstored hfirst hframe =>
    refine ⟨h.created hnew ?_ hfirst hframe, fun r hr => ?_⟩
    · rw [storedArchive, ← hstored]
    · obtain ⟨hm, -, hstep⟩ := hfirst.runStep hframe hr
      exact ⟨r, hm, hstep⟩
  | moved hmove => exact ⟨h.moved hmove, fun r hr => hmove.runStep h hr⟩

/-- The rest of the service keeps the tables and every run. -/
theorem ImportTables.others (h : ImportTables db) (hleaves : LeavesImports db db') :
    ImportTables db' ∧ ∀ r ∈ db.importRuns, ∃ r' ∈ db'.importRuns, RunStep db db' r r' := by
  have htransitions : ∀ id, runTransitions id db' = runTransitions id db := fun id => by
    rw [runTransitions, hleaves.transitions, ← runTransitions]
  have hrecords : ∀ id, runRecords id db' = runRecords id db := fun id => by
    rw [runRecords, hleaves.records, ← runRecords]
  have hreports : ∀ id, runReports id db' = runReports id db := fun id => by
    rw [runReports, hleaves.reports, ← runReports]
  constructor
  · constructor
    case receipts =>
      refine h.receipts.others ⟨hleaves.snapshots, by rw [hleaves.runs], ?_⟩
      rw [receivedTransitions, hleaves.transitions, ← receivedTransitions]
    case histories =>
      intro r hr
      rw [hleaves.runs] at hr
      obtain ⟨path, hpath⟩ := h.histories r hr
      exact ⟨path, hpath.kept (htransitions _) (hrecords _) (hreports _)⟩
    case transition_run =>
      rw [hleaves.transitions, hleaves.runs]
      exact h.transition_run
    case record_run =>
      rw [hleaves.records, hleaves.runs]
      exact h.record_run
    case report_run =>
      rw [hleaves.reports, hleaves.runs]
      exact h.report_run
  · intro r hr
    refine ⟨r, by rwa [hleaves.runs], rfl, Or.inl ⟨rfl, htransitions _⟩, Or.inl ?_,
      Or.inl (hrecords _), Or.inl (hreports _), ?_⟩
    · rw [stagedRecords, hrecords, ← stagedRecords]
    · rintro e he ⟨s, -, -, hfact⟩
      exact (hleaves.facts e he _ _ hfact).elim

end Steps

/-! ## The system -/

/-- The actions of the import lane, with any transaction beside them that leaves it alone. -/
def ImportSystem.Sanctioned (s : ImportSystem) : ImportAction → Prop
  | .others db => LeavesImports s.db db
  | _ => True

/-- Every job is one of the import lane, and the tables are those of its transactions. -/
structure ImportSystem.Sound (lib : Externals) (s : ImportSystem) : Prop where
  jobs : ∀ job ∈ s.jobs, Imports lib job
  tables : ImportTables s.db

section System

variable {lib : Externals} {s : ImportSystem} {a : ImportAction}

theorem importSystem_init (lib : Externals) : ImportSystem.Sound lib {} where
  jobs := by simp
  tables := by
    constructor
    case receipts => constructor <;> simp [receivedTransitions]
    all_goals simp

theorem importStep_advance {env : Env} {answer : FileAnswer} {i : Nat} {job : ImportScript Unit}
    (h : s.jobs[i]? = some job) :
    importStep lib s (.advance env answer i) =
      { db := (job.advance env answer s.db).2.1
        jobs := s.jobs.set i (job.advance env answer s.db).1 } := by
  simp only [importStep, h]

theorem importStep_idle {env : Env} {answer : FileAnswer} {i : Nat} (h : s.jobs[i]? = none) :
    importStep lib s (.advance env answer i) = s := by
  simp only [importStep, h]

/-- **What a step commits**: a transaction of the import lane, or one beside it. -/
theorem importStep_writes (h : ∀ job ∈ s.jobs, Imports lib job) (ha : s.Sanctioned a) :
    ((∃ env, ImportWrite lib env s.db (importStep lib s a).db) ∨
      LeavesImports s.db (importStep lib s a).db) ∧
    ∀ job ∈ (importStep lib s a).jobs, Imports lib job := by
  cases a with
  | receive env owner digest byteSize =>
    refine ⟨Or.inl ⟨env, ?_⟩, h⟩
    exact exec_rel (fun db db' => ImportWrite lib env db db') _ env s.db .idle
      fun _ _ hy => .received hy
  | begin job =>
    refine ⟨Or.inl ⟨⟨0, fun _ => 0, fun _ => 0, fun _ => false⟩, .idle⟩, fun j hj => ?_⟩
    rcases List.mem_append.mp hj with hj | hj
    · exact h j hj
    · rw [List.mem_singleton.mp hj]
      exact job.imports
  | advance env answer i =>
    cases hjob : s.jobs[i]? with
    | none =>
      rw [importStep_idle hjob]
      exact ⟨Or.inl ⟨env, .idle⟩, h⟩
    | some job =>
      rw [importStep_advance hjob]
      obtain ⟨⟨⟩, hwrite, -, hnext⟩ :=
        (h job (List.mem_of_getElem? hjob)).advance trivial env answer
      refine ⟨Or.inl ⟨env, ?_⟩, fun j hj => ?_⟩
      · rcases hwrite with ⟨hsame, -⟩ | hwrite
        · have hdb : (job.advance env answer s.db).2.1 = s.db := congrArg Prod.fst hsame
          rw [hdb]
          exact .idle
        · exact hwrite
      · rcases List.mem_or_eq_of_mem_set hj with hj | rfl
        · exact h j hj
        · exact hnext
  | others db => exact ⟨Or.inr ha, h⟩

/-- **The step lemma of the import lane.** -/
theorem ImportSystem.Sound.step (h : s.Sound lib) (ha : s.Sanctioned a) :
    (importStep lib s a).Sound lib ∧ ∀ r ∈ s.db.importRuns,
      ∃ r' ∈ (importStep lib s a).db.importRuns, RunStep s.db (importStep lib s a).db r r' := by
  obtain ⟨⟨env, hwrite⟩ | hleaves, hjobs⟩ := importStep_writes h.jobs ha
  · obtain ⟨htables, hruns⟩ := h.tables.write hwrite
    exact ⟨⟨hjobs, htables⟩, hruns⟩
  · obtain ⟨htables, hruns⟩ := h.tables.others hleaves
    exact ⟨⟨hjobs, htables⟩, hruns⟩

theorem imports_sound {actions : List ImportAction}
    (hg : Guarded (importStep lib) ImportSystem.Sanctioned {} actions) :
    (run (importStep lib) {} actions).Sound lib :=
  run_invariant (importStep lib) ImportSystem.Sanctioned (fun s => s.Sound lib)
    (fun _ _ ha h => (h.step ha).1) hg (importSystem_init lib)

end System

/-! ## What a run has recorded -/

/-- The transitions of a run by their ordinals. -/
def orderedTransitions (runId : Uuid) (db : Db) : List ImportRunTransition :=
  (runTransitions runId db).insertionSort fun t u => t.ordinal ≤ u.ordinal

/-- A run, its transitions, its staged rows and its report. -/
structure RunRecorded (db : Db) (r : ImportRun) (path : List ImportState) : Prop where
  stages : path <+: importStages ∨ ∃ p, p ≠ [] ∧ p <+: importStages ∧ path = p ++ [.failed]
  transitions : (orderedTransitions r.runId db).map ImportRunTransition.edge = edges path
  state : path.getLast? = some r.state
  staged : (stagedRecords r.runId db).length = if .parsed ∈ path then r.recordsProcessed else 0
  failed : r.state = .failed → runRecords r.runId db = []
  report : (runReports r.runId db).length = if r.state = .reconciled then 1 else 0

/-- What becomes of a run in one step. -/
structure RunAdvances (db db' : Db) (r r' : ImportRun) : Prop where
  step : RunStep db db' r r'
  terminal : r.state = .reconciled ∨ r.state = .failed →
    r' = r ∧ runTransitions r.runId db' = runTransitions r.runId db ∧
      runRecords r.runId db' = runRecords r.runId db ∧
      runReports r.runId db' = runReports r.runId db

section Recorded

variable {db db' : Db} {r r' : ImportRun} {path : List ImportState}

theorem ordinals_sorted (h : path ∈ runPaths) :
    ((edges path).map Prod.fst).Pairwise (· ≤ ·) := by
  simp only [runPaths, List.mem_cons, List.not_mem_nil, or_false] at h
  rcases h with rfl | rfl | rfl | rfl | rfl | rfl <;> decide

theorem RunHistory.recorded (h : RunHistory db r path) : RunRecorded db r path := by
  obtain ⟨hparsed, hreconciled⟩ := parsed_mem_iff h.legal h.state
  have hsorted : (runTransitions r.runId db).Pairwise fun t u => t.ordinal ≤ u.ordinal := by
    have hedges := ordinals_sorted h.legal
    rw [← h.transitions, List.map_map] at hedges
    exact List.pairwise_map.mp hedges
  constructor
  case stages => exact runPaths_prefix h.legal
  case transitions =>
    rw [orderedTransitions, List.Pairwise.insertionSort_eq hsorted, h.transitions]
  case state => exact h.state
  case staged => exact h.staged
  case failed =>
    intro hfailed
    have hnone : (stagedRecords r.runId db).length = 0 := by
      rw [h.staged, if_neg]
      simp [hparsed, hfailed]
    rw [h.conflicts (by simp [hreconciled, hfailed])]
    exact List.length_eq_zero_iff.mp hnone
  case report => simp [h.reports, hreconciled]

theorem RunStep.advances (h : RunStep db db' r r') : RunAdvances db db' r r' := by
  refine ⟨h, fun hterminal => ?_⟩
  have hno : ∀ n, ¬ Stage n r.state r'.state := by
    intro n hstage
    have hpending := hstage.pending
    rcases hterminal with hs | hs <;> simp [hs, ImportState.pending] at hpending
  have hedge : r' = r ∧ runTransitions r.runId db' = runTransitions r.runId db := by
    rcases h.edge with hsame | ⟨n, hstage, -⟩
    · exact hsame
    · exact (hno n hstage).elim
  refine ⟨hedge.1, hedge.2, ?_, ?_⟩
  · rcases h.records with hsame | ⟨hs, -⟩ | ⟨hs, -⟩
    · exact hsame
    · rcases hterminal with ht | ht <;> simp [ht] at hs
    · rcases hterminal with ht | ht <;> simp [ht] at hs
  · rcases h.report with hsame | ⟨hs, -⟩
    · exact hsame
    · rcases hterminal with ht | ht <;> simp [ht] at hs

end Recorded

/-- **The import-run state machine.** In every state that any interleaving of workers reaches,
every run has recorded its path, and every further step takes it along at most one edge. -/
theorem import_runs_follow_their_paths (lib : Externals) {actions : List ImportAction}
    (hg : Guarded (importStep lib) ImportSystem.Sanctioned {} actions) :
    (∀ r ∈ (run (importStep lib) {} actions).db.importRuns,
      ∃ path, RunRecorded (run (importStep lib) {} actions).db r path) ∧
    ∀ a, (run (importStep lib) {} actions).Sanctioned a →
      ∀ r ∈ (run (importStep lib) {} actions).db.importRuns,
        ∃ r' ∈ (importStep lib (run (importStep lib) {} actions) a).db.importRuns,
          RunAdvances (run (importStep lib) {} actions).db
            (importStep lib (run (importStep lib) {} actions) a).db r r' := by
  have h := imports_sound hg
  constructor
  · intro r hr
    obtain ⟨path, hpath⟩ := h.tables.histories r hr
    exact ⟨path, hpath.recorded⟩
  · intro a ha r hr
    obtain ⟨r', hr', hstep⟩ := (h.step ha).2 r hr
    exact ⟨r', hr', hstep.advances⟩

/-- Without a transaction from outside the lane every step is sanctioned. -/
theorem sanctioned_of_noOthers {lib : Externals} {s : ImportSystem} {actions : List ImportAction}
    (h : ∀ a ∈ actions, ∀ db, a ≠ .others db) :
    Guarded (importStep lib) ImportSystem.Sanctioned s actions := by
  refine Guarded.mono _ (P := fun _ a => ∀ db, a ≠ .others db) (fun s a ha => ?_)
    (guarded_of_forall _ h)
  cases a with
  | others db => exact (ha db rfl).elim
  | _ => trivial

/-- An archive whose saved array is empty. -/
def emptyArchive : ArchiveFile where
  inventory :=
    { entries := [⟨savedPostsPath, 10, 24⟩]
      sorted := List.pairwise_singleton ..
      bounded := by simp [maxEntryDecompressedBytes] }
  savedPosts := .ok (some (.obj [("saved_saved_media", .arr [])]))

/-- The archive is received and a pass of the worker takes it to parsed. -/
def emptyExport : List ImportAction :=
  [.receive (quietEnv 0 100) 1 [7] 10, .begin (.pass 1)] ++ (List.range 7).map fun n =>
    .advance (quietEnv 0 (100 * (n + 2))) (.ok (.ok emptyArchive)) 0

theorem emptyExport_sanctioned :
    Guarded (importStep reference) ImportSystem.Sanctioned {} emptyExport := by
  refine sanctioned_of_noOthers fun a ha db hothers => ?_
  simp [emptyExport, hothers] at ha

/-- A parsed run with no staged row: the archive parsed to nothing. -/
theorem emptyExport_staged_nothing :
    Guarded (importStep reference) ImportSystem.Sanctioned {} emptyExport ∧
      ∃ r ∈ (run (importStep reference) {} emptyExport).db.importRuns, r.state = .parsed ∧
        runRecords r.runId (run (importStep reference) {} emptyExport).db = [] := by
  refine ⟨emptyExport_sanctioned, ?_⟩
  have hruns : ((103 : Uuid), ImportState.parsed) ∈
      (run (importStep reference) {} emptyExport).db.importRuns.rows.map
        fun r => (r.runId, r.state) := by decide +kernel
  have hnone : runRecords 103 (run (importStep reference) {} emptyExport).db = [] := by
    decide +kernel
  obtain ⟨r, hr, heq⟩ := List.mem_map.mp hruns
  simp only [Prod.mk.injEq] at heq
  exact ⟨r, hr, heq.2, by rw [heq.1, hnone]⟩

/-- An instance whose digests have 32 bytes. -/
def padded : Externals :=
  { reference with
    sha256 := fun text =>
      ((text.toList.map fun c : Char => c.toNat.toUInt8) ++ List.replicate 32 0).take 32 }

def savedEntry : Json :=
  .obj [("title", .str "ada"), ("string_map_data", .obj [("Saved on",
    .obj [("href", .str "https://www.instagram.com/p/A"), ("timestamp", .int 7)])])]

def savedSection (entries : List Json) : Option Json :=
  some (.obj [("saved_saved_media", .arr entries)])

/-- An archive with nothing but the saved posts. -/
def savedArchive (entries : List Json) : ArchiveFile :=
  { emptyArchive with savedPosts := .ok (savedSection entries) }

/-- Two workers take turns, one transaction or answer each. -/
def workerTurns (first count : Nat) : List ImportAction :=
  (List.range' first count).map fun n =>
    .advance (quietEnv 0 (100 * (n + 2))) (.ok (.ok (savedArchive [savedEntry]))) (n % 2)

/-- The archive is received, two workers select its run, and the first of them inspects it. -/
def twoWorkersBegin : List ImportAction :=
  [.receive (quietEnv 0 100) 1 [7] 10, .begin (.pass 1), .begin (.pass 1)] ++ workerTurns 0 8

/-- The owner captures the saved post in the browser. -/
def savedPostCapture : CaptureRequest where
  userRef := 1
  url := "https://www.instagram.com/p/A"
  capturedAt := 5
  clientSource := .browserExtension
  note := none
  clientIdempotencyKey := none

/-- The second worker loses every race; a capture commits between two of the turns. -/
def overlappingWorkers : List ImportAction :=
  twoWorkersBegin ++
    .others ((submitCapture savedPostCapture).exec (quietEnv 0 5000)
      (run (importStep padded) {} twoWorkersBegin).db).2 :: workerTurns 8 8

theorem submitCapture_leavesImports (request : CaptureRequest) (env : Env) (db : Db) :
    LeavesImports db ((submitCapture request).exec env db).2 := by
  have hsame : ∀ captures, LeavesImports db { db with captures } := fun captures =>
    ⟨rfl, rfl, rfl, rfl, rfl, fun e he => (he.2 e he.1 rfl).elim⟩
  refine exec_rel LeavesImports _ env db (hsame db.captures) fun submission db' hy => ?_
  obtain ⟨-, -, -, -, ⟨-, captures, -, -, rfl, -⟩ | ⟨-, -, rfl, -⟩⟩ :=
    submitCaptureInTransaction_yields (submitCapture_yields hy)
  · exact hsame captures
  · exact hsame db'.captures

theorem workerTurns_sanctioned (s : ImportSystem) (first count : Nat) :
    Guarded (importStep padded) ImportSystem.Sanctioned s (workerTurns first count) := by
  refine sanctioned_of_noOthers fun a ha db hothers => ?_
  simp [workerTurns, hothers] at ha

theorem overlappingWorkers_sanctioned :
    Guarded (importStep padded) ImportSystem.Sanctioned {} overlappingWorkers :=
  (guarded_append _ _ _ _ _).mpr
    ⟨⟨trivial, trivial, trivial, workerTurns_sanctioned _ 0 8⟩,
      submitCapture_leavesImports .., workerTurns_sanctioned _ 8 8⟩

theorem import_runs_follow_their_paths_overlappingWorkers :
    (run (importStep padded) {} overlappingWorkers).db.importRuns.rows.map
        (fun r => (r.runId, r.state)) = [(103, .reconciled)] ∧
      (run (importStep padded) {} overlappingWorkers).db.exportRecords.rows.length = 1 ∧
      (run (importStep padded) {} overlappingWorkers).db.captures.rows.length = 1 ∧
      ∀ r ∈ (run (importStep padded) {} overlappingWorkers).db.importRuns,
        ∃ path, RunRecorded (run (importStep padded) {} overlappingWorkers).db r path :=
  ⟨by decide +kernel, by decide +kernel, by decide +kernel,
    (import_runs_follow_their_paths padded overlappingWorkers_sanctioned).1⟩

end InstagramArchive.DataExport

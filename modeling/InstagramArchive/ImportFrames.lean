import InstagramArchive.ExportStaging
import InstagramArchive.Relational.Simulation

/-!
# What the stages of one run leave alone

A stage of a run writes the rows of that run and facts about it, and nothing of any other run.
It also reads nothing of any other run: in a store from which a run and its rows are removed, the
stages of the others do what they do beside it.
-/

namespace InstagramArchive.DataExport

open Relational Relational.Tx Relational.Script

/-! ## Writes of one run -/

/-- The facts of a run that were appended. -/
def AppendsFacts (runId : Uuid) (db db' : Db) : Prop :=
  ∃ facts, db'.outboxEvents.rows = db.outboxEvents.rows ++ facts ∧
    ∀ e ∈ facts, ∃ r ∈ db.importRuns, r.runId = runId ∧ RunFact db r e

/-- Rows of other runs stay. -/
structure RunWrites (runId : Uuid) (db db' : Db) : Prop where
  snapshots : db'.exportSnapshots = db.exportSnapshots
  receipts : db'.importRuns.rows.map runReceipt = db.importRuns.rows.map runReceipt
  runs : ∀ id, id ≠ runId → db'.importRuns.lookup id = db.importRuns.lookup id
  transitions : ∀ id, id ≠ runId → runTransitions id db' = runTransitions id db
  records : ∀ id, id ≠ runId → runRecords id db' = runRecords id db
  reports : ∀ id, id ≠ runId → runReports id db' = runReports id db
  facts : AppendsFacts runId db db'

section Writes

variable {lib : Externals} {env : Env} {db db' db'' : Db} {runId : Uuid}

theorem RunWrites.refl (db : Db) : RunWrites runId db db where
  snapshots := rfl
  receipts := rfl
  runs _ _ := rfl
  transitions _ _ := rfl
  records _ _ := rfl
  reports _ _ := rfl
  facts := ⟨[], by simp, by simp⟩

/-- The runs keep their receipts, so a fact of a run stays one. -/
theorem runFact_of_receipts (hreceipts : db'.importRuns.rows.map runReceipt =
      db.importRuns.rows.map runReceipt) (hsnapshots : db'.exportSnapshots = db.exportSnapshots)
    {e : OutboxEvent} {r : ImportRun} (hr : r ∈ db'.importRuns) (he : RunFact db' r e) :
    ∃ q ∈ db.importRuns, q.runId = r.runId ∧ RunFact db q e := by
  have hm : runReceipt r ∈ db.importRuns.rows.map runReceipt := by
    rw [← hreceipts]
    exact List.mem_map_of_mem hr
  obtain ⟨q, hq, heq⟩ := List.mem_map.mp hm
  simp only [runReceipt, Prod.mk.injEq] at heq
  obtain ⟨s, hs, hsid, hfact⟩ := he
  rw [hsnapshots] at hs
  exact ⟨q, hq, heq.1, s, hs, hsid.trans heq.2.1.symm, by rwa [heq.2.2]⟩

theorem RunWrites.trans (h : RunWrites runId db db') (h' : RunWrites runId db' db'') :
    RunWrites runId db db'' where
  snapshots := h'.snapshots.trans h.snapshots
  receipts := h'.receipts.trans h.receipts
  runs id hid := (h'.runs id hid).trans (h.runs id hid)
  transitions id hid := (h'.transitions id hid).trans (h.transitions id hid)
  records id hid := (h'.records id hid).trans (h.records id hid)
  reports id hid := (h'.reports id hid).trans (h.reports id hid)
  facts := by
    obtain ⟨facts, hrows, hfacts⟩ := h.facts
    obtain ⟨facts', hrows', hfacts'⟩ := h'.facts
    refine ⟨facts ++ facts', by rw [hrows', hrows, List.append_assoc], fun e he => ?_⟩
    rcases List.mem_append.mp he with he | he
    · exact hfacts e he
    · obtain ⟨r, hr, hid, hfact⟩ := hfacts' e he
      obtain ⟨q, hq, hqid, hfact⟩ := runFact_of_receipts h.receipts h.snapshots hr hfact
      exact ⟨q, hq, hqid.trans hid, hfact⟩

instance : IsPreorder Db (RunWrites runId) where
  refl := RunWrites.refl
  trans _ _ _ h h' := h.trans h'

theorem RunMove.writes {n : Nat} {source target : ImportState} {g : ImportRun → ImportRun}
    {records : List ExportRecord} {reports : List ExportCompletenessReport}
    {facts : List OutboxEvent}
    (h : RunMove runId n source target g records reports facts db db') :
    RunWrites runId db db' where
  snapshots := h.snapshots
  receipts := h.sameReceipts.runs
  runs id hid := by
    unfold Table.lookup
    rw [h.move.runs, Table.find?_update]
    · cases hfound : db.importRuns.rows.find? fun r => r.runId = id with
      | none => rfl
      | some r =>
        have hrid : r.runId = id := by simpa using List.find?_some hfound
        have hin : ImportRun.inState runId source r = false := by
          rw [Bool.eq_false_iff]
          exact fun hin => hid (hrid.symm.trans (inState_iff.mp hin).1)
        simp [hin]
    · intro r
      rw [show (g r).runId = r.runId from congrArg Prod.fst (h.move.rewrite r).1]
  transitions _ hid := (h.other hid).1
  records _ hid := (h.other hid).2.1
  reports _ hid := (h.other hid).2.2
  facts := ⟨facts, h.factRows, fun e he => (h.facts_run e he).2⟩

theorem MovesRun.writes (h : MovesRun runId db db') : RunWrites runId db db' := by
  rcases h with rfl | ⟨n, source, target, g, records, reports, facts, h⟩
  · exact .refl db'
  · exact h.writes

end Writes

/-! ## Scripts of one run -/

section Scripts

variable {lib : Externals} {runId : Uuid}

theorem openArchive_writes (archive : BlobRef) (file : FileRequest) :
    (openArchive archive file).Respects (RunWrites runId) := by
  unfold openArchive
  split
  · exact .fail _
  · refine .bind (.request _) fun answer => ?_
    cases answer with
    | error e => exact .fail _
    | ok found => exact .pure _

theorem inspect_writes (runId : Uuid) : (inspect runId).Respects (RunWrites runId) := by
  refine .bind (.tx (.fetchOne _ _)) ?_
  rintro ⟨state, archive, file⟩
  dsimp only
  split
  · exact .fail _
  · refine .bind (openArchive_writes archive file) fun found => ?_
    cases found with
    | ok _ => exact .tx fun _ _ _ _ hy => (finishInspection_moves hy).writes
    | error failure =>
      exact .bind (.tx fun _ _ _ _ hy => (finishInspection_moves hy).writes) fun _ => .fail _

theorem parse_writes (runId : Uuid) : (parse lib runId).Respects (RunWrites runId) := by
  refine .bind (.tx (.fetchOne _ _)) ?_
  rintro ⟨state, archive, file⟩
  dsimp only
  split
  · exact .fail _
  · refine .bind (openArchive_writes archive file) fun found => ?_
    cases parseFile lib found with
    | ok parsed => exact .tx fun _ _ _ _ hy => (persistParsed_moves hy).writes
    | error error =>
      exact .bind (.tx fun _ _ _ _ hy => (failParse_moves hy).writes) fun _ => .fail _

theorem handledInputFailure_writes (e : ImportError) :
    (handledInputFailure e).Respects (RunWrites runId) := by
  cases e <;> first | exact .pure _ | exact .fail _

theorem advanceParsed_writes (runId : Uuid) : (advanceParsed lib runId).Respects (RunWrites runId) :=
  .bind (.tx fun _ _ _ _ hy => (reconcile_moves hy).writes) fun _ => .pure _

theorem advanceInspected_writes (runId : Uuid) :
    (advanceInspected lib runId).Respects (RunWrites runId) := by
  refine .bind (parse_writes runId).attempt fun r => ?_
  cases r with
  | error e => exact handledInputFailure_writes e
  | ok _ => exact advanceParsed_writes runId

/-- **Advancing a run writes that run.** -/
theorem advance_writes (runId : Uuid) (state : ImportState) :
    (advance lib runId state).Respects (RunWrites runId) := by
  cases state with
  | received =>
    refine .bind (inspect_writes runId).attempt fun r => ?_
    cases r with
    | error e => exact handledInputFailure_writes e
    | ok _ => exact advanceInspected_writes runId
  | inspected => exact advanceInspected_writes runId
  | parsed => exact advanceParsed_writes runId
  | reconciled | failed => exact .pure _

end Scripts

/-! ## Beside a removed run -/

/-- The store without a run and its rows. -/
def withoutRun (b : ImportRun) (db : Db) : Db :=
  { db with
    exportSnapshots := db.exportSnapshots.delete fun s => s.snapshotId = b.snapshotId
    importRuns := db.importRuns.delete fun r => r.runId = b.runId
    importRunTransitions := db.importRunTransitions.delete fun t => t.runId = b.runId
    exportRecords := db.exportRecords.delete fun x => x.runId = b.runId }

/-- The rows of `b` are its own: it alone has its snapshot, its records are staged ones, and its
transitions have identities of `ids`. -/
structure Apart (lib : Externals) (b : ImportRun) (ids : Set Uuid) (db : Db) : Prop where
  row : b ∈ db.importRuns
  snapshot : ∀ q ∈ db.importRuns, q.snapshotId = b.snapshotId → q.runId = b.runId
  records : ∀ x ∈ db.exportRecords, x.runId = b.runId →
    x.recordId = stagedRecordId lib b.runId x.evidenceKey ∧ ':' ∈ x.evidenceKey.toList
  transitions : ∀ t ∈ db.importRunTransitions, t.runId = b.runId → t.transitionId ∈ ids

/-- The environment draws no identity of `ids`. -/
def DrawsOutside (ids : Set Uuid) (env : Env) : Prop := ∀ n, env.uuid n ∉ ids

section Beside

variable {lib : Externals} {b : ImportRun} {ids : Set Uuid} {env : Env} {runId : Uuid}

theorem lookup_withoutRun (hrun : runId ≠ b.runId) (db : Db) :
    (withoutRun b db).importRuns.lookup runId = db.importRuns.lookup runId := by
  refine Table.lookup_delete _ _ fun x _ hid => ?_
  simpa [hid] using hrun

theorem Apart.snapshot_lookup {db : Db} (h : Apart lib b ids db) {r : ImportRun}
    (hr : r ∈ db.importRuns) (hrun : r.runId ≠ b.runId) :
    (withoutRun b db).exportSnapshots.lookup r.snapshotId =
      db.exportSnapshots.lookup r.snapshotId := by
  refine Table.lookup_delete _ _ fun x _ hid => ?_
  rw [decide_eq_false_iff_not, hid]
  exact fun hsame => hrun (h.snapshot r hr hsame)

theorem runArchive_withoutRun (hrun : runId ≠ b.runId) {db : Db} (h : Apart lib b ids db) :
    runArchive runId (withoutRun b db) = runArchive runId db := by
  unfold runArchive
  rw [lookup_withoutRun hrun]
  cases hfound : db.importRuns.lookup runId with
  | none => rfl
  | some r =>
    obtain ⟨hr, hid⟩ := Table.lookup_eq_some.mp hfound
    change ((withoutRun b db).exportSnapshots.lookup r.snapshotId).bind _ =
      (db.exportSnapshots.lookup r.snapshotId).bind _
    rw [h.snapshot_lookup hr (hid ▸ hrun)]

theorem importContext_withoutRun (hrun : runId ≠ b.runId) {db : Db} (h : Apart lib b ids db) :
    importContext runId (withoutRun b db) = importContext runId db := by
  unfold importContext
  rw [lookup_withoutRun hrun]
  cases hfound : db.importRuns.lookup runId with
  | none => rfl
  | some r =>
    obtain ⟨hr, hid⟩ := Table.lookup_eq_some.mp hfound
    change ((withoutRun b db).exportSnapshots.lookup r.snapshotId).bind _ =
      (db.exportSnapshots.lookup r.snapshotId).bind _
    rw [h.snapshot_lookup hr (hid ▸ hrun)]

/-! ### The transactions -/

/-- What a transaction beside the run `b` has to do. -/
abbrev Beside {ε α : Type} (lib : Externals) (b : ImportRun) (ids : Set Uuid) (env : Env)
    (V : α → Prop) (x : ArchiveTx ε α) : Prop :=
  Tx.Commutes (withoutRun b) (Apart lib b ids) env V x

/-- A rewrite of the run keeps `b` apart. -/
theorem Apart.advance {db : Db} (h : Apart lib b ids db) (hrun : runId ≠ b.runId)
    {state : ImportState} {g : ImportRun → ImportRun} (hg : ∀ r, (g r).runId = r.runId)
    (hreceipt : ∀ r, runReceipt (g r) = runReceipt r) :
    Apart lib b ids { db with
      importRuns := db.importRuns.update (ImportRun.inState runId state) g hg } where
  row := by
    have hb : ImportRun.inState runId state b = false := by
      rw [Bool.eq_false_iff]
      exact fun hin => hrun (inState_iff.mp hin).1.symm
    have hm := Table.mem_update_of_mem db.importRuns (ImportRun.inState runId state) g hg h.row
    rwa [hb] at hm
  snapshot q hq hsame := by
    obtain ⟨r, hr, rfl⟩ := Table.exists_of_mem_update hq
    split at hsame
    · have hkey := hreceipt r
      simp only [runReceipt, Prod.mk.injEq] at hkey
      rw [if_pos (by assumption), hkey.1]
      exact h.snapshot r hr (hkey.2.1.symm.trans hsame)
    · rw [if_neg (by assumption)]
      exact h.snapshot r hr hsame
  records := h.records
  transitions := h.transitions

theorem advanceRun_beside (hrun : runId ≠ b.runId) {state : ImportState}
    {g : ImportRun → ImportRun} {hg : ∀ r, (g r).runId = r.runId}
    (hreceipt : ∀ r, runReceipt (g r) = runReceipt r) :
    Beside lib b ids env (fun _ => True) (advanceRun runId state g hg) := by
  refine .statement fun db h => ⟨?_, ?_⟩
  · have hother : ∀ r, ImportRun.inState runId state r = true →
        decide (r.runId = b.runId) = false := by
      intro r hin
      rw [decide_eq_false_iff_not, (inState_iff.mp hin).1]
      exact hrun
    have hfilter := Table.filter_delete db.importRuns (fun r => decide (r.runId = b.runId)) hother
    have hupdate := Table.update_delete db.importRuns (ImportRun.inState runId state) g hg
      (fun r => decide (r.runId = b.runId)) fun r _ => by rw [hg]
    simp only [withoutRun, hfilter, hupdate, Except.map]
  · intro a db' he
    simp only [Except.ok.injEq, Prod.mk.injEq] at he
    rw [← he.2]
    exact ⟨trivial, h.advance hrun hg hreceipt⟩

theorem isNone_lookup_withoutRun (hrun : runId ≠ b.runId) (db : Db) :
    ((withoutRun b db).importRuns.lookup runId).isNone = (db.importRuns.lookup runId).isNone := by
  rw [lookup_withoutRun hrun]

theorem insertTransition_beside {row : ImportRunTransition} (hrow : row.runId ≠ b.runId)
    (hid : row.transitionId ∉ ids) :
    Beside lib b ids env (fun _ => True) (insertTransition row : ImportTx Unit) := by
  refine .insertInto (ψ := fun t => t.delete fun x => x.runId = b.runId) fun db h =>
    ⟨?_, ?_, fun t ht => ⟨rfl, ?_⟩⟩
  · have hany := Table.any_delete db.importRunTransitions (fun t => decide (t.runId = b.runId))
      (q := fun t => t.runId = row.runId && t.ordinal = row.ordinal) fun t ht => by
        simp only [Bool.and_eq_true, decide_eq_true_eq] at ht
        simpa [ht.1] using hrow
    unfold transitionGuard
    rw [isNone_lookup_withoutRun hrow]
    simp only [withoutRun, hany]
  · refine Table.insert?_delete _ _ (by simpa using hrow) fun t ht ht' hsame => hid ?_
    rw [← hsame]
    exact h.transitions t ht (by simpa using ht')
  · refine ⟨h.row, h.snapshot, h.records, fun t' ht' hown => ?_⟩
    rcases (Table.mem_of_insert? ht t').mp ht' with ht' | rfl
    · exact h.transitions t' ht' hown
    · exact (hrow hown).elim

/-- The identity of a record of another run. -/
structure OtherRecord (lib : Externals) (b : ImportRun) (row : ExportRecord) : Prop where
  run : row.runId ≠ b.runId
  id : (row.recordId = stagedRecordId lib row.runId row.evidenceKey) ∨
    ∃ parent, row.recordId = lib.newV5 (.named parent "identity-conflict")

theorem OtherRecord.insert?_withoutRun (hfree : lib.CollisionFree) {row : ExportRecord}
    (hrow : OtherRecord lib b row) {db : Db} (h : Apart lib b ids db) :
    (withoutRun b db).exportRecords.insert? row =
      (db.exportRecords.insert? row).map fun t => t.delete fun x => x.runId = b.runId := by
  refine Table.insert?_delete _ _ (by simpa using hrow.run) fun x hx hown hsame => ?_
  have hown : x.runId = b.runId := by simpa using hown
  obtain ⟨hid, hcolon⟩ := h.records x hx hown
  rw [hid] at hsame
  rcases hrow.id with hstaged | ⟨parent, hconflict⟩
  · rw [hstaged] at hsame
    exact hrow.run (stagedRecordId_inj hfree hsame).1.symm
  · rw [hconflict] at hsame
    have hname := (stagedRecordId_inj hfree hsame).2
    rw [hname] at hcolon
    exact absurd hcolon (by decide +kernel)

theorem OtherRecord.apart {row : ExportRecord} (hrow : OtherRecord lib b row) {db : Db}
    (h : Apart lib b ids db) {t : Table ExportRecord ExportRecord.recordId}
    (ht : db.exportRecords.insert? row = some t) :
    Apart lib b ids { db with exportRecords := t } := by
  refine ⟨h.row, h.snapshot, fun x hx hown => ?_, h.transitions⟩
  rcases (Table.mem_of_insert? ht x).mp hx with hx | rfl
  · exact h.records x hx hown
  · exact (hrow.run hown).elim

theorem sameKey_withoutRun {row : ExportRecord} (hrow : row.runId ≠ b.runId) (db : Db) :
    ((withoutRun b db).exportRecords.rows.any fun r =>
        r.runId = row.runId && r.evidenceKey = row.evidenceKey) =
      db.exportRecords.rows.any fun r => r.runId = row.runId && r.evidenceKey = row.evidenceKey := by
  refine Table.any_delete db.exportRecords _ fun r hr => ?_
  simp only [Bool.and_eq_true, decide_eq_true_eq] at hr
  simpa [hr.1] using hrow

theorem insertStagedRecord_beside (hfree : lib.CollisionFree) {row : ExportRecord}
    (hrow : OtherRecord lib b row) :
    Beside lib b ids env (fun _ => True) (insertStagedRecord row) := by
  refine .insertInto (ψ := fun t => t.delete fun x => x.runId = b.runId) fun db h =>
    ⟨?_, hrow.insert?_withoutRun hfree h, fun t ht => ⟨rfl, hrow.apart h ht⟩⟩
  unfold recordGuard
  rw [sameKey_withoutRun hrow.run, isNone_lookup_withoutRun hrow.run]

theorem stagedRecord_other (hrun : runId ≠ b.runId) {processedAt : Instant} {key category : String}
    {kind : ExportRecordKind} {path : String} {digest : Option (List UInt8)} {size : Nat}
    {providerId url : Option String} {payload : ExportPayload} :
    OtherRecord lib b (stagedRecord lib runId processedAt key kind category path digest size
      providerId url payload) := ⟨hrun, Or.inl rfl⟩

theorem endOfStage_beside {transition : Uuid → ImportRunTransition}
    (hrun : ∀ id, (transition id).runId ≠ b.runId) (hid : ∀ id, (transition id).transitionId = id)
    (henv : DrawsOutside ids env) :
    Beside lib b ids env (fun _ => True) (do
      let transitionId ← nowV7
      insertTransition (transition transitionId)
      commit : ImportTx Unit) := by
  have hdrawn : Beside lib b ids env (fun u => u ∉ ids) (nowV7 : ImportTx Uuid) := .nowV7 henv
  refine .bind hdrawn fun u hu => .bind (insertTransition_beside (hrun u) (by rwa [hid])) fun _ _ => ?_
  exact .query fun _ _ => ⟨rfl, trivial⟩

theorem finishInspection_beside (hrun : runId ≠ b.runId) (henv : DrawsOutside ids env)
    (failure : Option ArchiveFailureClass) :
    Beside lib b ids env (fun _ => True) (finishInspection runId failure) := by
  refine .bind .nowUtc fun occurredAt _ => ?_
  refine .bind (advanceRun_beside hrun fun _ => rfl) fun advanced _ => ?_
  split
  · exact .throw
  · exact endOfStage_beside (fun _ => hrun) (fun _ => rfl) henv

theorem failParse_beside (hrun : runId ≠ b.runId) (henv : DrawsOutside ids env)
    (failureClass : String) :
    Beside lib b ids env (fun _ => True) (failParse runId failureClass) := by
  refine .bind .nowUtc fun occurredAt _ => ?_
  refine .bind (advanceRun_beside hrun fun _ => rfl) fun advanced _ => ?_
  split
  · exact .throw
  · exact endOfStage_beside (fun _ => hrun) (fun _ => rfl) henv

/-! ### Staging -/

theorem stageRecords_beside (hfree : lib.CollisionFree) (hrun : runId ≠ b.runId)
    (processedAt : Instant) (records : List ParsedExportRecord) :
    Beside lib b ids env (fun _ => True) (stageRecords lib runId processedAt records) := by
  induction records with
  | nil => exact .pure trivial
  | cons r rest ih =>
    have hdigest : Beside lib b ids env (fun _ => True)
        (Tx.mapError ImportError.parser (Tx.ofExcept (decodeSha256 r.semanticDigest))) :=
      .mapError (.ofExcept fun _ _ => trivial)
    refine .bind hdigest fun digest _ => ?_
    exact .bind (insertStagedRecord_beside hfree (stagedRecord_other hrun)) fun _ _ => ih

theorem stageUnknownEntries_beside (hfree : lib.CollisionFree) (hrun : runId ≠ b.runId)
    (processedAt : Instant) (entries : List UnknownExportEntry) :
    Beside lib b ids env (fun _ => True) (stageUnknownEntries lib runId processedAt entries) := by
  induction entries with
  | nil => exact .pure trivial
  | cons e rest ih =>
    unfold stageUnknownEntries
    split
    · exact .throw
    · exact .bind (insertStagedRecord_beside hfree (stagedRecord_other hrun)) fun _ _ => ih

theorem stageUnknownRecords_beside (hfree : lib.CollisionFree) (hrun : runId ≠ b.runId)
    (processedAt : Instant) (records : List UnknownExportRecord) :
    Beside lib b ids env (fun _ => True) (stageUnknownRecords lib runId processedAt records) := by
  induction records with
  | nil => exact .pure trivial
  | cons r rest ih =>
    have hdigest : Beside lib b ids env (fun _ => True)
        (Tx.mapError ImportError.parser (Tx.ofExcept (decodeSha256 r.semanticDigest))) :=
      .mapError (.ofExcept fun _ _ => trivial)
    refine .bind hdigest fun digest _ => ?_
    split
    · exact .throw
    · exact .bind (insertStagedRecord_beside hfree (stagedRecord_other hrun)) fun _ _ => ih

theorem stageWarnings_beside (hfree : lib.CollisionFree) (hrun : runId ≠ b.runId)
    (processedAt : Instant) (warnings : List ParserWarning) :
    Beside lib b ids env (fun _ => True) (stageWarnings lib runId processedAt warnings) := by
  induction warnings with
  | nil => exact .pure trivial
  | cons w rest ih =>
    exact .bind (insertStagedRecord_beside hfree (stagedRecord_other hrun)) fun _ _ => ih

theorem persistParsed_beside (hfree : lib.CollisionFree) (hrun : runId ≠ b.runId)
    (henv : DrawsOutside ids env) (parsed : ParsedExport) :
    Beside lib b ids env (fun _ => True) (persistParsed lib runId parsed) := by
  refine .bind .nowUtc fun processedAt _ => ?_
  have hstate : Beside lib b ids env (fun _ => True) (Tx.query fun db =>
      (db.importRuns.lookup runId).map ImportRun.state : ImportTx (Option ImportState)) :=
    .query fun db _ => ⟨by rw [lookup_withoutRun hrun], trivial⟩
  refine .bind hstate fun state _ => ?_
  split
  · exact .throw
  refine .bind (stageRecords_beside hfree hrun _ _) fun _ _ => ?_
  refine .bind (stageUnknownEntries_beside hfree hrun _ _) fun _ _ => ?_
  refine .bind (stageUnknownRecords_beside hfree hrun _ _) fun _ _ => ?_
  refine .bind (stageWarnings_beside hfree hrun _ _) fun _ _ => ?_
  refine .bind (advanceRun_beside hrun fun _ => rfl) fun advanced _ => ?_
  split
  · exact .throw
  · exact endOfStage_beside (fun _ => hrun) (fun _ => rfl) henv

/-! ### Reconciliation -/

theorem map_unchanged {α : Type} (o : Option α) : o = o.map id := by
  rw [Option.map_id, id]

/-- A change of tables that `b` has no rows in. -/
theorem Apart.projection {db : Db} (h : Apart lib b ids db) (media : Table Media Media.mediaId)
    (raws : Table RawRecord RawRecord.rawRecordId)
    (revisions : Table MediaRevision MediaRevision.revisionId)
    (outbox : Table OutboxEvent OutboxEvent.eventId)
    (reports : Table ExportCompletenessReport ExportCompletenessReport.reportId) :
    Apart lib b ids { db with
      media := media
      rawRecords := raws
      mediaRevisions := revisions
      outboxEvents := outbox
      exportReports := reports } :=
  ⟨h.row, h.snapshot, h.records, h.transitions⟩

variable {ctx : RunContext}

theorem persistConflict_beside (hfree : lib.CollisionFree) (hrun : ctx.runId ≠ b.runId)
    (row : NormalizedRow) :
    Beside lib b ids env (fun _ => True) (persistConflict lib ctx row) := by
  have hrow : OtherRecord lib b (conflictRecord lib ctx row) :=
    ⟨hrun, Or.inr ⟨row.recordId, rfl⟩⟩
  refine .bind (.insertUnless (ψ := fun t => t.delete fun x => x.runId = b.runId) fun db h => ?_)
    fun _ _ => .pure trivial
  refine ⟨sameKey_withoutRun hrow.run db, ?_, hrow.insert?_withoutRun hfree h,
    fun t ht => ⟨rfl, hrow.apart h ht⟩⟩
  rw [isNone_lookup_withoutRun hrun]

theorem exportMediaId_beside (row : NormalizedRow) (found : Option Media) :
    Beside lib b ids env (fun _ => True) (exportMediaId lib ctx row found) := by
  cases found with
  | some m => exact .pure trivial
  | none =>
    refine .bind (.insertInto (ψ := id) fun db h => ⟨rfl, map_unchanged _, fun t _ => ?_⟩)
      fun _ _ => .pure trivial
    exact ⟨rfl, h.projection t _ _ _ _⟩

theorem insertEvidence_beside (row : NormalizedRow) (mediaId : Uuid) :
    Beside lib b ids env (fun _ => True) (insertEvidence lib ctx row mediaId) := by
  refine .bind (.insertUnless (ψ := id) fun db h => ⟨rfl, rfl, map_unchanged _, fun t _ => ?_⟩)
    fun _ _ => ?_
  · exact ⟨rfl, h.projection _ t _ _ _⟩
  refine .bind (.insertUnless (ψ := id) fun db h => ⟨rfl, rfl, map_unchanged _, fun t _ => ?_⟩)
    fun _ _ => .pure trivial
  exact ⟨rfl, h.projection _ _ t _ _⟩

theorem projectExport_beside (row : NormalizedRow) (mediaId : Uuid) (observedAt : Instant) :
    Beside lib b ids env (fun _ => True) (projectExport lib row mediaId observedAt) :=
  .executeChecked fun _ h => ⟨rfl, rfl, h.projection _ _ _ _ _⟩

theorem appendDataExportFact_beside (mediaId owner : Uuid) (row : NormalizedRow) (archive : BlobRef)
    (observedAt : Instant) :
    Beside lib b ids env (fun _ => True)
      (appendDataExportFact lib mediaId owner row archive observedAt) := by
  have hprior : Beside lib b ids env (fun _ => True)
      (Tx.query (priorFacts (ownMediaSourceIdentity lib owner row.providerId)) :
        ArchiveTx PublishError (List OutboxEvent)) := .query fun _ _ => ⟨rfl, trivial⟩
  refine .bind hprior fun prior _ => ?_
  split
  · exact .pure trivial
  refine .bind (.ofExcept fun _ _ => trivial) fun _ _ => ?_
  refine .bind (.nowV7 (W := fun _ => True) fun _ => trivial) fun eventId _ => ?_
  refine .insertUnless (ψ := id) fun db h => ⟨rfl, rfl, map_unchanged _, fun t _ => ?_⟩
  exact ⟨rfl, h.projection _ _ _ t _⟩

theorem reconcileRecord_beside (hfree : lib.CollisionFree) (hrun : ctx.runId ≠ b.runId)
    (row : NormalizedRow) :
    Beside lib b ids env (fun _ => True) (reconcileRecord lib ctx row) := by
  have hmatches : Beside lib b ids env (fun _ => True)
      (Tx.query (exportMatches row.providerId row.canonicalUrl) : ImportTx (List Media)) :=
    .query fun _ _ => ⟨rfl, trivial⟩
  refine .bind hmatches fun found _ => ?_
  split
  · exact persistConflict_beside hfree hrun row
  refine .bind (exportMediaId_beside row _) fun mediaId _ => ?_
  refine .bind (insertEvidence_beside row mediaId) fun _ _ => ?_
  have hfact : Beside lib b ids env (fun _ => True)
      (appendDataExportFact lib mediaId ctx.owner row ctx.archive ctx.observedAt) :=
    appendDataExportFact_beside _ _ _ _ _
  have hrest : Beside lib b ids env (fun _ => True) (do
      let _ ← mapError .publish
        (appendDataExportFact lib mediaId ctx.owner row ctx.archive ctx.observedAt)
      : ImportTx Unit) := .bind hfact.mapError fun _ _ => .pure trivial
  dsimp only
  split
  · exact .bind (projectExport_beside _ _ _) fun _ _ => hrest
  · exact hrest

theorem reconcileRecords_beside (hfree : lib.CollisionFree) (hrun : ctx.runId ≠ b.runId)
    (rows : List NormalizedRow) :
    Beside lib b ids env (fun _ => True) (reconcileRecords lib ctx rows) := by
  induction rows with
  | nil => exact .pure trivial
  | cons row rest ih => exact .bind (reconcileRecord_beside hfree hrun row) fun _ _ => ih

theorem normalizedRecords_withoutRun (hrun : runId ≠ b.runId) (db : Db) :
    normalizedRecords runId (withoutRun b db) = normalizedRecords runId db := by
  unfold normalizedRecords
  congr 1
  refine Table.filter_delete db.exportRecords _ fun x hx => ?_
  simp only [Bool.and_eq_true, decide_eq_true_eq] at hx
  simpa [hx.1.1.1] using hrun

theorem buildReport_withoutRun (hrun : ctx.runId ≠ b.runId) (records : List NormalizedRow)
    (db : Db) : buildReport ctx records (withoutRun b db) = buildReport ctx records db := by
  have hstaged : ((withoutRun b db).exportRecords.rows.filter fun r => r.runId = ctx.runId) =
      db.exportRecords.rows.filter fun r => r.runId = ctx.runId := by
    refine Table.filter_delete db.exportRecords _ fun x hx => ?_
    simp only [decide_eq_true_eq] at hx
    simpa [hx] using hrun
  unfold buildReport
  rw [hstaged]
  rfl

theorem reconcileParsed_beside (hfree : lib.CollisionFree) (hrun : ctx.runId ≠ b.runId)
    (henv : DrawsOutside ids env) :
    Beside lib b ids env (fun _ => True) (reconcileParsed lib ctx) := by
  have hstored : Beside lib b ids env (fun _ => True)
      (Tx.query (normalizedRecords ctx.runId) : ImportTx (List ExportRecord)) :=
    .query fun db _ => ⟨normalizedRecords_withoutRun hrun db, trivial⟩
  refine .bind hstored fun stored _ => ?_
  refine .bind (.ofExcept fun _ _ => trivial) fun records _ => ?_
  refine .bind (reconcileRecords_beside hfree hrun records) fun _ _ => ?_
  have hreport : Beside lib b ids env (fun _ => True)
      (Tx.query (buildReport ctx records) : ImportTx CompletenessReport) :=
    .query fun db _ => ⟨buildReport_withoutRun hrun records db, trivial⟩
  refine .bind hreport fun report _ => ?_
  refine .bind (.insertInto (ψ := id) fun db h => ⟨?_, map_unchanged _, fun t _ => ?_⟩)
    fun _ _ => ?_
  · unfold reportGuard
    have hrow : (reportRow lib ctx report).runId ≠ b.runId := hrun
    rw [isNone_lookup_withoutRun hrow]
    rfl
  · exact ⟨rfl, h.projection _ _ _ _ t⟩
  refine .bind (advanceRun_beside hrun fun _ => rfl) fun advanced _ => ?_
  split
  · exact .throw
  have hdrawn : Beside lib b ids env (fun u => u ∉ ids) (nowV7 : ImportTx Uuid) := .nowV7 henv
  refine .bind hdrawn fun u hu => .bind (insertTransition_beside hrun hu) fun _ _ => ?_
  have hcommit : Beside lib b ids env (fun _ => True) (commit : ImportTx Unit) :=
    .query fun _ _ => ⟨rfl, trivial⟩
  exact .bind hcommit fun _ _ => .pure trivial

theorem reconcile_beside (hfree : lib.CollisionFree) (hrun : runId ≠ b.runId)
    (henv : DrawsOutside ids env) :
    Beside lib b ids env (fun _ => True) (reconcile lib runId) := by
  have hctx : Beside lib b ids env (fun r : ImportState × RunContext => r.2.runId = runId)
      (Tx.fetchOne .stateConflict (importContext runId) : ImportTx (ImportState × RunContext)) := by
    refine .fetchOne fun db h => ⟨importContext_withoutRun hrun h, ?_⟩
    rintro ⟨state, ctx⟩ hfound
    obtain ⟨r, -, -, -, hid, -⟩ := importContext_some hfound
    exact hid
  refine .bind hctx ?_
  rintro ⟨state, ctx⟩ hid
  dsimp only at hid
  subst hid
  cases state with
  | received | inspected | failed => exact .throw
  | reconciled => exact .fetchOne fun _ _ => ⟨rfl, fun _ _ => trivial⟩
  | parsed => exact reconcileParsed_beside hfree hrun henv

/-! ### The scripts -/

/-- What a script beside the run `b` has to do. -/
abbrev BesideAll {α : Type} (lib : Externals) (b : ImportRun) (ids : Set Uuid)
    (x : ImportScript α) : Prop :=
  Script.Commutes (withoutRun b) (Apart lib b ids) (DrawsOutside ids) x

theorem openArchive_beside (archive : BlobRef) (file : FileRequest) :
    BesideAll lib b ids (openArchive archive file) := by
  unfold openArchive
  split
  · exact .fail _
  · refine .bind (.request _) fun answer => ?_
    cases answer with
    | error e => exact .fail _
    | ok found => exact .pure _

theorem runArchive_beside (hrun : runId ≠ b.runId) :
    BesideAll lib b ids (tx (fetchOne .stateConflict (runArchive runId))) :=
  .tx fun _ _ => .fetchOne fun _ h => ⟨runArchive_withoutRun hrun h, fun _ _ => trivial⟩

theorem inspect_beside (hrun : runId ≠ b.runId) : BesideAll lib b ids (inspect runId) := by
  refine .bind (runArchive_beside hrun) ?_
  rintro ⟨state, archive, file⟩
  dsimp only
  split
  · exact .fail _
  · refine .bind (openArchive_beside archive file) fun found => ?_
    cases found with
    | ok _ => exact .tx fun _ henv => finishInspection_beside hrun henv none
    | error failure =>
      exact .bind (.tx fun _ henv => finishInspection_beside hrun henv _) fun _ => .fail _

theorem parse_beside (hfree : lib.CollisionFree) (hrun : runId ≠ b.runId) :
    BesideAll lib b ids (parse lib runId) := by
  refine .bind (runArchive_beside hrun) ?_
  rintro ⟨state, archive, file⟩
  dsimp only
  split
  · exact .fail _
  · refine .bind (openArchive_beside archive file) fun found => ?_
    cases parseFile lib found with
    | ok parsed => exact .tx fun _ henv => persistParsed_beside hfree hrun henv parsed
    | error error =>
      exact .bind (.tx fun _ henv => failParse_beside hrun henv _) fun _ => .fail _

theorem handledInputFailure_beside (e : ImportError) :
    BesideAll lib b ids (handledInputFailure e) := by
  cases e <;> first | exact .pure _ | exact .fail _

theorem advanceParsed_beside (hfree : lib.CollisionFree) (hrun : runId ≠ b.runId) :
    BesideAll lib b ids (advanceParsed lib runId) :=
  .bind (.tx fun _ henv => reconcile_beside hfree hrun henv) fun _ => .pure _

theorem advanceInspected_beside (hfree : lib.CollisionFree) (hrun : runId ≠ b.runId) :
    BesideAll lib b ids (advanceInspected lib runId) := by
  refine .bind (parse_beside hfree hrun).attempt fun r => ?_
  cases r with
  | error e => exact handledInputFailure_beside e
  | ok _ => exact advanceParsed_beside hfree hrun

/-- **Advancing a run beside another one.** -/
theorem advance_beside (hfree : lib.CollisionFree) (hrun : runId ≠ b.runId) (state : ImportState) :
    BesideAll lib b ids (advance lib runId state) := by
  cases state with
  | received =>
    refine .bind (inspect_beside hrun).attempt fun r => ?_
    cases r with
    | error e => exact handledInputFailure_beside e
    | ok _ => exact advanceInspected_beside hfree hrun
  | inspected => exact advanceInspected_beside hfree hrun
  | parsed => exact advanceParsed_beside hfree hrun
  | reconciled | failed => exact .pure _

end Beside

end InstagramArchive.DataExport

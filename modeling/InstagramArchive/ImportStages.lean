import InstagramArchive.DataExportWorker
import InstagramArchive.ReceiptTables

/-!
# What the stages of an import run commit

`StateMove` is the compare-and-swap at the heart of every stage, with the transition row that
goes with it. Each stage is such a move together with the rows of its own: staging appends the
rows of a parsed archive, reconciliation projects them, keeps conflicts and appends facts.
`ImportWrite` lists the transactions of the import lane.
-/

namespace InstagramArchive.DataExport

open Relational Relational.Tx Relational.Script

/-! ## Moves -/

/-- The run moved from `source` to `target`, rewritten by `g`, and recorded the transition. -/
structure StateMove (runId : Uuid) (ordinal : Nat) (source target : ImportState)
    (g : ImportRun → ImportRun) (db db' : Db) : Prop where
  run : ∃ r ∈ db.importRuns, r.runId = runId ∧ r.state = source
  rewrite : ∀ r, runReceipt (g r) = runReceipt r ∧ (g r).receivedAt = r.receivedAt ∧
    (g r).state = target
  runs : db'.importRuns.rows = db.importRuns.rows.map fun r =>
    if ImportRun.inState runId source r then g r else r
  transition : ∃ t, db.importRunTransitions.insert? t = some db'.importRunTransitions ∧
    t.runId = runId ∧ t.ordinal = ordinal ∧ t.fromState = some source ∧ t.toState = target

section Moves

variable {env : Env} {db db' : Db} {runId : Uuid} {u : Unit}

theorem inState_iff {state : ImportState} {r : ImportRun} :
    ImportRun.inState runId state r = true ↔ r.runId = runId ∧ r.state = state := by
  simp [ImportRun.inState]

theorem advanceRun_yields {state : ImportState} {g : ImportRun → ImportRun}
    {hg : ∀ r, (g r).runId = r.runId} {b : Bool}
    (h : (advanceRun runId state g hg).Yields env db b db') :
    (b = true → ∃ r ∈ db.importRuns, r.runId = runId ∧ r.state = state) ∧
      db' = { db with
        importRuns := db.importRuns.update (ImportRun.inState runId state) g hg } := by
  have h := h.statement
  simp only [Except.ok.injEq, Prod.mk.injEq] at h
  refine ⟨fun hb => ?_, h.2.symm⟩
  rw [← h.1, decide_eq_true_eq] at hb
  obtain ⟨r, hr⟩ := List.length_eq_one_iff.mp hb
  have hmem : r ∈ db.importRuns.rows.filter (ImportRun.inState runId state) := by simp [hr]
  obtain ⟨hrow, hstate⟩ := List.mem_filter.mp hmem
  exact ⟨r, hrow, inState_iff.mp hstate⟩

theorem insertTransition_yields {row : ImportRunTransition}
    (h : (insertTransition row : ImportTx Unit).Yields env db u db') :
    ∃ t, db.importRunTransitions.insert? row = some t ∧
      db' = { db with importRunTransitions := t } := by
  obtain ⟨-, t, ht, rfl⟩ := Yields.insertInto h
  exact ⟨t, ht, rfl⟩

/-- The end of a stage: the transition row and the commit. -/
theorem endOfStage_yields {transition : Uuid → ImportRunTransition}
    (h : (do
      let transitionId ← nowV7
      insertTransition (transition transitionId)
      commit : ImportTx Unit).Yields env db u db') :
    ∃ transitionId t, db.importRunTransitions.insert? (transition transitionId) = some t ∧
      db' = { db with importRunTransitions := t } := by
  obtain ⟨transitionId, _, h1, h⟩ := h.bind
  obtain rfl := h1.nowV7
  obtain ⟨_, _, h2, h⟩ := h.bind
  obtain ⟨t, ht, rfl⟩ := insertTransition_yields h2
  obtain rfl := h.commit
  exact ⟨transitionId, t, ht, rfl⟩

/-- The tables a move writes. -/
def OnlyRuns (db db' : Db) : Prop :=
  ∃ runs transitions, db' = { db with importRuns := runs, importRunTransitions := transitions }

theorem OnlyRuns.snapshots (h : OnlyRuns db db') : db'.exportSnapshots = db.exportSnapshots := by
  obtain ⟨runs, transitions, rfl⟩ := h
  rfl

theorem finishInspection_yields {failure : Option ArchiveFailureClass}
    (h : (finishInspection runId failure).Yields env db u db') :
    (∃ g, (∀ r, (g r).recordsProcessed = r.recordsProcessed) ∧
      StateMove runId 2 .received (if failure.isSome then .failed else .inspected) g db db') ∧
      OnlyRuns db db' := by
  obtain ⟨occurredAt, _, h1, h⟩ := h.bind
  obtain rfl := h1.nowUtc
  obtain ⟨advanced, _, h2, h⟩ := h.bind
  obtain ⟨hrun, rfl⟩ := advanceRun_yields h2
  split at h
  · exact h.throw.elim
  · rename_i hadvanced
    obtain ⟨transitionId, t, ht, rfl⟩ := endOfStage_yields h
    refine ⟨⟨_, ?_, hrun (by simpa using hadvanced), ?_, rfl, _, ht, rfl, rfl, rfl, rfl⟩, _, t, rfl⟩
    · exact fun _ => rfl
    · exact fun r => ⟨rfl, rfl, rfl⟩

theorem failParse_yields {failureClass : String}
    (h : (failParse runId failureClass).Yields env db u db') :
    (∃ g, (∀ r, (g r).recordsProcessed = r.recordsProcessed) ∧
      StateMove runId 3 .inspected .failed g db db') ∧ OnlyRuns db db' := by
  obtain ⟨occurredAt, _, h1, h⟩ := h.bind
  obtain rfl := h1.nowUtc
  obtain ⟨advanced, _, h2, h⟩ := h.bind
  obtain ⟨hrun, rfl⟩ := advanceRun_yields h2
  split at h
  · exact h.throw.elim
  · rename_i hadvanced
    obtain ⟨transitionId, t, ht, rfl⟩ := endOfStage_yields h
    refine ⟨⟨_, ?_, hrun (by simpa using hadvanced), ?_, rfl, _, ht, rfl, rfl, rfl, rfl⟩, _, t, rfl⟩
    · exact fun _ => rfl
    · exact fun r => ⟨rfl, rfl, rfl⟩

end Moves

/-! ## Staging -/

/-- The staged row of something the parser returned. -/
inductive StagedAs (lib : Externals) (runId : Uuid) (processedAt : Instant)
    (parsed : ParsedExport) : ExportRecord → Prop
  | normalized {r : ParsedExportRecord} {digest : List UInt8} (hr : r ∈ parsed.records)
      (hd : decodeSha256 r.semanticDigest = .ok digest) :
      StagedAs lib runId processedAt parsed (stagedRecord lib runId processedAt (normalizedKey r)
        .normalized "saved_posts" savedPostsPath (some digest) r.json.utf8ByteSize
        (some r.shortcode) (some r.canonicalUrl) (.document r.json))
  | unknownSection {e : UnknownExportEntry} (he : e ∈ parsed.unknownEntries) :
      StagedAs lib runId processedAt parsed (stagedRecord lib runId processedAt
        (unknownSectionKey e) .unknownSection "unknown" e.path none e.decompressedSize none none
        (.document e.json))
  | unknownRecord {r : UnknownExportRecord} {digest : List UInt8} (hr : r ∈ parsed.unknownRecords)
      (hd : decodeSha256 r.semanticDigest = .ok digest) :
      StagedAs lib runId processedAt parsed (stagedRecord lib runId processedAt r.evidenceKey
        .unknownRecord "saved_posts" savedPostsPath (some digest) r.raw.render.utf8ByteSize none
        none (.document r.raw.render))
  | warning {w : ParserWarning} (hw : w ∈ parsed.warnings) :
      StagedAs lib runId processedAt parsed (stagedRecord lib runId processedAt (warningKey w)
        .warning "warning" savedPostsPath none w.json.utf8ByteSize none none
        (.warning w.code w.json))

/-- Rows with these keys, each the row of something parsed, were appended to the staging. -/
def Stages (lib : Externals) (runId : Uuid) (processedAt : Instant) (parsed : ParsedExport)
    (keys : List String) (db db' : Db) : Prop :=
  ∃ t rows, db' = { db with exportRecords := t } ∧ t.rows = db.exportRecords.rows ++ rows ∧
    rows.map ExportRecord.evidenceKey = keys ∧
    ∀ x ∈ rows, StagedAs lib runId processedAt parsed x

section Staging

variable {lib : Externals} {env : Env} {db db' db'' : Db} {runId : Uuid} {processedAt : Instant}
  {parsed : ParsedExport} {u : Unit} {keys keys' : List String}

theorem StagedAs.facts {x : ExportRecord} (h : StagedAs lib runId processedAt parsed x) :
    x.runId = runId ∧ x.recordKind ≠ .conflict ∧
      x.recordId = stagedRecordId lib runId x.evidenceKey := by
  cases h <;> exact ⟨rfl, by simp [stagedRecord], rfl⟩

theorem Stages.nil : Stages lib runId processedAt parsed [] db db :=
  ⟨db.exportRecords, [], rfl, by simp, rfl, by simp⟩

theorem Stages.append (h : Stages lib runId processedAt parsed keys db db')
    (h' : Stages lib runId processedAt parsed keys' db' db'') :
    Stages lib runId processedAt parsed (keys ++ keys') db db'' := by
  obtain ⟨t, rows, rfl, ht, hkeys, hrows⟩ := h
  obtain ⟨t', rows', rfl, ht', hkeys', hrows'⟩ := h'
  refine ⟨t', rows ++ rows', rfl, ?_, ?_, ?_⟩
  · rw [ht', ht, List.append_assoc]
  · rw [List.map_append, hkeys, hkeys']
  · intro x hx
    rcases List.mem_append.mp hx with hx | hx
    · exact hrows x hx
    · exact hrows' x hx

theorem insertStagedRecord_stages {row : ExportRecord}
    (hrow : StagedAs lib runId processedAt parsed row)
    (h : (insertStagedRecord row).Yields env db u db') :
    Stages lib runId processedAt parsed [row.evidenceKey] db db' := by
  obtain ⟨-, t, ht, rfl⟩ := Yields.insertInto h
  refine ⟨t, [row], rfl, (Table.insert?_eq_some ht).1, rfl, ?_⟩
  intro x hx
  rw [List.mem_singleton.mp hx]
  exact hrow

/-- A staging loop, by induction on what it stages. -/
theorem stage_each {α : Type} {loop : List α → ImportTx Unit} {key : α → String} (items : List α)
    (hnil : ∀ env db u db', (loop []).Yields env db u db' → db' = db)
    (hcons : ∀ item rest env db u db', item ∈ items →
      (loop (item :: rest)).Yields env db u db' →
      ∃ m, Stages lib runId processedAt parsed [key item] db m ∧ (loop rest).Yields env m u db')
    (h : (loop items).Yields env db u db') :
    Stages lib runId processedAt parsed (items.map key) db db' := by
  induction items generalizing db with
  | nil =>
    rw [hnil env db u db' h]
    exact .nil
  | cons item rest ih =>
    obtain ⟨m, hm, hrest⟩ := hcons item rest env db u db' (by simp) h
    have htail := ih (fun item' rest' env db u db' hmem => hcons item' rest' env db u db'
      (List.mem_cons_of_mem _ hmem)) hrest
    exact hm.append htail

theorem stageRecords_stages
    (h : (stageRecords lib runId processedAt parsed.records).Yields env db u db') :
    Stages lib runId processedAt parsed (parsed.records.map normalizedKey) db db' := by
  apply stage_each parsed.records _ _ h
  · exact fun env db u db' h => (yields_pure.mp h).2.symm
  · intro r rest env db u db' hr h
    obtain ⟨digest, _, h1, h⟩ := h.bind
    obtain ⟨hd, rfl⟩ := h1.mapError.ofExcept
    obtain ⟨_, m, h2, h⟩ := h.bind
    exact ⟨m, insertStagedRecord_stages (.normalized hr hd) h2, h⟩

theorem stageUnknownEntries_stages
    (h : (stageUnknownEntries lib runId processedAt parsed.unknownEntries).Yields env db u db') :
    Stages lib runId processedAt parsed (parsed.unknownEntries.map unknownSectionKey) db db' := by
  apply stage_each parsed.unknownEntries _ _ h
  · exact fun env db u db' h => (yields_pure.mp h).2.symm
  · intro e rest env db u db' he h
    unfold stageUnknownEntries at h
    split at h
    · exact h.throw.elim
    · obtain ⟨_, m, h2, h⟩ := h.bind
      exact ⟨m, insertStagedRecord_stages (.unknownSection he) h2, h⟩

theorem stageUnknownRecords_stages
    (h : (stageUnknownRecords lib runId processedAt parsed.unknownRecords).Yields env db u db') :
    Stages lib runId processedAt parsed
      (parsed.unknownRecords.map UnknownExportRecord.evidenceKey) db db' := by
  apply stage_each parsed.unknownRecords _ _ h
  · exact fun env db u db' h => (yields_pure.mp h).2.symm
  · intro r rest env db u db' hr h
    obtain ⟨digest, _, h1, h⟩ := h.bind
    obtain ⟨hd, rfl⟩ := h1.mapError.ofExcept
    split at h
    · exact h.throw.elim
    · obtain ⟨_, m, h2, h⟩ := h.bind
      exact ⟨m, insertStagedRecord_stages (.unknownRecord hr hd) h2, h⟩

/-- A committed staging kept no value with a character the database does not store. -/
theorem stageUnknownRecords_noNul {records : List UnknownExportRecord}
    (h : (stageUnknownRecords lib runId processedAt records).Yields env db u db') :
    ∀ r ∈ records, r.raw.hasNul = false := by
  induction records generalizing db with
  | nil => simp
  | cons r rest ih =>
    obtain ⟨digest, _, -, h⟩ := h.bind
    split at h
    · exact h.throw.elim
    · rename_i hnul
      obtain ⟨_, m, -, h⟩ := h.bind
      exact List.forall_mem_cons.mpr ⟨by simpa using hnul, ih h⟩

theorem stageWarnings_stages
    (h : (stageWarnings lib runId processedAt parsed.warnings).Yields env db u db') :
    Stages lib runId processedAt parsed (parsed.warnings.map warningKey) db db' := by
  apply stage_each parsed.warnings _ _ h
  · exact fun env db u db' h => (yields_pure.mp h).2.symm
  · intro w rest env db u db' hw h
    obtain ⟨_, m, h2, h⟩ := h.bind
    exact ⟨m, insertStagedRecord_stages (.warning hw) h2, h⟩

/-- The run as `persist_parsed` leaves it. -/
def parsedRun (parsed : ParsedExport) (processedAt : Instant) (r : ImportRun) : ImportRun :=
  { r with
    state := .parsed
    detectedLayout := some detectedLayout
    parserId := some dataExportParserId
    recordsProcessed := (evidenceKeys parsed).length
    warningCount := parsed.warnings.length
    updatedAt := processedAt }

theorem length_evidenceKeys (parsed : ParsedExport) :
    (evidenceKeys parsed).length = parsed.records.length + parsed.unknownEntries.length +
      parsed.unknownRecords.length + parsed.warnings.length := by
  simp [evidenceKeys, Nat.add_assoc]

/-- A committed staging appends one row for each evidence key and moves the run. -/
theorem persistParsed_yields (h : (persistParsed lib runId parsed).Yields env db u db') :
    ∃ processedAt, StateMove runId 3 .inspected .parsed (parsedRun parsed processedAt) db db' ∧
      ∃ staged records runs transitions,
        db' = { db with
          exportRecords := records
          importRuns := runs
          importRunTransitions := transitions } ∧
        records.rows = db.exportRecords.rows ++ staged ∧
        staged.map ExportRecord.evidenceKey = evidenceKeys parsed ∧
        (∀ x ∈ staged, StagedAs lib runId processedAt parsed x) ∧
        ∀ r ∈ parsed.unknownRecords, r.raw.hasNul = false := by
  obtain ⟨processedAt, _, h1, h⟩ := h.bind
  obtain rfl := h1.nowUtc
  obtain ⟨state, _, h2, h⟩ := h.bind
  obtain ⟨-, rfl⟩ := h2.query
  split at h
  · exact h.throw.elim
  obtain ⟨_, m1, h3, h⟩ := Yields.bind h
  obtain ⟨_, m2, h4, h⟩ := h.bind
  obtain ⟨_, m3, h5, h⟩ := h.bind
  obtain ⟨_, m4, h6, h⟩ := h.bind
  have hstages := ((stageRecords_stages h3).append (stageUnknownEntries_stages h4)).append
    ((stageUnknownRecords_stages h5).append (stageWarnings_stages h6))
  have hnul := stageUnknownRecords_noNul h5
  obtain ⟨records, staged, rfl, hrecords, hkeys, hstaged⟩ := hstages
  obtain ⟨advanced, _, h7, h⟩ := h.bind
  obtain ⟨hrun, rfl⟩ := advanceRun_yields h7
  split at h
  · exact h.throw.elim
  rename_i hadvanced
  obtain ⟨transitionId, t, ht, rfl⟩ := endOfStage_yields h
  refine ⟨processedAt, ⟨hrun (by simpa using hadvanced), fun r => ⟨rfl, rfl, rfl⟩, ?_, _, ht, rfl,
    rfl, rfl, rfl⟩, staged, records, _, t, rfl, hrecords, ?_, hstaged, hnul⟩
  · simp only [parsedRun, length_evidenceKeys]
    rfl
  · rw [hkeys, evidenceKeys, List.append_assoc]

end Staging

/-! ## Reconciliation -/

/-- A fact about an export observation of the run: of its owner, with its archive. -/
def ExportFact (owner : Uuid) (archive : BlobRef) (e : OutboxEvent) : Prop :=
  ∃ (kind : FactKind) (snapshot : SocialSourceSnapshot), e.payload.payload = kind.payload snapshot ∧
    snapshot.acquisition = .dataExport ∧ snapshot.owner = owner ∧ snapshot.rawBlob = some archive

/-- A conflict row of the run. -/
def ConflictRow (lib : Externals) (runId : Uuid) (x : ExportRecord) : Prop :=
  x.runId = runId ∧ x.recordKind = .conflict ∧
    ∃ parent, x.recordId = lib.newV5 (.named parent "identity-conflict")

/-- What reconciling records leaves behind. -/
structure Reconciles (lib : Externals) (ctx : RunContext) (db db' : Db) : Prop where
  same : ∃ media raws revisions outbox records, db' = { db with
    media := media
    rawRecords := raws
    mediaRevisions := revisions
    outboxEvents := outbox
    exportRecords := records }
  records : ∃ conflicts, db'.exportRecords.rows = db.exportRecords.rows ++ conflicts ∧
    ∀ x ∈ conflicts, ConflictRow lib ctx.runId x
  facts : ∃ facts, db'.outboxEvents.rows = db.outboxEvents.rows ++ facts ∧
    ∀ e ∈ facts, ExportFact ctx.owner ctx.archive e

section Reconciliation

variable {lib : Externals} {ctx : RunContext} {env : Env} {db db' db'' : Db} {u : Unit}

theorem append_of_append {α : Type} {P : α → Prop} {a b c : List α}
    (h : ∃ l, b = a ++ l ∧ ∀ x ∈ l, P x) (h' : ∃ l, c = b ++ l ∧ ∀ x ∈ l, P x) :
    ∃ l, c = a ++ l ∧ ∀ x ∈ l, P x := by
  obtain ⟨l, rfl, hl⟩ := h
  obtain ⟨l', rfl, hl'⟩ := h'
  refine ⟨l ++ l', by simp, fun x hx => ?_⟩
  rcases List.mem_append.mp hx with hx | hx
  · exact hl x hx
  · exact hl' x hx

theorem Reconciles.refl (db : Db) : Reconciles lib ctx db db :=
  ⟨⟨_, _, _, _, _, rfl⟩, ⟨[], by simp⟩, ⟨[], by simp⟩⟩

theorem Reconciles.trans (h : Reconciles lib ctx db db') (h' : Reconciles lib ctx db' db'') :
    Reconciles lib ctx db db'' := by
  refine ⟨?_, append_of_append h.records h'.records, append_of_append h.facts h'.facts⟩
  obtain ⟨m, r, v, o, x, rfl⟩ := h.same
  obtain ⟨m', r', v', o', x', rfl⟩ := h'.same
  exact ⟨m', r', v', o', x', rfl⟩

instance : IsPreorder Db (Reconciles lib ctx) where
  refl := Reconciles.refl
  trans _ _ _ h h' := h.trans h'

/-- A write to the media projection. -/
theorem Reconciles.projection (db : Db) (media : Table Media Media.mediaId)
    (raws : Table RawRecord RawRecord.rawRecordId)
    (revisions : Table MediaRevision MediaRevision.revisionId) :
    Reconciles lib ctx db
      { db with media := media, rawRecords := raws, mediaRevisions := revisions } :=
  ⟨⟨_, _, _, _, _, rfl⟩, ⟨[], by simp⟩, ⟨[], by simp⟩⟩

theorem persistConflict_reconciles (row : NormalizedRow) :
    (persistConflict lib ctx row).Respects (Reconciles lib ctx) := by
  intro env db u db' h
  obtain ⟨b, _, h1, h⟩ := h.bind
  obtain ⟨-, rfl⟩ := yields_pure.mp h
  rcases h1.insertUnless with ⟨-, -, rfl⟩ | ⟨-, -, -, t, ht, rfl⟩
  · exact .refl db
  · refine ⟨⟨_, _, _, _, _, rfl⟩, ⟨[conflictRecord lib ctx row], (Table.insert?_eq_some ht).1, ?_⟩,
      ⟨[], by simp⟩⟩
    simp only [List.mem_singleton, forall_eq]
    exact ⟨rfl, rfl, row.recordId, rfl⟩

theorem exportMediaId_reconciles (row : NormalizedRow) (found : Option Media) :
    (exportMediaId lib ctx row found).Respects (Reconciles lib ctx) := by
  cases found with
  | some m => exact .pure m.mediaId
  | none =>
    apply Tx.Respects.bind
    · exact .insertInto fun db t => .projection db t _ _
    · exact fun _ => .pure _

theorem insertEvidence_reconciles (row : NormalizedRow) (mediaId : Uuid) :
    (insertEvidence lib ctx row mediaId).Respects (Reconciles lib ctx) := by
  apply Tx.Respects.bind
  · exact .insertUnless fun db t => .projection db _ t _
  intro _
  apply Tx.Respects.bind
  · exact .insertUnless fun db t => .projection db _ _ t
  · exact fun _ => .pure _

theorem appendDataExportFact_reconciles (mediaId : Uuid) (row : NormalizedRow) :
    (appendDataExportFact lib mediaId ctx.owner row ctx.archive ctx.observedAt).Respects
      (Reconciles lib ctx) := by
  refine Tx.Respects.bind (.query _) fun prior => ?_
  split
  · exact .pure false
  · refine Tx.Respects.bind (.ofExcept _) fun _ => Tx.Respects.bind .nowV7 fun eventId => ?_
    intro env db b db' h
    rcases h.insertUnless with ⟨-, -, rfl⟩ | ⟨-, -, -, t, ht, rfl⟩
    · exact .refl db
    · refine ⟨⟨_, _, _, _, _, rfl⟩, ⟨[], by simp⟩, ⟨[_], (Table.insert?_eq_some ht).1, ?_⟩⟩
      simp only [List.mem_singleton, forall_eq]
      exact ⟨_, exportSnapshot lib ctx.owner row ctx.archive ctx.observedAt, rfl, rfl, rfl, rfl⟩

theorem reconcileRecord_reconciles (row : NormalizedRow) :
    (reconcileRecord lib ctx row).Respects (Reconciles lib ctx) := by
  refine Tx.Respects.bind (.query _) fun found => ?_
  split
  · exact persistConflict_reconciles row
  · apply Tx.Respects.bind (exportMediaId_reconciles row _)
    intro mediaId
    apply Tx.Respects.bind (insertEvidence_reconciles row mediaId)
    intro _
    have hrest : (do
        let _ ← mapError .publish
          (appendDataExportFact lib mediaId ctx.owner row ctx.archive ctx.observedAt)
        : ImportTx Unit).Respects (Reconciles lib ctx) :=
      Tx.Respects.bind (appendDataExportFact_reconciles mediaId row).mapError fun _ => .pure _
    dsimp only
    split
    · exact Tx.Respects.bind (.executeChecked fun db => .projection db _ _ _) fun _ => hrest
    · exact hrest

theorem reconcileRecords_reconciles (rows : List NormalizedRow) :
    (reconcileRecords lib ctx rows).Respects (Reconciles lib ctx) := by
  induction rows with
  | nil => exact .pure ()
  | cons row rest ih => exact .bind (reconcileRecord_reconciles row) fun _ => ih

/-- A committed reconciliation finds its report, or moves its run and writes it. -/
theorem reconcile_yields {runId : Uuid} {report : CompletenessReport}
    (h : (reconcile lib runId).Yields env db report db') :
    (db' = db ∧ ∃ ctx, importContext runId db = some (.reconciled, ctx)) ∨
      ∃ ctx m, importContext runId db = some (.parsed, ctx) ∧
      Reconciles lib ctx db m ∧
      (∃ g, (∀ r, (g r).recordsProcessed = r.recordsProcessed) ∧
        StateMove runId 4 .parsed .reconciled g db db') ∧
      ∃ reports runs transitions row, m.exportReports.insert? row = some reports ∧
        row.runId = runId ∧ db' = { m with
          exportReports := reports
          importRuns := runs
          importRunTransitions := transitions } := by
  obtain ⟨⟨state, ctx⟩, _, h1, h⟩ := Yields.bind h
  obtain ⟨hctx, rfl⟩ := h1.fetchOne
  have hrunId : ctx.runId = runId := by
    obtain ⟨r, -, hctx⟩ := Option.bind_eq_some_iff.mp hctx
    obtain ⟨s, -, hctx⟩ := Option.bind_eq_some_iff.mp hctx
    cases hctx
    rfl
  cases state with
  | received | inspected | failed => exact h.throw.elim
  | reconciled =>
    left
    obtain ⟨-, rfl⟩ := h.fetchOne
    exact ⟨rfl, ctx, hctx⟩
  | parsed =>
    right
    obtain ⟨stored, _, h2, h⟩ := Yields.bind h
    obtain ⟨-, rfl⟩ := h2.query
    obtain ⟨records, _, h3, h⟩ := h.bind
    obtain ⟨-, rfl⟩ := h3.ofExcept
    obtain ⟨_, m, h4, h⟩ := h.bind
    have hrecords := reconcileRecords_reconciles records env db _ m h4
    obtain ⟨_, _, h5, h⟩ := h.bind
    obtain ⟨rfl, rfl⟩ := h5.query
    obtain ⟨_, _, h6, h⟩ := h.bind
    obtain ⟨-, reports, hreports, rfl⟩ := Yields.insertInto h6
    obtain ⟨advanced, _, h7, h⟩ := h.bind
    obtain ⟨hrun, rfl⟩ := advanceRun_yields h7
    split at h
    · exact h.throw.elim
    rename_i hadvanced
    obtain ⟨transitionId, _, h8, h⟩ := h.bind
    obtain rfl := h8.nowV7
    obtain ⟨_, _, h9, h⟩ := h.bind
    obtain ⟨t, ht, rfl⟩ := insertTransition_yields h9
    obtain ⟨_, _, h10, h⟩ := h.bind
    obtain rfl := h10.commit
    obtain ⟨-, rfl⟩ := yields_pure.mp h
    have hmove := hrun (by simpa using hadvanced)
    obtain ⟨media, raws, revisions, outbox, exports, hsame⟩ := hrecords.same
    subst hsame hrunId
    refine ⟨ctx, _, hctx, hrecords, ⟨_, ?_, hmove, ?_, rfl, _, ht, rfl, rfl, rfl, rfl⟩, reports, _,
      t, _, hreports, rfl, rfl⟩
    · exact fun _ => rfl
    · exact fun r => ⟨rfl, rfl, rfl⟩

end Reconciliation

/-! ## The import lane -/

/-- A transaction of the import lane that committed, or nothing. -/
inductive ImportWrite (lib : Externals) (env : Env) (db : Db) : Db → Prop
  | idle : ImportWrite lib env db db
  | received {owner : Uuid} {digest : List UInt8} {byteSize : Nat} {outcome : ReceiptOutcome}
      {db' : Db}
      (h : (persistReceipt owner (storedArchive digest byteSize)).Yields env db outcome db') :
      ImportWrite lib env db db'
  | inspected {runId : Uuid} {failure : Option ArchiveFailureClass} {u : Unit} {db' : Db}
      (h : (finishInspection runId failure).Yields env db u db') : ImportWrite lib env db db'
  | parsed {runId : Uuid} {file : Except ArchiveFailureClass ArchiveFile} {parsed : ParsedExport}
      {u : Unit} {db' : Db} (hparse : parseFile lib file = .ok parsed)
      (h : (persistParsed lib runId parsed).Yields env db u db') : ImportWrite lib env db db'
  | refused {runId : Uuid} {failureClass : String} {u : Unit} {db' : Db}
      (h : (failParse runId failureClass).Yields env db u db') : ImportWrite lib env db db'
  | reconciled {runId : Uuid} {report : CompletenessReport} {db' : Db}
      (h : (reconcile lib runId).Yields env db report db') : ImportWrite lib env db db'

section Lane

variable {lib : Externals}

/-- Every transaction of the script is one of the import lane. -/
abbrev Imports {α : Type} (lib : Externals) (script : ImportScript α) : Prop :=
  script.Tracks (fun (_ : Unit) _ => True) (fun _ env db _ _ db' => ImportWrite lib env db db')
    (fun _ _ => True) ()

theorem imports_tx {α : Type} {x : ImportTx α}
    (h : ∀ env db a db', x.Yields env db a db' → ImportWrite lib env db db') :
    Imports lib (tx x) :=
  .tx fun env db a db' _ hy => ⟨(), h env db a db' hy, trivial, trivial⟩

theorem imports_read {α : Type} {e : ImportError} {f : Db → Option α} :
    Imports lib (tx (fetchOne e f)) := by
  refine imports_tx fun env db a db' hy => ?_
  obtain ⟨-, rfl⟩ := hy.fetchOne
  exact .idle

theorem Imports.then {α β : Type} {x : ImportScript α} {f : α → ImportScript β}
    (hx : Imports lib x) (hf : ∀ a, Imports lib (f a)) : Imports lib (x >>= f) :=
  hx.bind fun a _ _ => hf a

theorem Imports.attempt {α : Type} {x : ImportScript α} (h : Imports lib x) :
    Imports lib (x.attempt : ImportScript (Except ImportError α)) := by
  have htracks : (x.attempt : ImportScript (Except ImportError α)).Tracks _ _ _ () :=
    Tracks.attempt (fun _ _ _ => ImportWrite.idle) h
  exact htracks.mono fun _ _ _ => trivial

theorem openArchive_imports (archive : BlobRef) (file : FileRequest) :
    Imports lib (openArchive archive file) := by
  unfold openArchive
  split
  · exact .fail _
  · intro answer
    cases answer with
    | error e => exact .fail _
    | ok found => exact .pure trivial

theorem inspect_imports (runId : Uuid) : Imports lib (inspect runId) := by
  refine imports_read.then ?_
  rintro ⟨state, archive, file⟩
  dsimp only
  split
  · exact .fail _
  · refine (openArchive_imports archive file).then fun found => ?_
    cases found with
    | ok _ => exact imports_tx fun _ _ _ _ hy => .inspected hy
    | error failure =>
      exact (imports_tx fun _ _ _ _ hy => .inspected hy).then fun _ => .fail _

theorem parse_imports (runId : Uuid) : Imports lib (parse lib runId) := by
  refine imports_read.then ?_
  rintro ⟨state, archive, file⟩
  dsimp only
  split
  · exact .fail _
  · refine (openArchive_imports archive file).then fun found => ?_
    cases hparse : parseFile lib found with
    | ok parsed => exact imports_tx fun _ _ _ _ hy => .parsed hparse hy
    | error error => exact (imports_tx fun _ _ _ _ hy => .refused hy).then fun _ => .fail _

theorem handledInputFailure_imports (e : ImportError) : Imports lib (handledInputFailure e) := by
  cases e <;> first | exact .pure trivial | exact .fail _

theorem advanceParsed_imports (runId : Uuid) : Imports lib (advanceParsed lib runId) :=
  (imports_tx fun _ _ _ _ hy => .reconciled hy).then fun _ => .pure trivial

theorem advanceInspected_imports (runId : Uuid) : Imports lib (advanceInspected lib runId) := by
  refine (parse_imports runId).attempt.then fun r => ?_
  cases r with
  | error e => exact handledInputFailure_imports e
  | ok _ => exact advanceParsed_imports runId

theorem advance_imports (runId : Uuid) (state : ImportState) :
    Imports lib (advance lib runId state) := by
  cases state with
  | received =>
    refine (inspect_imports runId).attempt.then fun r => ?_
    cases r with
    | error e => exact handledInputFailure_imports e
    | ok _ => exact advanceInspected_imports runId
  | inspected => exact advanceInspected_imports runId
  | parsed => exact advanceParsed_imports runId
  | reconciled | failed => exact .pure trivial

theorem advanceEach_imports (rows : List (Uuid × ImportState)) (pass : WorkerPass) :
    Imports lib (advanceEach lib rows pass) := by
  induction rows generalizing pass with
  | nil => exact .pure trivial
  | cons row rest ih =>
    obtain ⟨runId, state⟩ := row
    refine (advance_imports runId state).attempt.then fun r => ?_
    cases r with
    | ok advanced => cases advanced <;> exact ih _
    | error e => cases e <;> first | exact ih _ | exact .fail _

/-- **A job commits nothing but transactions of the import lane.** -/
theorem ImportJob.imports (job : ImportJob) : Imports lib (job.script lib) := by
  cases job with
  | inspect runId => exact inspect_imports runId
  | parse runId => exact parse_imports runId
  | reconcile runId =>
    exact (imports_tx fun _ _ _ _ hy => .reconciled hy).then fun _ => .pure trivial
  | pass batchSize =>
    refine Imports.then ?_ fun _ => .pure trivial
    refine Imports.then ?_ fun rows => advanceEach_imports _ _
    refine imports_tx fun env db a db' hy => ?_
    obtain ⟨-, rfl⟩ := hy.query
    exact .idle

end Lane

end InstagramArchive.DataExport

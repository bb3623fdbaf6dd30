import InstagramArchive.ImportFrames

/-!
# Passes of a worker that is alone

Nobody moves a run under a worker that is alone, so whatever it advances ends, or is the end of
the pass: the only errors a pass goes on after are refused archives, whose runs failed, and lost
swaps, which do not happen.
-/

namespace InstagramArchive.DataExport

open Relational Relational.Tx Relational.Script

/-! ## What advancing a run brings about -/

/-- The run with its archive, in the state. -/
def HasRun (runId : Uuid) (state : ImportState) (db : Db) : Prop :=
  ∃ r ∈ db.importRuns, r.runId = runId ∧ r.state = state ∧
    ∃ s ∈ db.exportSnapshots, s.snapshotId = r.snapshotId

/-- The run is in a terminal state. -/
def Ended (runId : Uuid) (db : Db) : Prop :=
  ∃ state, HasRun runId state db ∧ ImportState.pending state = false

/-- The errors that do not end a pass: a refused archive, and a run that someone else moved. -/
def PassedOver : ImportError → Prop
  | .archive _ | .parser _ | .stateConflict => True
  | _ => False

/-- The run was moved by someone else. -/
def Outrun : ImportError → Prop
  | .stateConflict => True
  | _ => False

section Advance

variable {lib : Externals} {env : Env} {db db' : Db} {runId : Uuid} {u : Unit}

theorem ofSql_not_passedOver (q : SqlError) : ¬ PassedOver (OfSql.ofSql q) := id

theorem HasRun.moved {n : Nat} {source target : ImportState} {g : ImportRun → ImportRun}
    (h : HasRun runId source db) (hmove : StateMove runId n source target g db db')
    (hsnapshots : db'.exportSnapshots = db.exportSnapshots) : HasRun runId target db' := by
  obtain ⟨r, hr, hid, hstate, s, hs, hsid⟩ := h
  obtain ⟨hreceipt, -, htarget⟩ := hmove.rewrite r
  simp only [runReceipt, Prod.mk.injEq] at hreceipt
  refine ⟨g r, ?_, hreceipt.1.trans hid, htarget, s, ?_, hsid.trans hreceipt.2.1.symm⟩
  · rw [Table.mem_rows, hmove.runs]
    exact List.mem_map.mpr ⟨r, hr, if_pos (inState_iff.mpr ⟨hid, hstate⟩)⟩
  · rwa [hsnapshots]

theorem HasRun.one {state : ImportState} (h : HasRun runId state db) :
    (db.importRuns.rows.filter (ImportRun.inState runId state)).length = 1 := by
  obtain ⟨r, hr, hid, hstate, -⟩ := h
  rw [Table.filter_eq_singleton hr (inState_iff.mpr ⟨hid, hstate⟩)
    fun x hx => (inState_iff.mp hx).1.trans hid.symm, List.length_singleton]

/-- The swap of a run in the state it is compared with is answered with success. -/
theorem HasRun.advances {state : ImportState} (h : HasRun runId state db)
    {g : ImportRun → ImportRun} {hg : ∀ r, (g r).runId = r.runId} {advanced : Bool}
    (hy : (advanceRun runId state g hg).Yields env db advanced db') : advanced = true := by
  have hy := hy.statement
  simp only [Except.ok.injEq, Prod.mk.injEq, h.one] at hy
  exact hy.1.symm

theorem HasRun.archive {state : ImportState} (h : HasRun runId state db) :
    ∃ archive file, runArchive runId db = some (state, archive, file) := by
  obtain ⟨r, hr, rfl, rfl, s, hs, hsid⟩ := h
  refine ⟨s.archive, ⟨s.archiveHash, s.archiveByteSize⟩, ?_⟩
  unfold runArchive
  rw [Table.lookup_mem hr]
  change (db.exportSnapshots.lookup r.snapshotId).bind _ = _
  rw [← hsid, Table.lookup_mem hs]
  rfl

theorem HasRun.context {state : ImportState} (h : HasRun runId state db) :
    ∃ ctx, importContext runId db = some (state, ctx) ∧ ctx.runId = runId := by
  obtain ⟨r, hr, rfl, rfl, s, hs, hsid⟩ := h
  refine ⟨⟨r.runId, r.userRef, r.receivedAt, s.archive⟩, ?_, rfl⟩
  unfold importContext
  rw [Table.lookup_mem hr]
  change (db.exportSnapshots.lookup r.snapshotId).bind _ = _
  rw [← hsid, Table.lookup_mem hs]
  rfl

theorem endOfStage_avoids {transition : Uuid → ImportRunTransition} :
    (do
      let transitionId ← nowV7
      insertTransition (transition transitionId)
      commit : ImportTx Unit).Avoids PassedOver := by
  refine .bind .nowV7 fun transitionId => ?_
  exact .bind (Avoids.insertInto ofSql_not_passedOver) fun _ => .commit ofSql_not_passedOver

/-- A stage whose swap succeeds fails with a statement or not at all. -/
theorem HasRun.stage_fails {α : Type} {state : ImportState} (h : HasRun runId state db)
    {bad : ImportError → Prop} (hsql : ∀ q, ¬ bad (OfSql.ofSql q)) {g : ImportRun → ImportRun}
    {hg : ∀ r, (g r).runId = r.runId} {rest : ImportTx α} (hrest : rest.Avoids bad)
    {e : ImportError} (hf : (do
      let advanced ← advanceRun runId state g hg
      if !advanced then throw .stateConflict
      else rest : ImportTx α).Fails env db e) : ¬ bad e := by
  rcases hf.bind with hf | ⟨advanced, m, hy, hf⟩
  · obtain ⟨q, rfl⟩ := hf.statement
    exact hsql q
  · obtain rfl := h.advances hy
    exact hrest env m e hf

theorem finishInspection_fails (h : HasRun runId .received db)
    {failure : Option ArchiveFailureClass} {e : ImportError}
    (hf : (finishInspection runId failure).Fails env db e) : ¬ PassedOver e := by
  rcases hf.bind with hf | ⟨occurredAt, _, h1, hf⟩
  · exact Avoids.nowUtc env db e hf
  · obtain rfl := h1.nowUtc
    exact h.stage_fails ofSql_not_passedOver endOfStage_avoids hf

theorem failParse_fails (h : HasRun runId .inspected db) {failureClass : String} {e : ImportError}
    (hf : (failParse runId failureClass).Fails env db e) : ¬ PassedOver e := by
  rcases hf.bind with hf | ⟨occurredAt, _, h1, hf⟩
  · exact Avoids.nowUtc env db e hf
  · obtain rfl := h1.nowUtc
    exact h.stage_fails ofSql_not_passedOver endOfStage_avoids hf

/-! ### Staging -/

theorem insertStagedRecord_avoids (row : ExportRecord) :
    (insertStagedRecord row).Avoids PassedOver := Avoids.insertInto ofSql_not_passedOver

theorem decodeSha256_avoids {text : String} (h : ∃ digest, decodeSha256 text = .ok digest) :
    (mapError .parser (ofExcept (decodeSha256 text)) : ImportTx (List UInt8)).Avoids PassedOver := by
  obtain ⟨digest, hdigest⟩ := h
  rw [hdigest]
  exact .mapError (.pure digest)

theorem stageRecords_avoids (processedAt : Instant) {records : List ParsedExportRecord}
    (h : ∀ r ∈ records, ∃ digest, decodeSha256 r.semanticDigest = .ok digest) :
    (stageRecords lib runId processedAt records).Avoids PassedOver := by
  induction records with
  | nil => exact .pure ()
  | cons r rest ih =>
    refine .bind (decodeSha256_avoids (h r List.mem_cons_self)) fun digest => ?_
    exact .bind (insertStagedRecord_avoids _) fun _ => ih fun x hx => h x (List.mem_cons_of_mem _ hx)

theorem stageUnknownEntries_avoids (processedAt : Instant) {entries : List UnknownExportEntry}
    (h : ∀ e ∈ entries, e.decompressedSize ≤ i64Max) :
    (stageUnknownEntries lib runId processedAt entries).Avoids PassedOver := by
  induction entries with
  | nil => exact .pure ()
  | cons e rest ih =>
    unfold stageUnknownEntries
    rw [if_neg (Nat.not_lt.mpr (h e List.mem_cons_self))]
    exact .bind (insertStagedRecord_avoids _) fun _ => ih fun x hx => h x (List.mem_cons_of_mem _ hx)

theorem stageUnknownRecords_avoids (processedAt : Instant) {records : List UnknownExportRecord}
    (h : ∀ r ∈ records, ∃ digest, decodeSha256 r.semanticDigest = .ok digest) :
    (stageUnknownRecords lib runId processedAt records).Avoids PassedOver := by
  induction records with
  | nil => exact .pure ()
  | cons r rest ih =>
    refine .bind (decodeSha256_avoids (h r List.mem_cons_self)) fun digest => ?_
    split
    · exact .throw (ofSql_not_passedOver _)
    · exact .bind (insertStagedRecord_avoids _) fun _ =>
        ih fun x hx => h x (List.mem_cons_of_mem _ hx)

theorem stageWarnings_avoids (processedAt : Instant) (warnings : List ParserWarning) :
    (stageWarnings lib runId processedAt warnings).Avoids PassedOver := by
  induction warnings with
  | nil => exact .pure ()
  | cons w rest ih => exact .bind (insertStagedRecord_avoids _) fun _ => ih

theorem Stages.hasRun {processedAt : Instant} {parsed : ParsedExport} {keys : List String}
    {state : ImportState} (hs : Stages lib runId processedAt parsed keys db db')
    (h : HasRun runId state db) : HasRun runId state db' := by
  obtain ⟨t, rows, rfl, -⟩ := hs
  exact h

theorem persistParsed_fails (h : HasRun runId .inspected db) {parsed : ParsedExport}
    (hparsed : WellParsed parsed) {e : ImportError}
    (hf : (persistParsed lib runId parsed).Fails env db e) : ¬ PassedOver e := by
  rcases hf.bind with hf | ⟨processedAt, _, h1, hf⟩
  · exact Avoids.nowUtc env db e hf
  obtain rfl := h1.nowUtc
  rcases hf.bind with hf | ⟨state, _, h2, hf⟩
  · exact Avoids.query ofSql_not_passedOver env db e hf
  obtain ⟨rfl, rfl⟩ := h2.query
  have hstate : (db.importRuns.lookup runId).map ImportRun.state = some .inspected := by
    obtain ⟨r, hr, hid, hstate, -⟩ := h
    rw [← hid, Table.lookup_mem hr, Option.map_some, hstate]
  rw [hstate, if_neg (by simp)] at hf
  rcases hf.bind with hf | ⟨_, m1, h3, hf⟩
  · exact stageRecords_avoids _ hparsed.records env _ e hf
  rcases hf.bind with hf | ⟨_, m2, h4, hf⟩
  · exact stageUnknownEntries_avoids _ hparsed.entries env _ e hf
  rcases hf.bind with hf | ⟨_, m3, h5, hf⟩
  · exact stageUnknownRecords_avoids _ hparsed.unknown env _ e hf
  rcases hf.bind with hf | ⟨_, m4, h6, hf⟩
  · exact stageWarnings_avoids _ _ env _ e hf
  have hstages := ((stageRecords_stages h3).append (stageUnknownEntries_stages h4)).append
    ((stageUnknownRecords_stages h5).append (stageWarnings_stages h6))
  exact (hstages.hasRun h).stage_fails ofSql_not_passedOver endOfStage_avoids hf

/-! ### Reconciliation -/

theorem ofSql_not_outrun (q : SqlError) : ¬ Outrun (OfSql.ofSql q) := id

variable {ctx : RunContext}

theorem persistConflict_avoids (row : NormalizedRow) :
    (persistConflict lib ctx row).Avoids Outrun :=
  .bind (.insertUnless ofSql_not_outrun) fun _ => .pure ()

theorem exportMediaId_avoids (row : NormalizedRow) (found : Option Media) :
    (exportMediaId lib ctx row found).Avoids Outrun := by
  cases found with
  | some m => exact .pure _
  | none => exact .bind (.insertInto ofSql_not_outrun) fun _ => .pure _

theorem insertEvidence_avoids (row : NormalizedRow) (mediaId : Uuid) :
    (insertEvidence lib ctx row mediaId).Avoids Outrun :=
  .bind (.insertUnless ofSql_not_outrun) fun _ => .bind (.insertUnless ofSql_not_outrun) fun _ => .pure ()

theorem reconcileRecord_avoids (row : NormalizedRow) :
    (reconcileRecord lib ctx row).Avoids Outrun := by
  refine .bind (.query ofSql_not_outrun) fun found => ?_
  split
  · exact persistConflict_avoids row
  refine .bind (exportMediaId_avoids row _) fun mediaId => ?_
  refine .bind (insertEvidence_avoids row mediaId) fun _ => ?_
  have hrest : (do
      let _ ← mapError .publish
        (appendDataExportFact lib mediaId ctx.owner row ctx.archive ctx.observedAt)
      : ImportTx Unit).Avoids Outrun :=
    .bind (.mapError (.anything fun _ => id)) fun _ => .pure ()
  dsimp only
  split
  · exact .bind (Avoids.executeChecked ofSql_not_outrun) fun _ => hrest
  · exact hrest

theorem reconcileRecords_avoids (rows : List NormalizedRow) :
    (reconcileRecords lib ctx rows).Avoids Outrun := by
  induction rows with
  | nil => exact .pure ()
  | cons row rest ih => exact .bind (reconcileRecord_avoids row) fun _ => ih

theorem Reconciles.hasRun (hr : Reconciles lib ctx db db') {state : ImportState}
    (h : HasRun runId state db) : HasRun runId state db' := by
  obtain ⟨media, raws, revisions, outbox, records, rfl⟩ := hr.same
  exact h

theorem reconcileParsed_fails (h : HasRun ctx.runId .parsed db) {e : ImportError}
    (hf : (reconcileParsed lib ctx).Fails env db e) : ¬ Outrun e := by
  rcases hf.bind with hf | ⟨stored, _, h1, hf⟩
  · exact Avoids.query ofSql_not_outrun env db e hf
  obtain ⟨-, rfl⟩ := h1.query
  rcases hf.bind with hf | ⟨records, _, h2, hf⟩
  · have he := hf.ofExcept
    cases hread : readRecords stored with
    | ok rows => rw [hread] at he; cases he
    | error q =>
      rw [hread] at he
      cases he
      exact ofSql_not_outrun q
  obtain ⟨-, rfl⟩ := h2.ofExcept
  rcases hf.bind with hf | ⟨_, m, h3, hf⟩
  · exact reconcileRecords_avoids records env _ e hf
  have hm := (reconcileRecords_reconciles records env _ _ m h3).hasRun h
  rcases hf.bind with hf | ⟨report, _, h4, hf⟩
  · exact Avoids.query ofSql_not_outrun env m e hf
  obtain ⟨-, rfl⟩ := h4.query
  rcases hf.bind with hf | ⟨_, m', h5, hf⟩
  · exact Avoids.insertInto ofSql_not_outrun env _ e hf
  obtain ⟨-, reports, -, rfl⟩ := Yields.insertInto h5
  have hm' : HasRun ctx.runId .parsed { m with exportReports := reports } := hm
  refine hm'.stage_fails ofSql_not_outrun ?_ hf
  refine .bind .nowV7 fun transitionId => .bind (Avoids.insertInto ofSql_not_outrun) fun _ => ?_
  exact .bind (.commit ofSql_not_outrun) fun _ => .pure report

theorem reconcile_fails (h : HasRun runId .parsed db) {e : ImportError}
    (hf : (reconcile lib runId).Fails env db e) : ¬ Outrun e := by
  obtain ⟨ctx, hctx, hid⟩ := h.context
  rcases hf.bind with hf | ⟨⟨state, found⟩, _, h1, hf⟩
  · rcases hf.bind with hf | ⟨row, m, hq, hf⟩
    · exact Avoids.query ofSql_not_outrun env db e hf
    · obtain ⟨rfl, rfl⟩ := hq.query
      rw [hctx] at hf
      exact (Fails.pure hf).elim
  · obtain ⟨hfound, rfl⟩ := h1.fetchOne
    rw [hctx] at hfound
    cases hfound
    subst hid
    exact reconcileParsed_fails h hf

/-! ### The scripts -/

/-- A stage ends with its run in the target state. Where the archive is refused it ends with the
run failed, and nothing else passes it over. -/
def StageEnd (runId : Uuid) (target : ImportState) : Except ImportError Unit → Db → Prop
  | .ok _, db => HasRun runId target db
  | .error e, db => PassedOver e → HasRun runId .failed db ∧ ¬ Outrun e

theorem openArchive_ensures (archive : BlobRef) (file : FileRequest) :
    (openArchive archive file).Ensures (fun r s => s = db ∧ ∀ e, r = .error e → ¬ PassedOver e)
      db := by
  unfold openArchive
  split
  · refine .fail ⟨rfl, fun e he => ?_⟩
    cases he
    exact id
  · refine Ensures.bind (Q := fun r s => s = db ∧ ∃ answer, r = .ok answer)
      (.request fun answer => ⟨rfl, answer, rfl⟩) ?_ ?_
    · rintro answer _ ⟨rfl, -⟩
      cases answer with
      | error e =>
        refine .fail ⟨rfl, fun x hx => ?_⟩
        cases hx
        exact id
      | ok found => exact .pure ⟨rfl, fun e he => by cases he⟩
    · rintro e s ⟨-, answer, h⟩
      cases h

/-- The first transaction of a stage finds the run in the state it is in. -/
theorem HasRun.reads {state : ImportState} (h : HasRun runId state db) :
    (tx (fetchOne .stateConflict (runArchive runId)) :
      ImportScript (ImportState × BlobRef × FileRequest)).Ensures
        (fun r s => s = db ∧ (∀ found, r = .ok found → found.1 = state) ∧
          ∀ e, r = .error e → ¬ PassedOver e) db := by
  obtain ⟨archive, file, hfound⟩ := h.archive
  refine .tx (fun env found s' hy => ?_) (fun env e hf => ⟨rfl, by simp, fun x hx => ?_⟩)
  · obtain ⟨hrow, rfl⟩ := hy.fetchOne
    rw [hfound] at hrow
    cases hrow
    refine ⟨rfl, fun x hx => ?_, by simp⟩
    cases hx
    rfl
  · cases hx
    rcases hf.bind with hf | ⟨row, m, hq, hf⟩
    · exact Avoids.query ofSql_not_passedOver env db e hf
    · obtain ⟨rfl, rfl⟩ := hq.query
      rw [hfound] at hf
      exact (Fails.pure hf).elim

theorem inspect_ensures (h : HasRun runId .received db) :
    (inspect runId).Ensures (StageEnd runId .inspected) db := by
  refine h.reads.bind ?_ fun e s hs he => absurd he (hs.2.2 e rfl)
  rintro ⟨state, archive, file⟩ _ ⟨rfl, hstate, -⟩
  obtain rfl := hstate _ rfl
  dsimp only
  rw [if_neg (by simp)]
  refine (openArchive_ensures archive file).bind ?_ fun e s hs he => absurd he (hs.2 e rfl)
  rintro found _ ⟨rfl, -⟩
  cases found with
  | ok _ =>
    refine .tx (fun env u s' hy => ?_) fun env e hf he => absurd he (finishInspection_fails h hf)
    obtain ⟨⟨g, -, hmove⟩, honly⟩ := finishInspection_yields hy
    exact h.moved hmove honly.snapshots
  | error failure =>
    refine Ensures.bind (Q := StageEnd runId .failed) (.tx (fun env u s' hy => ?_)
      fun env e hf he => absurd he (finishInspection_fails h hf)) ?_ fun e s hs he => hs he
    · obtain ⟨⟨g, -, hmove⟩, honly⟩ := finishInspection_yields hy
      exact h.moved hmove honly.snapshots
    · exact fun u s' hs => .fail fun _ => ⟨hs, id⟩

theorem parse_ensures (hlen : ∀ text, (lib.sha256 text).length = 32)
    (h : HasRun runId .inspected db) :
    (parse lib runId).Ensures (StageEnd runId .parsed) db := by
  refine h.reads.bind ?_ fun e s hs he => absurd he (hs.2.2 e rfl)
  rintro ⟨state, archive, file⟩ _ ⟨rfl, hstate, -⟩
  obtain rfl := hstate _ rfl
  dsimp only
  rw [if_neg (by simp)]
  refine (openArchive_ensures archive file).bind ?_ fun e s hs he => absurd he (hs.2 e rfl)
  rintro found _ ⟨rfl, -⟩
  cases hparse : parseFile lib found with
  | ok parsed =>
    obtain ⟨section?, inventory, hsection⟩ := parseFile_ok hparse
    have hparsed : WellParsed parsed := parseSavedPosts_wellParsed hlen hsection
    refine .tx (fun env u s' hy => ?_) fun env e hf he => absurd he (persistParsed_fails h hparsed hf)
    obtain ⟨_, hmove, _, _, _, _, rfl, -⟩ := persistParsed_yields hy
    exact h.moved hmove rfl
  | error error =>
    refine Ensures.bind (Q := StageEnd runId .failed) (.tx (fun env u s' hy => ?_)
      fun env e hf he => absurd he (failParse_fails h hf)) ?_ fun e s hs he => hs he
    · obtain ⟨⟨g, -, hmove⟩, honly⟩ := failParse_yields hy
      exact h.moved hmove honly.snapshots
    · exact fun u s' hs => .fail fun _ => ⟨hs, id⟩

/-- What a pass is told about a run: it ended, or what stops the pass. -/
def AdvanceEnd (runId : Uuid) : Except ImportError Advanced → Db → Prop
  | .ok _, db => Ended runId db
  | .error e, _ => ¬ Outrun e

theorem handledInputFailure_ensures {e : ImportError}
    (h : PassedOver e → HasRun runId .failed db ∧ ¬ Outrun e) :
    (handledInputFailure e).Ensures (AdvanceEnd runId) db := by
  cases e with
  | archive _ | parser _ => exact .pure ⟨.failed, (h trivial).1, rfl⟩
  | stateConflict => exact ((h trivial).2 trivial).elim
  | publish _ | reconciliation | receipt _ => exact .fail id

theorem advanceParsed_ensures (h : HasRun runId .parsed db) :
    (advanceParsed lib runId).Ensures (AdvanceEnd runId) db := by
  refine Ensures.bind (Q := fun r s => (∀ a, r = .ok a → HasRun runId .reconciled s) ∧
    ∀ e, r = .error e → ¬ Outrun e) (.tx (fun env report s' hy => ⟨fun _ _ => ?_, by simp⟩)
      fun env e hf => ⟨by simp, fun x hx => ?_⟩) ?_ fun e s hs => hs.2 e rfl
  · rcases reconcile_yields hy with ⟨-, ctx, hctx⟩ | ⟨ctx, m, -, hreconciles, ⟨g, -, hmove⟩,
      reports, runs, transitions, row, -, -, rfl⟩
    · obtain ⟨found, hfound, -⟩ := h.context
      rw [hctx] at hfound
      cases hfound
    · obtain ⟨media, raws, revisions, outbox, records, rfl⟩ := hreconciles.same
      exact h.moved hmove rfl
  · cases hx
    exact reconcile_fails h hf
  · exact fun report s' hs => .pure ⟨.reconciled, hs.1 report rfl, rfl⟩

theorem advanceInspected_ensures (hlen : ∀ text, (lib.sha256 text).length = 32)
    (h : HasRun runId .inspected db) :
    (advanceInspected lib runId).Ensures (AdvanceEnd runId) db := by
  refine (parse_ensures hlen h).attempt.bind ?_ fun e s ⟨r, hr, _⟩ => by cases hr
  rintro r s ⟨result, hr, hend⟩
  cases hr
  cases r with
  | error e => exact handledInputFailure_ensures hend
  | ok _ => exact advanceParsed_ensures hend

theorem advanceReceived_ensures (hlen : ∀ text, (lib.sha256 text).length = 32)
    (h : HasRun runId .received db) :
    (advanceReceived lib runId).Ensures (AdvanceEnd runId) db := by
  refine (inspect_ensures h).attempt.bind ?_ fun e s ⟨r, hr, _⟩ => by cases hr
  rintro r s ⟨result, hr, hend⟩
  cases hr
  cases r with
  | error e => exact handledInputFailure_ensures hend
  | ok _ => exact advanceInspected_ensures hlen hend

/-- **A run that is advanced alone ends, or stops the pass.** -/
theorem advance_ensures (hlen : ∀ text, (lib.sha256 text).length = 32) {state : ImportState}
    (h : HasRun runId state db) :
    (advance lib runId state).Ensures (AdvanceEnd runId) db := by
  cases state with
  | received => exact advanceReceived_ensures hlen h
  | inspected => exact advanceInspected_ensures hlen h
  | parsed => exact advanceParsed_ensures h
  | reconciled | failed => exact .pure ⟨_, h, rfl⟩

end Advance

/-! ## Passes of a worker alone -/

/-- What a pass takes from outside, indexed by its steps. -/
abbrev Turns := Nat → Env × (FileRequest → FileAnswer)

/-- The store after a pass. -/
def afterPass (lib : Externals) (batchSize : Nat) (turns : Turns) (db : Db) : Db :=
  ((runOnce lib batchSize).eval turns 0 db).2.2

/-- The store after the first `k` passes. -/
def afterPasses (lib : Externals) (batchSize : Nat) (turns : Nat → Turns) : Nat → Db → Db
  | 0, db => db
  | k + 1, db => afterPass lib batchSize (turns k) (afterPasses lib batchSize turns k db)

/-- What advancing the runs of a batch in order does to the store. -/
def sweep (lib : Externals) (turns : Turns) : List (Uuid × ImportState) → Nat → Db → Db
  | [], _, db => db
  | (runId, state) :: rest, n, db =>
    match (advance lib runId state).eval turns n db with
    | (.ok _, n', db') => sweep lib turns rest n' db'
    | (.error .stateConflict, n', db') => sweep lib turns rest n' db'
    | (.error _, _, db') => db'

section Pass

variable {lib : Externals} {turns : Turns} {batchSize : Nat} {db : Db}

theorem advanceEach_eval (rows : List (Uuid × ImportState)) (pass : WorkerPass) (n : Nat) (db : Db) :
    ((advanceEach lib rows pass).eval turns n db).2.2 = sweep lib turns rows n db := by
  induction rows generalizing pass n db with
  | nil => rfl
  | cons row rest ih =>
    obtain ⟨runId, state⟩ := row
    unfold advanceEach sweep
    rw [eval_bind, eval_attempt]
    cases (advance lib runId state).eval turns n db with
    | mk result after =>
      obtain ⟨n', db'⟩ := after
      cases result with
      | ok advanced => cases advanced <;> exact ih _ _ _
      | error e =>
        cases e with
        | stateConflict => exact ih _ _ _
        | archive _ | parser _ | publish _ | reconciliation | receipt _ => rfl

/-- The batch of a pass. -/
def batch (batchSize : Nat) (db : Db) : List (Uuid × ImportState) :=
  ((pendingRuns db).take batchSize).map fun r => (r.runId, r.state)

/-- A pass is a sweep over its batch, unless the selection fails. -/
theorem afterPass_eq (db : Db) :
    afterPass lib batchSize turns db =
      if (turns 0).1.fault 0 then db else sweep lib turns (batch batchSize db) 1 db := by
  have hquery : (tx (query (batch batchSize)) : ImportScript (List (Uuid × ImportState))).eval
      turns 0 db = if (turns 0).1.fault 0 then (.error (OfSql.ofSql .connection), 1, db)
        else (.ok (batch batchSize db), 1, db) := by
    rw [eval_tx]
    unfold Tx.exec Tx.query Tx.statement
    by_cases hfault : (turns 0).1.fault 0 = true
    · simp only [hfault, if_true]
    · simp only [hfault, Bool.false_eq_true, if_false]
  have hstep : afterPass lib batchSize turns db = (((tx (query (batch batchSize)) :
      ImportScript (List (Uuid × ImportState))) >>= fun rows =>
        advanceEach lib rows { selected := rows.length }).eval turns 0 db).2.2 := rfl
  rw [hstep, eval_bind, hquery]
  by_cases hfault : (turns 0).1.fault 0 = true
  · simp only [hfault, if_true]
  · simp only [hfault, Bool.false_eq_true, if_false]
    exact advanceEach_eval _ _ _ _

end Pass

end InstagramArchive.DataExport

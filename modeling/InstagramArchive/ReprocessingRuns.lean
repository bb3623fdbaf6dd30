import InstagramArchive.ExportStaging
import InstagramArchive.Relational.Commit
import InstagramArchive.ReprocessingPlan

/-!
# Chunks of one reprocessing operation

A committed call moves the operation on by at most its chunk, along the items of its plan in the
order of their keys. What is stored depends on how far it got and on nothing else, so the last of
many chunks leaves what one call would have left.
-/

namespace InstagramArchive.Reprocessing

open Relational Relational.Tx Json DataExport

/-! ## What a call does -/

section Calls

variable {env : Env} {s s' : Store} {owner importRunId operationId runId : Uuid}
  {report : ReprocessReport}

/-- **What opening finds or makes.** The stored run has the plan, the state and the import run of
the call, or the run is new. -/
theorem ensureReprocessingRun_yields {out : Uuid × ReprocessingState}
    (h : (ensureReprocessingRun owner importRunId operationId report).Yields env s out s') :
    (∃ run, findRun owner operationId s = some run ∧ run.importRunId = importRunId ∧
      run.planFingerprint = report.planFingerprint ∧
      run.stateFingerprint = report.stateFingerprint ∧
      out = (run.reprocessingRunId, run.state) ∧ s' = s) ∨
    findRun owner operationId s = none ∧ ∃ runId now t,
      s.runs.insert? (newRun runId owner importRunId operationId report now) = some t ∧
      out = (runId, .running) ∧ s' = { s with runs := t } := by
  obtain ⟨supported, m, h1, h⟩ := h.bind
  have hm : m = s := by
    have hread := h1.statement
    unfold supportedReceipt at hread
    split at hread
    · cases hread
      rfl
    · split at hread
      · cases hread
      · cases hread
      · cases hread
        rfl
  subst hm
  cases supported with
  | false => exact h.throw.elim
  | true =>
    obtain ⟨found, m, h2, h⟩ := Yields.bind h
    obtain ⟨rfl, rfl⟩ := h2.query
    cases hfound : findRun owner operationId m with
    | some run =>
      simp only [hfound] at h
      split at h
      · exact h.throw.elim
      · rename_i hsame
        simp only [not_or, not_not] at hsame
        obtain ⟨rfl, rfl⟩ := yields_pure.mp h
        exact Or.inl ⟨run, rfl, hsame.1, hsame.2.1, hsame.2.2, rfl, rfl⟩
    | none =>
      simp only [hfound] at h
      obtain ⟨runId, m', h3, h⟩ := Yields.bind h
      obtain rfl := h3.nowV7
      obtain ⟨now, m', h4, h⟩ := Yields.bind h
      obtain ⟨-, rfl⟩ := h4.now
      obtain ⟨_, m', h5, h⟩ := Yields.bind h
      obtain ⟨-, t, ht, rfl⟩ := h5.insertInto
      obtain ⟨rfl, rfl⟩ := yields_pure.mp h
      exact Or.inr ⟨rfl, runId, now, t, ht, rfl, rfl⟩

/-- **What inserting items does.** One row for each, in order. -/
theorem insertItems_yields {items : List ReprocessReportItem} {checkpoint last : Option String}
    (h : (insertItems runId items checkpoint).Yields env s last s') :
    s'.archive = s.archive ∧ s'.runs = s.runs ∧
      s'.items.rows = s.items.rows ++ items.map (ReprocessReportItem.row runId) ∧
      last = (items.getLast?.map ReprocessReportItem.itemKey).or checkpoint := by
  induction items generalizing s checkpoint with
  | nil =>
    obtain ⟨rfl, rfl⟩ := yields_pure.mp h
    exact ⟨rfl, rfl, by simp, rfl⟩
  | cons item rest ih =>
    obtain ⟨_, m, h1, h⟩ := h.bind
    obtain ⟨-, t, ht, rfl⟩ := h1.insertInto
    obtain ⟨harchive, hruns, hrows, hlast⟩ := ih h
    refine ⟨harchive, hruns, ?_, ?_⟩
    · rw [hrows, (Table.insert?_eq_some ht).1, List.append_assoc]
      rfl
    · rw [hlast]
      cases rest with
      | nil => rfl
      | cons next rest =>
        rw [List.getLast?_cons_cons, List.getLast?_eq_some_getLast (List.cons_ne_nil next rest)]
        rfl

theorem finishReprocessingRun_yields {checkpoint : Option String} {completed : Bool}
    (h : (finishReprocessingRun runId checkpoint report).Yields env s completed s') :
    completed = decide ((itemsOf runId s).length = report.items.length) ∧
      ∃ now, s' = finishRun runId checkpoint report completed now s := by
  obtain ⟨count, m, h1, h⟩ := h.bind
  obtain ⟨rfl, rfl⟩ := h1.query
  obtain ⟨now, m, h2, h⟩ := h.bind
  obtain ⟨-, rfl⟩ := h2.now
  obtain ⟨_, m', h3, h⟩ := h.bind
  obtain ⟨-, rfl⟩ := h3.executeChecked
  obtain ⟨rfl, rfl⟩ := yields_pure.mp h
  exact ⟨rfl, now, rfl⟩

end Calls

/-! ## How far an operation is -/

/-- One stable operation. -/
structure Operation where
  owner : Uuid
  importRunId : Uuid
  operationId : Uuid
  stateFingerprint : String

/-- What is stored of an item, whatever run it belongs to. -/
structure ItemOutcome where
  itemKey : String
  classification : ReprocessClassification
  state : ReprocessingItemState
  prospectiveDigest : Option String
  appliedDigest : Option String
  deriving DecidableEq, Repr

def ReprocessingItem.outcome (item : ReprocessingItem) : ItemOutcome :=
  ⟨item.itemKey, item.classification, item.state, item.prospectiveDigest, item.appliedDigest⟩

def ReprocessReportItem.outcome (item : ReprocessReportItem) : ItemOutcome :=
  ⟨item.itemKey, item.classification, itemState item.classification, item.digest, item.digest⟩

/-- What is stored of an operation, less the identity of its run and its times. -/
structure OperationContent where
  importRunId : Uuid
  detectedLayout : String
  parserId : String
  state : ReprocessingState
  planFingerprint : String
  stateFingerprint : String
  checkpointItemKey : Option String
  report : Option StoredReport
  finished : Bool
  items : List ItemOutcome
  deriving DecidableEq, Repr

def ReprocessingRun.content (run : ReprocessingRun) (s : Store) : OperationContent where
  importRunId := run.importRunId
  detectedLayout := run.detectedLayout
  parserId := run.parserId
  state := run.state
  planFingerprint := run.planFingerprint
  stateFingerprint := run.stateFingerprint
  checkpointItemKey := run.checkpointItemKey
  report := run.report
  finished := run.finishedAt.isSome
  items := (itemsOf run.reprocessingRunId s).map ReprocessingItem.outcome

def Operation.stored (op : Operation) (s : Store) : Option OperationContent :=
  (findRun op.owner op.operationId s).map fun run => run.content s

/-- The content that stands after the first `n` items of the plan. -/
def Operation.contentAt (lib : Externals) (op : Operation) (inputs : List ReprocessInput)
    (n : Nat) : OperationContent :=
  let report := renderReport lib inputs op.stateFingerprint
  { importRunId := op.importRunId
    detectedLayout := SUPPORTED_REPROCESSING_LAYOUT
    parserId := SUPPORTED_REPROCESSING_PARSER
    state := if report.items.length ≤ n then report.finalState else .running
    planFingerprint := report.planFingerprint
    stateFingerprint := op.stateFingerprint
    checkpointItemKey := (report.items.take n).getLast?.map ReprocessReportItem.itemKey
    report := some report.stored
    finished := decide (report.items.length ≤ n)
    items := (report.items.take n).map ReprocessReportItem.outcome }

/-- Every stored item belongs to a stored run. -/
def Store.Referential (s : Store) : Prop :=
  ∀ i ∈ s.items, ∃ r ∈ s.runs, r.reprocessingRunId = i.reprocessingRunId

/-- The run of the operation has the plan and its first `n` items. -/
structure Positioned (lib : Externals) (op : Operation) (inputs : List ReprocessInput) (n : Nat)
    (run : ReprocessingRun) (s : Store) : Prop where
  found : findRun op.owner op.operationId s = some run
  importRun : run.importRunId = op.importRunId
  layout : run.detectedLayout = SUPPORTED_REPROCESSING_LAYOUT
  parser : run.parserId = SUPPORTED_REPROCESSING_PARSER
  plan : run.planFingerprint = (renderReport lib inputs op.stateFingerprint).planFingerprint
  fingerprint : run.stateFingerprint = op.stateFingerprint
  checkpoint : run.checkpointItemKey =
    ((renderItems inputs).take n).getLast?.map ReprocessReportItem.itemKey
  items : (itemsOf run.reprocessingRunId s).map ReprocessingItem.outcome =
    ((renderItems inputs).take n).map ReprocessReportItem.outcome

section Positions

variable {lib : Externals} {op : Operation} {inputs : List ReprocessInput} {n max : Nat}
  {run : ReprocessingRun} {s s' : Store}

theorem itemsOf_insert {runId : Uuid} {items : List ReprocessReportItem}
    (h : s'.items.rows = s.items.rows ++ items.map (ReprocessReportItem.row runId)) :
    (itemsOf runId s').map ReprocessingItem.outcome =
      (itemsOf runId s).map ReprocessingItem.outcome ++ items.map ReprocessReportItem.outcome := by
  have hall : (items.map (ReprocessReportItem.row runId)).filter
      (fun i => i.reprocessingRunId = runId) = items.map (ReprocessReportItem.row runId) := by
    rw [List.filter_eq_self]
    intro row hrow
    obtain ⟨item, -, rfl⟩ := List.mem_map.mp hrow
    simp [ReprocessReportItem.row]
  unfold itemsOf
  rw [h, List.filter_append, hall, List.map_append, List.map_map]
  rfl

theorem findRun_congr {owner operationId : Uuid} (h : s'.runs = s.runs) :
    findRun owner operationId s' = findRun owner operationId s := by
  unfold findRun
  rw [h]

/-- What finishing makes of the run of an operation. -/
theorem findRun_finishRun {owner operationId runId : Uuid} {checkpoint : Option String}
    {report : ReprocessReport} {completed : Bool} {now : Instant}
    (hfound : findRun owner operationId s = some run) (hrun : run.reprocessingRunId = runId) :
    findRun owner operationId (finishRun runId checkpoint report completed now s) =
      some (run.advanced checkpoint report completed now) := by
  unfold findRun at hfound
  unfold findRun finishRun
  refine (Table.find?_update s.runs.rows _ _
    (ReprocessingRun.advanced checkpoint report completed now) fun _ => rfl).trans ?_
  rw [hfound, Option.map_some]
  simp [hrun]

/-- The remaining items of the plan are those after the first `n`. -/
theorem remaining_items (hplan : PlanInputs inputs) (h : Positioned lib op inputs n run s) :
    ((renderItems inputs).filter fun item =>
      !(existingKeys run.reprocessingRunId s).contains item.itemKey) =
        (renderItems inputs).drop n := by
  have hkeys : existingKeys run.reprocessingRunId s =
      ((renderItems inputs).take n).map ReprocessReportItem.itemKey := by
    have houtcomes := congrArg (List.map ItemOutcome.itemKey) h.items
    rw [List.map_map, List.map_map] at houtcomes
    exact houtcomes
  have hnodup := hplan.keys_nodup
  have hsplit := List.take_append_drop n (renderItems inputs)
  rw [hkeys]
  generalize (renderItems inputs).take n = front at hsplit
  generalize (renderItems inputs).drop n = back at hsplit
  rw [← hsplit] at hnodup ⊢
  rw [List.map_append] at hnodup
  have hdisjoint := (List.nodup_append.mp hnodup).2.2
  have hfirst : front.filter (fun item =>
      !(front.map ReprocessReportItem.itemKey).contains item.itemKey) = [] := by
    rw [List.filter_eq_nil_iff]
    intro item hitem
    have hmem := List.mem_map_of_mem (f := ReprocessReportItem.itemKey) hitem
    simpa using hmem
  have hrest : back.filter (fun item =>
      !(front.map ReprocessReportItem.itemKey).contains item.itemKey) = back := by
    rw [List.filter_eq_self]
    intro item hitem
    have hnew : item.itemKey ∉ front.map ReprocessReportItem.itemKey := fun hmem =>
      hdisjoint _ hmem _ (List.mem_map_of_mem hitem) rfl
    simpa using hnew
  rw [List.filter_append, hfirst, hrest, List.nil_append]

@[simp] theorem renderReport_items {stateFingerprint : String} :
    (renderReport lib inputs stateFingerprint).items = renderItems inputs := rfl

@[simp] theorem contentAt_state : (op.contentAt lib inputs n).state =
    if (renderItems inputs).length ≤ n then (renderReport lib inputs op.stateFingerprint).finalState
    else .running := rfl

theorem positioned_of_stored (h : op.stored s = some (op.contentAt lib inputs n)) :
    ∃ run, Positioned lib op inputs n run s ∧
      run.state = (op.contentAt lib inputs n).state := by
  obtain ⟨run, hfound, hcontent⟩ := Option.map_eq_some_iff.mp h
  refine ⟨run, ⟨hfound, ?_, ?_, ?_, ?_, ?_, ?_, ?_⟩, congrArg OperationContent.state hcontent⟩
  · exact congrArg OperationContent.importRunId hcontent
  · exact congrArg OperationContent.detectedLayout hcontent
  · exact congrArg OperationContent.parserId hcontent
  · exact congrArg OperationContent.planFingerprint hcontent
  · exact congrArg OperationContent.stateFingerprint hcontent
  · exact congrArg OperationContent.checkpointItemKey hcontent
  · exact congrArg OperationContent.items hcontent

/-- A run that was opened a moment ago stands before the first item. -/
theorem positioned_newRun {runId : Uuid} {now : Instant}
    {t : Table ReprocessingRun fun r => r.reprocessingRunId} (href : s.Referential)
    (hnone : findRun op.owner op.operationId s = none)
    (ht : s.runs.insert? (newRun runId op.owner op.importRunId op.operationId
      (renderReport lib inputs op.stateFingerprint) now) = some t) :
    Positioned lib op inputs 0 (newRun runId op.owner op.importRunId op.operationId
      (renderReport lib inputs op.stateFingerprint) now) { s with runs := t } := by
  obtain ⟨hrows, hfresh⟩ := Table.insert?_eq_some ht
  refine ⟨?_, rfl, rfl, rfl, rfl, rfl, rfl, ?_⟩
  · unfold findRun at hnone ⊢
    rw [hrows, List.find?_append, hnone]
    simp [newRun]
  · have hnothing : itemsOf runId s = [] := by
      unfold itemsOf
      rw [List.filter_eq_nil_iff]
      intro i hi hrun
      obtain ⟨r, hr, hid⟩ := href i hi
      exact hfresh r hr (hid.trans (decide_eq_true_eq.mp hrun))
    change (itemsOf runId s).map ReprocessingItem.outcome = _
    rw [hnothing]
    rfl

/-- **One chunk.** The next items of the plan and the row of the run. -/
theorem Positioned.advance {m : Store} {checkpoint : Option String} {completed : Bool}
    (now : Instant) (h : Positioned lib op inputs n run s) (hruns : m.runs = s.runs)
    (hrows : m.items.rows = s.items.rows ++
      (((renderItems inputs).drop n).take max).map (ReprocessReportItem.row run.reprocessingRunId))
    (hcheckpoint : checkpoint =
      (((renderItems inputs).drop n).take max).getLast?.map ReprocessReportItem.itemKey)
    (hcompleted : completed = decide ((itemsOf run.reprocessingRunId m).length =
      (renderItems inputs).length)) :
    completed = decide ((renderItems inputs).length ≤ n + max) ∧
      op.stored (finishRun run.reprocessingRunId checkpoint
        (renderReport lib inputs op.stateFingerprint) completed now m) =
          some (op.contentAt lib inputs (n + max)) := by
  have houtcomes : (itemsOf run.reprocessingRunId m).map ReprocessingItem.outcome =
      ((renderItems inputs).take (n + max)).map ReprocessReportItem.outcome := by
    rw [itemsOf_insert hrows, h.items, List.take_add, List.map_append]
  have hcount : (itemsOf run.reprocessingRunId m).length =
      min (n + max) (renderItems inputs).length := by
    have hlength := congrArg List.length houtcomes
    rw [List.length_map, List.length_map, List.length_take] at hlength
    exact hlength
  have hdone : completed = decide ((renderItems inputs).length ≤ n + max) := by
    rw [hcompleted, hcount]
    exact decide_eq_decide.mpr (by omega)
  have hkey : checkpoint.or run.checkpointItemKey =
      ((renderItems inputs).take (n + max)).getLast?.map ReprocessReportItem.itemKey := by
    rw [hcheckpoint, h.checkpoint, List.take_add, List.getLast?_append, Option.map_or]
  refine ⟨hdone, ?_⟩
  unfold Operation.stored
  rw [findRun_finishRun ((findRun_congr hruns).trans h.found) rfl, Option.map_some]
  congr 1
  unfold ReprocessingRun.content Operation.contentAt ReprocessingRun.advanced
  rw [OperationContent.mk.injEq]
  refine ⟨h.importRun, h.layout, h.parser, ?_, h.plan, h.fingerprint, hkey, rfl, ?_, houtcomes⟩
  · rw [hdone]
    exact if_congr decide_eq_true_iff rfl rfl
  · rw [hdone]
    change Option.isSome (if decide ((renderItems inputs).length ≤ n + max) = true then
      some now else none) = decide ((renderItems inputs).length ≤ n + max)
    cases decide ((renderItems inputs).length ≤ n + max) <;> rfl

/-- Where an operation stands before a call: nothing is stored of it, or its first `n` items. -/
def Operation.At (lib : Externals) (op : Operation) (inputs : List ReprocessInput) (n : Nat)
    (s : Store) : Prop :=
  findRun op.owner op.operationId s = none ∧ s.Referential ∧ n = 0 ∨
    op.stored s = some (op.contentAt lib inputs n)

theorem finalState_ne_running (report : ReprocessReport) :
    report.finalState = .completed ∨ report.finalState = .completedWithWarnings := by
  unfold ReprocessReport.finalState
  split
  · exact Or.inr rfl
  · exact Or.inl rfl

theorem contentAt_of_le {m : Nat} (hn : (renderItems inputs).length ≤ n) (hnm : n ≤ m) :
    op.contentAt lib inputs n = op.contentAt lib inputs m := by
  have hm := hn.trans hnm
  unfold Operation.contentAt
  simp only [renderReport_items, List.take_of_length_le hn, List.take_of_length_le hm, hn, hm]

/-- The run a call works on, and where it stands; or the operation is complete. -/
theorem opened_or_complete {env : Env} {runId : Uuid} {state : ReprocessingState} {m : Store}
    (h : (ensureReprocessingRun op.owner op.importRunId op.operationId
      (renderReport lib inputs op.stateFingerprint)).Yields env s (runId, state) m)
    (hat : op.At lib inputs n s) :
    m.archive = s.archive ∧
    ((∃ run, Positioned lib op inputs n run m ∧ runId = run.reprocessingRunId ∧
      state = .running ∧ (op.stored s ≠ none → n < (renderItems inputs).length)) ∨
      (renderItems inputs).length ≤ n ∧ m = s ∧
        op.stored s = some (op.contentAt lib inputs n) ∧
        (state = .completed ∨ state = .completedWithWarnings)) := by
  rcases ensureReprocessingRun_yields h with
    ⟨run, hfound, -, -, -, hout, rfl⟩ | ⟨hnone, runId', now, t, ht, hout, rfl⟩
  · obtain ⟨rfl, rfl⟩ := Prod.mk.inj hout
    refine ⟨rfl, ?_⟩
    rcases hat with ⟨hnone, -⟩ | hstored
    · rw [hnone] at hfound
      cases hfound
    · obtain ⟨run', hpos, hstate⟩ := positioned_of_stored hstored
      obtain rfl := Option.some.inj (hfound.symm.trans hpos.found)
      by_cases hn : (renderItems inputs).length ≤ n
      · refine Or.inr ⟨hn, rfl, hstored, ?_⟩
        rw [hstate, contentAt_state, if_pos hn]
        exact finalState_ne_running _
      · refine Or.inl ⟨run, hpos, rfl, ?_, fun _ => not_le.mp hn⟩
        rw [hstate, contentAt_state, if_neg hn]
  · obtain ⟨rfl, rfl⟩ := Prod.mk.inj hout
    refine ⟨rfl, ?_⟩
    rcases hat with ⟨-, href, rfl⟩ | hstored
    · refine Or.inl ⟨_, positioned_newRun href hnone ht, rfl, rfl, fun hstored => ?_⟩
      unfold Operation.stored at hstored
      rw [hnone] at hstored
      exact absurd rfl hstored
    · unfold Operation.stored at hstored
      rw [hnone] at hstored
      cases hstored

/-- **What a committed call does.** It moves the operation on by its chunk, and does nothing once
the operation is complete. -/
theorem applyChunk_moves {inputs' : List ReprocessInput} {env : Env} {out : ReprocessApplyOutcome}
    (hplan : PlanInputs inputs) (hperm : inputs'.Perm inputs)
    (h : (applyChunk lib op.owner op.importRunId op.operationId inputs' op.stateFingerprint
      max).Yields env s out s') (hat : op.At lib inputs n s) :
    out.report = renderReport lib inputs op.stateFingerprint ∧
      out.completed = decide ((renderItems inputs).length ≤ n + max) ∧
      op.stored s' = some (op.contentAt lib inputs (n + max)) ∧ s'.archive = s.archive ∧
      (op.stored s = some (op.contentAt lib inputs n) → (renderItems inputs).length ≤ n →
        s' = s) := by
  unfold applyChunk migrationApply at h
  rw [renderReport_perm hplan hperm] at h
  obtain ⟨⟨runId, state⟩, m, h1, hrest⟩ := h.bind
  obtain ⟨harchive, ⟨run, hpos, rfl, rfl, hopen⟩ | ⟨hn, rfl, hstored, hstate⟩⟩ :=
    opened_or_complete h1 hat
  · simp only [reduceCtorEq, or_self, if_false] at hrest
    obtain ⟨existing, m', h2, h⟩ := Yields.bind hrest
    obtain ⟨rfl, rfl⟩ := h2.query
    obtain ⟨checkpoint, m', h3, h⟩ := Yields.bind h
    obtain ⟨harchive', hruns, hrows, hcheckpoint⟩ := insertItems_yields h3
    obtain ⟨completed, m'', h4, h⟩ := Yields.bind h
    obtain ⟨hcompleted, now, rfl⟩ := finishReprocessingRun_yields h4
    obtain ⟨_, m'', h5, h⟩ := Yields.bind h
    obtain rfl := h5.commit
    obtain ⟨rfl, rfl⟩ := yields_pure.mp h
    have hremaining := remaining_items hplan hpos
    rw [renderReport_items, hremaining] at hrows hcheckpoint
    rw [Option.or_none] at hcheckpoint
    obtain ⟨hdone, hstored⟩ := hpos.advance now hruns hrows hcheckpoint hcompleted
    refine ⟨rfl, hdone, hstored, harchive'.trans harchive, ?_⟩
    -- a complete operation is not worked on
    intro hbefore hn
    have hlt := hopen (by rw [hbefore]; exact Option.some_ne_none _)
    omega
  · simp only [if_pos hstate] at hrest
    obtain ⟨_, m', h2, h⟩ := Yields.bind hrest
    obtain rfl := h2.commit
    obtain ⟨rfl, rfl⟩ := yields_pure.mp h
    have hmore : (renderItems inputs).length ≤ n + max := hn.trans (Nat.le_add_right n max)
    refine ⟨rfl, (decide_eq_true hmore).symm, ?_, rfl, fun _ _ => rfl⟩
    rw [hstored, contentAt_of_le hn (Nat.le_add_right n max)]

end Positions

/-! ## Calls that commit -/

/-- The checks of the tables hold for every item and both fingerprints. -/
structure Storable (lib : Externals) (op : Operation) (inputs : List ReprocessInput) : Prop where
  items : ∀ item ∈ renderItems inputs, item.unstorable = none
  fingerprint : textHasNul op.stateFingerprint = false
  fingerprintLength : op.stateFingerprint.length = 64
  digestLength : (lib.sha256 (canonicalPlan (renderItems inputs))).length = 32

/-- The import run of the operation can be reprocessed. -/
def Operation.Supported (op : Operation) (s : Store) : Prop :=
  supportedReceipt op.owner op.importRunId s = .ok (true, s)

section Commits

variable {lib : Externals} {op : Operation} {inputs : List ReprocessInput} {n max : Nat}
  {env : Env} {s : Store}

theorem hexEncode_length (bytes : List UInt8) : (hexEncode bytes).length = 2 * bytes.length := by
  unfold hexEncode
  rw [String.length_ofList]
  induction bytes with
  | nil => rfl
  | cons byte rest ih =>
    rw [List.flatMap_cons, List.length_append, ih, List.length_cons, List.length_cons,
      List.length_cons, List.length_nil]
    omega

theorem Operation.Supported.importRun (h : op.Supported s) :
    (s.archive.importRuns.lookup op.importRunId).isNone = false := by
  unfold Operation.Supported supportedReceipt receiptRow at h
  cases hrun : s.archive.importRuns.lookup op.importRunId with
  | none =>
    rw [hrun] at h
    cases h
  | some r => rfl

theorem Operation.Supported.of_archive {s' : Store} (h : op.Supported s)
    (harchive : s'.archive = s.archive) : op.Supported s' := by
  obtain ⟨archive, runs, items⟩ := s
  obtain ⟨archive', runs', items'⟩ := s'
  subst harchive
  unfold Operation.Supported supportedReceipt receiptRow at h ⊢
  simp only at h ⊢
  split at h
  · cases h
  · split at h
    · cases h
    · cases h
    · simp only [Except.ok.injEq, Prod.mk.injEq, and_true] at h ⊢
      exact h

theorem runGuard_eq_none {run : ReprocessingRun} (hnul : textHasNul run.stateFingerprint = false)
    (hplan : run.planFingerprint.length = 64) (hlength : run.stateFingerprint.length = 64)
    (hunique : findRun run.userRef run.operationId s = none)
    (himport : (s.archive.importRuns.lookup run.importRunId).isNone = false) :
    runGuard run s = none := by
  unfold runGuard
  rw [if_neg (by rw [hnul]; decide), if_neg (by rw [hplan, hlength]; decide),
    if_neg (by rw [hunique]; decide), if_neg (by rw [himport]; decide)]

theorem ensureReprocessingRun_ends (hstorable : Storable lib op inputs)
    (hsupported : op.Supported s) (hquiet : env.Quiet)
    (hfresh : op.stored s = none → ∀ k, ∀ r ∈ s.runs, r.reprocessingRunId ≠ env.uuid k)
    (hat : op.At lib inputs n s) (tick : Nat) :
    (ensureReprocessingRun op.owner op.importRunId op.operationId
      (renderReport lib inputs op.stateFingerprint)).Ends env ⟨s, tick⟩ fun _ _ => True := by
  refine .bind (.statement hquiet hsupported ?_)
  refine .bind (.query hquiet ?_)
  rcases hat with ⟨hnone, -, -⟩ | hstored
  · rw [hnone]
    have hnew : op.stored s = none := by
      unfold Operation.stored
      rw [hnone]
      rfl
    refine .bind (.nowV7 (.bind (.now (.bind (.insertInto hquiet ?_
      (fun r hr => hfresh hnew _ r hr) ?_)))))
    · refine runGuard_eq_none hstorable.fingerprint ?_ hstorable.fingerprintLength hnone
        hsupported.importRun
      change (hexEncode (lib.sha256 (canonicalPlan (renderItems inputs)))).length = 64
      rw [hexEncode_length, hstorable.digestLength]
    · intro t _
      exact .pure trivial
  · obtain ⟨run, hpos, -⟩ := positioned_of_stored hstored
    rw [hpos.found]
    change Tx.Ends (if run.importRunId ≠ op.importRunId ∨ run.planFingerprint ≠
        (renderReport lib inputs op.stateFingerprint).planFingerprint ∨
        run.stateFingerprint ≠ op.stateFingerprint
      then throw ReprocessingError.planPreconditionChanged
      else Pure.pure (run.reprocessingRunId, run.state)) env _ _
    rw [if_neg (by simp [hpos.importRun, hpos.plan, hpos.fingerprint])]
    exact .pure trivial

theorem insertItems_ends {runId : Uuid} (hquiet : env.Quiet) {items : List ReprocessReportItem} :
    ∀ {s : Store} (tick : Nat) (checkpoint : Option String),
      (s.runs.lookup runId).isNone = false → (∀ item ∈ items, item.unstorable = none) →
      (items.map ReprocessReportItem.itemKey).Nodup →
      (∀ item ∈ items, ∀ i ∈ s.items, (i.reprocessingRunId, i.itemKey) ≠ (runId, item.itemKey)) →
      (insertItems runId items checkpoint).Ends env ⟨s, tick⟩ fun _ _ => True := by
  induction items with
  | nil =>
    intro s tick checkpoint _ _ _ _
    exact .pure trivial
  | cons item rest ih =>
    intro s tick checkpoint hrun hstorable hnodup hnew
    rw [List.map_cons, List.nodup_cons] at hnodup
    refine .bind (.insertInto hquiet ?_ (hnew item List.mem_cons_self) ?_)
    · unfold itemGuard
      rw [hstorable item List.mem_cons_self]
      simp only
      rw [if_neg (by rw [hrun]; decide)]
    · intro t ht
      refine ih _ _ hrun (fun other hmem => hstorable other (List.mem_cons_of_mem _ hmem))
        hnodup.2 ?_
      intro other hother i hi
      rcases (Table.mem_of_insert? ht i).mp hi with hold | rfl
      · exact hnew other (List.mem_cons_of_mem _ hother) i hold
      · intro hsame
        have hkey : item.itemKey = other.itemKey := congrArg Prod.snd hsame
        exact hnodup.1 (hkey ▸ List.mem_map_of_mem hother)

theorem reportGuard_eq_none (hstorable : Storable lib op inputs) (s : Store) :
    reportGuard (renderReport lib inputs op.stateFingerprint) s = none := by
  have hkeys : ∀ classification, (keysClassified classification (renderItems inputs)).any
      textHasNul = false := by
    intro classification
    rw [List.any_eq_false]
    intro key hkey hnul
    obtain ⟨item, hitem, rfl⟩ := List.mem_map.mp hkey
    have hitem := hstorable.items item (List.mem_filter.mp hitem).1
    unfold ReprocessReportItem.unstorable at hitem
    rw [hnul, Bool.true_or, if_pos rfl] at hitem
    cases hitem
  unfold reportGuard
  rw [if_neg]
  change ¬ ((keysClassified .warning (renderItems inputs)).any textHasNul ||
    (keysClassified .conflict (renderItems inputs)).any textHasNul ||
      textHasNul op.stateFingerprint) = true
  rw [hkeys, hkeys, hstorable.fingerprint]
  decide

/-- An item that is not among the existing keys has no row of the run. -/
theorem not_stored {runId : Uuid} {item : ReprocessReportItem}
    (h : (!(existingKeys runId s).contains item.itemKey) = true) :
    ∀ i ∈ s.items, (i.reprocessingRunId, i.itemKey) ≠ (runId, item.itemKey) := by
  rintro i hi hsame
  obtain ⟨hrun, hkey⟩ := Prod.mk.inj hsame
  have hmem : i ∈ itemsOf runId s := List.mem_filter.mpr ⟨hi, decide_eq_true hrun⟩
  have hexisting : item.itemKey ∈ existingKeys runId s := hkey ▸ List.mem_map_of_mem hmem
  simp [hexisting] at h

/-- **A storable plan commits** whenever the connection holds. -/
theorem applyChunk_commits (max : Nat) {inputs' : List ReprocessInput} (hplan : PlanInputs inputs)
    (hperm : inputs'.Perm inputs) (hstorable : Storable lib op inputs) (hsupported : op.Supported s)
    (hquiet : env.Quiet)
    (hfresh : op.stored s = none → ∀ k, ∀ r ∈ s.runs, r.reprocessingRunId ≠ env.uuid k)
    (hat : op.At lib inputs n s) :
    ∃ out s', (applyChunk lib op.owner op.importRunId op.operationId inputs' op.stateFingerprint
      max).exec env s = (.ok out, s') := by
  have hends : (applyChunk lib op.owner op.importRunId op.operationId inputs' op.stateFingerprint
      max).Ends env ⟨s, 0⟩ fun _ _ => True := by
    unfold applyChunk migrationApply
    rw [renderReport_perm hplan hperm]
    obtain ⟨⟨runId, state⟩, ⟨m, tick⟩, hopened, -⟩ :=
      ensureReprocessingRun_ends hstorable hsupported hquiet hfresh hat 0
    refine .bind ⟨_, _, hopened, ?_⟩
    obtain ⟨-, ⟨run, hpos, rfl, rfl, -⟩ | ⟨-, -, -, hstate⟩⟩ :=
      opened_or_complete hopened.yields hat
    · simp only [reduceCtorEq, or_self, if_false]
      refine .bind (.query hquiet ?_)
      have hrun : (m.runs.lookup run.reprocessingRunId).isNone = false := by
        rw [Table.lookup_mem (List.mem_of_find?_eq_some hpos.found)]
        rfl
      have hinserts : (insertItems run.reprocessingRunId (((renderItems inputs).filter fun item =>
          !(existingKeys run.reprocessingRunId m).contains item.itemKey).take max) none).Ends env
            ⟨m, tick + 1⟩ fun _ _ => True := by
        refine insertItems_ends hquiet (tick + 1) none hrun ?storable ?distinct ?unstored
        case storable =>
          intro item hitem
          exact hstorable.items item (List.mem_filter.mp (List.mem_of_mem_take hitem)).1
        case distinct =>
          refine hplan.keys_nodup.sublist (List.Sublist.map _ ?_)
          exact (List.take_sublist max _).trans List.filter_sublist
        case unstored =>
          intro item hitem
          exact not_stored (List.mem_filter.mp (List.mem_of_mem_take hitem)).2
      obtain ⟨last, ⟨m', tick'⟩, hinserted, -⟩ := hinserts
      refine .bind ⟨last, ⟨m', tick'⟩, hinserted, ?_⟩
      refine .bind (.bind (.query hquiet (.bind (.now (.bind (.executeChecked hquiet
        (reportGuard_eq_none hstorable m') (.pure ?_)))))))
      exact .bind (.commit hquiet (.pure trivial))
    · simp only [if_pos hstate]
      exact .bind (.commit hquiet (.pure trivial))
  obtain ⟨out, ses, hexec, -⟩ := hends.exec
  exact ⟨out, ses.store, hexec⟩

end Commits

end InstagramArchive.Reprocessing

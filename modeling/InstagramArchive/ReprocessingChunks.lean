import InstagramArchive.ReprocessingRuns

/-!
# Chunks equal one call

Calls of one operation follow each other, each with the inputs in an order of its own, and some of
them fail. Where the operation stands after them is decided by how many items the committed calls
asked for.
-/

namespace InstagramArchive.Reprocessing

open Relational Relational.Tx

/-- One call of `apply_chunk` for an operation. -/
structure ChunkCall where
  env : Env
  inputs : List ReprocessInput
  maxItems : Nat

def ChunkCall.run (lib : Externals) (op : Operation) (call : ChunkCall) (s : Store) :
    Except ReprocessingError ReprocessApplyOutcome × Store :=
  (applyChunk lib op.owner op.importRunId op.operationId call.inputs op.stateFingerprint
    call.maxItems).exec call.env s

/-- The store after the calls, one after the other. -/
def applyEach (lib : Externals) (op : Operation) : List ChunkCall → Store → Store
  | [], s => s
  | call :: rest, s => applyEach lib op rest (call.run lib op s).2

/-- What applying stores of each input, in the order of the keys. -/
def plannedItems (inputs : List ReprocessInput) : List ItemOutcome :=
  (renderItems inputs).map ReprocessReportItem.outcome

/-- The items that are stored of an operation, in the order they were inserted in. -/
def Operation.committed (op : Operation) (s : Store) : List ItemOutcome :=
  ((op.stored s).map OperationContent.items).getD []

/-- The answer and the store of a committed call are those of the plan. -/
structure ChunkCall.Advances (lib : Externals) (op : Operation) (inputs : List ReprocessInput)
    (call : ChunkCall) (s : Store) (out : ReprocessApplyOutcome) (s' : Store) : Prop where
  report : out.report = migrationDryRun lib inputs op.stateFingerprint
  /-- The next items of the plan are added, in order. -/
  grows : ∃ n, op.committed s = (plannedItems inputs).take n ∧
    op.committed s' = (plannedItems inputs).take (n + call.maxItems)
  completed : out.completed = true ↔ op.committed s' = plannedItems inputs
  archive : s'.archive = s.archive
  /-- A complete operation is left alone. -/
  repeated : op.stored s ≠ none → op.committed s = plannedItems inputs → s' = s

section Calls

variable {lib : Externals} {op : Operation} {inputs : List ReprocessInput} {n : Nat}
  {call : ChunkCall} {s s' : Store}

theorem plannedItems_length : (plannedItems inputs).length = inputs.length := by
  unfold plannedItems
  rw [List.length_map, renderItems_length]

theorem stored_eq_none : op.stored s = none ↔ findRun op.owner op.operationId s = none :=
  Option.map_eq_none_iff

/-- The plan is in the order of its keys, and has each key once. -/
theorem plannedItems_ordered (hplan : PlanInputs inputs) :
    ((plannedItems inputs).map ItemOutcome.itemKey).Pairwise (· < ·) := by
  have hkeys : (plannedItems inputs).map ItemOutcome.itemKey =
      (inputs.map ReprocessInput.itemKey).insertionSort (· ≤ ·) := by
    unfold plannedItems renderItems
    rw [List.map_map]
    refine (List.map_insertionSort _ (· ≤ ·) ReprocessReportItem.itemKey _
      fun _ _ _ _ => Iff.rfl).trans ?_
    rw [List.map_map]
    rfl
  rw [hkeys]
  have hnodup := (List.perm_insertionSort (· ≤ ·) (inputs.map ReprocessInput.itemKey)).nodup_iff.mpr
    hplan.distinct
  exact (List.pairwise_insertionSort (· ≤ ·) (inputs.map ReprocessInput.itemKey)).imp₂
    (fun _ _ hle hne => lt_of_le_of_ne hle hne) hnodup

theorem committed_of_stored (h : op.stored s = some (op.contentAt lib inputs n)) :
    op.committed s = (plannedItems inputs).take n := by
  unfold Operation.committed plannedItems
  rw [h, ← List.map_take]
  rfl

theorem Operation.At.committed (h : op.At lib inputs n s) :
    op.committed s = (plannedItems inputs).take n := by
  rcases h with ⟨hnone, -, rfl⟩ | hstored
  · unfold Operation.committed
    rw [stored_eq_none.mpr hnone]
    rfl
  · exact committed_of_stored hstored

theorem take_planned_eq : (plannedItems inputs).take n = plannedItems inputs ↔
    (renderItems inputs).length ≤ n := by
  rw [renderItems_length, ← plannedItems_length]
  constructor
  · intro h
    rw [← h, List.length_take]
    exact min_le_left _ _
  · exact List.take_of_length_le

/-- **One call.** An error leaves the store alone. A commit moves the operation on. -/
theorem ChunkCall.run_moves (hplan : PlanInputs inputs) (hperm : call.inputs.Perm inputs)
    (hat : op.At lib inputs n s) :
    (∀ e, (call.run lib op s).1 = .error e → (call.run lib op s).2 = s) ∧
      ∀ out, (call.run lib op s).1 = .ok out →
        call.Advances lib op inputs s out (call.run lib op s).2 ∧
          op.stored (call.run lib op s).2 = some (op.contentAt lib inputs (n + call.maxItems)) := by
  unfold ChunkCall.run
  generalize hexec : (applyChunk lib op.owner op.importRunId op.operationId call.inputs
    op.stateFingerprint call.maxItems).exec call.env s = result
  obtain ⟨answer, s'⟩ := result
  constructor
  · rintro e rfl
    exact exec_error hexec
  · rintro out rfl
    obtain ⟨hreport, hcompleted, hstored, harchive, hrepeated⟩ :=
      applyChunk_moves hplan hperm (exec_ok hexec) hat
    have hcommitted := committed_of_stored hstored
    refine ⟨⟨hreport, ⟨n, hat.committed, hcommitted⟩, ?_, harchive, ?_⟩, hstored⟩
    · rw [hcompleted, hcommitted, take_planned_eq, decide_eq_true_iff]
    · intro hsome hfull
      rw [hat.committed, take_planned_eq] at hfull
      rcases hat with ⟨hnone, -⟩ | hbefore
      · exact absurd (stored_eq_none.mpr hnone) hsome
      · exact hrepeated hbefore hfull

/-- **Many calls.** The operation stands somewhere along its plan. -/
theorem applyEach_at (hplan : PlanInputs inputs) (calls : List ChunkCall)
    (hcalls : ∀ call ∈ calls, call.inputs.Perm inputs) :
    ∀ {n : Nat} {s : Store}, op.At lib inputs n s →
      ∃ m, n ≤ m ∧ op.At lib inputs m (applyEach lib op calls s) := by
  induction calls with
  | nil =>
    intro n s hat
    exact ⟨n, le_rfl, hat⟩
  | cons call rest ih =>
    intro n s hat
    obtain ⟨herror, hok⟩ := ChunkCall.run_moves hplan (hcalls call List.mem_cons_self) hat
    have hrest : ∀ other ∈ rest, other.inputs.Perm inputs := fun other hother =>
      hcalls other (List.mem_cons_of_mem _ hother)
    unfold applyEach
    cases hanswer : (call.run lib op s).1 with
    | error e =>
      rw [herror e hanswer]
      exact ih hrest hat
    | ok out =>
      obtain ⟨m, hm, hlast⟩ := ih hrest (Or.inr (hok out hanswer).2)
      exact ⟨m, (Nat.le_add_right n call.maxItems).trans hm, hlast⟩

/-- Nothing but the connection could keep the calls from committing. -/
structure Unhindered (lib : Externals) (op : Operation) (inputs : List ReprocessInput)
    (calls : List ChunkCall) (s : Store) : Prop where
  storable : Storable lib op inputs
  supported : op.Supported s
  quiet : ∀ call ∈ calls, call.env.Quiet
  /-- The identifier a first call draws is a new one. -/
  fresh : op.stored s = none → ∀ call ∈ calls, ∀ k, ∀ r ∈ s.runs,
    r.reprocessingRunId ≠ call.env.uuid k

theorem ChunkCall.run_commits (hplan : PlanInputs inputs) (hperm : call.inputs.Perm inputs)
    (hfree : Unhindered lib op inputs [call] s) (hat : op.At lib inputs n s) :
    ∃ out, (call.run lib op s).1 = .ok out := by
  obtain ⟨out, s', hexec⟩ := applyChunk_commits call.maxItems hplan hperm hfree.storable
    hfree.supported (hfree.quiet call List.mem_cons_self)
    (fun hnone => hfree.fresh hnone call List.mem_cons_self) hat
  refine ⟨out, ?_⟩
  unfold ChunkCall.run
  rw [hexec]

/-- Calls that commit get on by an item each. -/
theorem applyEach_advances (hplan : PlanInputs inputs) (calls : List ChunkCall)
    (hcalls : ∀ call ∈ calls, call.inputs.Perm inputs ∧ 1 ≤ call.maxItems) :
    ∀ {n : Nat} {s : Store}, op.At lib inputs n s → Unhindered lib op inputs calls s →
      ∃ m, n + calls.length ≤ m ∧ op.At lib inputs m (applyEach lib op calls s) ∧
        (op.stored s ≠ none ∨ calls ≠ [] → op.stored (applyEach lib op calls s) ≠ none) := by
  induction calls with
  | nil =>
    intro n s hat _
    exact ⟨n, le_rfl, hat, fun h => h.resolve_right fun hne => hne rfl⟩
  | cons call rest ih =>
    intro n s hat hfree
    obtain ⟨hperm, hone⟩ := hcalls call List.mem_cons_self
    obtain ⟨out, hanswer⟩ := ChunkCall.run_commits hplan hperm
      { hfree with
        quiet := fun other hother => hfree.quiet other (by simp_all)
        fresh := fun hnone other hother => hfree.fresh hnone other (by simp_all) } hat
    obtain ⟨hadvances, hstored⟩ := (ChunkCall.run_moves hplan hperm hat).2 out hanswer
    have hsupported := hfree.supported.of_archive hadvances.archive
    obtain ⟨m, hm, hlast, hrest⟩ := ih
      (fun other hother => hcalls other (List.mem_cons_of_mem _ hother)) (Or.inr hstored)
      { storable := hfree.storable
        supported := hsupported
        quiet := fun other hother => hfree.quiet other (List.mem_cons_of_mem _ hother)
        fresh := fun hnone => absurd (hstored.symm.trans hnone) (Option.some_ne_none _) }
    have hopen : op.stored (call.run lib op s).2 ≠ none := by
      rw [hstored]
      exact Option.some_ne_none _
    refine ⟨m, ?_, hlast, fun _ => hrest (Or.inl hopen)⟩
    rw [List.length_cons]
    omega

/-- The other call has another import run, another state or other inputs. -/
def Differs (op op' : Operation) (inputs inputs' : List ReprocessInput) : Prop :=
  op'.importRunId ≠ op.importRunId ∨ op'.stateFingerprint ≠ op.stateFingerprint ∨
    ¬ ∀ input, input ∈ inputs' ↔ input ∈ inputs

/-- **A changed plan is refused.** -/
theorem ChunkCall.run_refused {op' : Operation} {run : ReprocessingRun}
    (hplan : PlanInputs inputs) (hplan' : PlanInputs call.inputs)
    (hapart : PlansApart lib call.inputs inputs) (howner : op'.owner = op.owner)
    (hoperation : op'.operationId = op.operationId) (hdiffers : Differs op op' inputs call.inputs)
    (hpos : Positioned lib op inputs n run s) :
    ∃ e, call.run lib op' s = (.error e, s) ∧
      (call.env.Quiet → op'.Supported s → e = .planPreconditionChanged) := by
  have hfound : findRun op'.owner op'.operationId s = some run := by
    rw [howner, hoperation]
    exact hpos.found
  have hchanged : run.importRunId ≠ op'.importRunId ∨
      run.planFingerprint ≠ (renderReport lib call.inputs op'.stateFingerprint).planFingerprint ∨
        run.stateFingerprint ≠ op'.stateFingerprint := by
    by_contra hsame
    simp only [not_or, not_not] at hsame
    obtain ⟨himport, hplans, hstate⟩ := hsame
    rcases hdiffers with h | h | h
    · exact h (himport.symm.trans hpos.importRun)
    · exact h (hstate.symm.trans hpos.fingerprint)
    · have hsame : (renderReport lib call.inputs op.stateFingerprint).planFingerprint =
          (renderReport lib inputs op.stateFingerprint).planFingerprint :=
        hplans.symm.trans hpos.plan
      exact h (same_fingerprint hplan' hplan hapart hsame)
  by_cases hfine : call.env.Quiet ∧ op'.Supported s
  · refine ⟨.planPreconditionChanged, Stops.exec ?_, fun _ _ => rfl⟩
    refine Stops.bind (Ends.stops (Ends.statement hfine.1 hfine.2 (Q := fun a ses =>
      a = true ∧ ses.store = s) ⟨rfl, rfl⟩) ?_)
    rintro _ ⟨s, tick⟩ ⟨rfl, rfl⟩
    refine Ends.stops (Ends.query hfine.1 (Q := fun a ses => a = some run ∧ ses.store = s)
      ⟨hfound, rfl⟩) ?_
    rintro _ ⟨s, tick⟩ ⟨rfl, rfl⟩
    have hstops : ∀ ses : Session Store, Stops (if run.importRunId ≠ op'.importRunId ∨
        run.planFingerprint ≠ (renderReport lib call.inputs op'.stateFingerprint).planFingerprint ∨
          run.stateFingerprint ≠ op'.stateFingerprint
        then Tx.throw ReprocessingError.planPreconditionChanged
        else pure (run.reprocessingRunId, run.state)) call.env ses .planPreconditionChanged := by
      intro ses
      rw [if_pos hchanged]
      rfl
    exact hstops _
  · rcases exec_cases (applyChunk lib op'.owner op'.importRunId op'.operationId call.inputs
      op'.stateFingerprint call.maxItems) call.env s with ⟨out, s', -, hyields⟩ | ⟨e, hexec⟩
    · obtain ⟨_, m, hopened, -⟩ := hyields.bind
      rcases ensureReprocessingRun_yields hopened with
        ⟨run', hfound', himport, hplans, hstate, -⟩ | ⟨hnone, -⟩
      · obtain rfl := Option.some.inj (hfound.symm.trans hfound')
        rcases hchanged with h | h | h
        · exact absurd himport h
        · exact absurd hplans h
        · exact absurd hstate h
      · rw [hfound] at hnone
        cases hnone
    · exact ⟨e, hexec, fun hquiet hsupported => absurd ⟨hquiet, hsupported⟩ hfine⟩

/-- Building a dry run reads the archive and renders the report of the plan. -/
theorem dryRun_renders {env : Env} {owner importRunId : Uuid} {inputs' : List ReprocessInput}
    {stateFingerprint : String} (hplan : PlanInputs inputs) (hperm : inputs'.Perm inputs)
    (s : Store) :
    ((dryRun lib owner importRunId inputs' stateFingerprint).exec env s).2 = s ∧
      ∀ report,
        ((dryRun lib owner importRunId inputs' stateFingerprint).exec env s).1 = .ok report →
          report = migrationDryRun lib inputs stateFingerprint := by
  rcases exec_cases (dryRun lib owner importRunId inputs' stateFingerprint) env s with
    ⟨report, s', hexec, hyields⟩ | ⟨e, hexec⟩
  · obtain ⟨authorized, m, hread, h⟩ := hyields.bind
    obtain ⟨-, rfl⟩ := hread.query
    rw [hexec]
    cases authorized with
    | false => exact h.throw.elim
    | true =>
      obtain ⟨rfl, rfl⟩ := yields_pure.mp h
      refine ⟨rfl, ?_⟩
      rintro _ ⟨⟩
      exact renderReport_perm hplan hperm
  · rw [hexec]
    exact ⟨rfl, fun report h => nomatch h⟩

end Calls

/-- From a store that has nothing of the operation: every committed call of every sequence adds
the next items of the plan in the order of their keys, none of them twice, and says it is complete
exactly when all of them are stored; an error changes nothing, and neither does a call after the
completion. What is stored then is what one call for the whole plan stores, and both report what a
dry run reports. A call with another plan, state or import run is refused and changes nothing,
since the canonical plan determines the inputs. As many calls as there are items complete the
operation where nothing but the connection can hinder them. -/
theorem chunks_equal_one_call (lib : Externals) (op : Operation) {inputs : List ReprocessInput}
    (hplan : PlanInputs inputs) {s₀ : Store} (href : s₀.Referential) (hnew : op.stored s₀ = none)
    (calls : List ChunkCall)
    (hcalls : ∀ call ∈ calls, call.inputs.Perm inputs ∧ 1 ≤ call.maxItems) :
    ((plannedItems inputs).map ItemOutcome.itemKey).Pairwise (· < ·) ∧
    (∀ before call after, calls = before ++ call :: after →
      let s := applyEach lib op before s₀
      let s' := (call.run lib op s).2
      (∀ e, (call.run lib op s).1 = .error e → s' = s) ∧
        ∀ out, (call.run lib op s).1 = .ok out → call.Advances lib op inputs s out s' ∧
          (out.completed = true → ∀ one : ChunkCall, one.inputs.Perm inputs →
            inputs.length ≤ one.maxItems → ∀ whole, (one.run lib op s₀).1 = .ok whole →
              whole.completed = true ∧ whole.report = out.report ∧
                op.stored (one.run lib op s₀).2 = op.stored s')) ∧
    (∀ env inputs' s, inputs'.Perm inputs →
      let result := (dryRun lib op.owner op.importRunId inputs' op.stateFingerprint).exec env s
      result.2 = s ∧ ∀ report, result.1 = .ok report →
        report = migrationDryRun lib inputs op.stateFingerprint) ∧
    (∀ op' : Operation, op'.owner = op.owner → op'.operationId = op.operationId →
      ∀ other : ChunkCall, PlanInputs other.inputs →
        (canonicalPlan (renderItems other.inputs) = canonicalPlan (renderItems inputs) →
          ∀ input, input ∈ other.inputs ↔ input ∈ inputs) ∧
        let s := applyEach lib op calls s₀
        (PlansApart lib other.inputs inputs → op.stored s ≠ none →
          Differs op op' inputs other.inputs →
            ∃ e, other.run lib op' s = (.error e, s) ∧
              (other.env.Quiet → op'.Supported s → e = .planPreconditionChanged))) ∧
    (Unhindered lib op inputs calls s₀ → calls ≠ [] → inputs.length ≤ calls.length →
      ∀ one : ChunkCall, one.inputs.Perm inputs → inputs.length ≤ one.maxItems →
        Unhindered lib op inputs [one] s₀ →
          (∃ whole, (one.run lib op s₀).1 = .ok whole) ∧
            op.committed (applyEach lib op calls s₀) = plannedItems inputs ∧
            op.stored (one.run lib op s₀).2 = op.stored (applyEach lib op calls s₀)) := by
  have hat : op.At lib inputs 0 s₀ := Or.inl ⟨stored_eq_none.mp hnew, href, rfl⟩
  have hlength : (renderItems inputs).length = inputs.length := renderItems_length
  refine ⟨plannedItems_ordered hplan, ?_, fun env inputs' s hperm => dryRun_renders hplan hperm s,
    ?_, ?_⟩
  · rintro before call after rfl
    obtain ⟨n, -, hbefore⟩ := applyEach_at hplan before
      (fun other hother => (hcalls other (List.mem_append_left _ hother)).1) hat
    have hperm := (hcalls call (List.mem_append_right _ List.mem_cons_self)).1
    obtain ⟨herror, hok⟩ := ChunkCall.run_moves hplan hperm hbefore
    refine ⟨herror, fun out hout => ?_⟩
    obtain ⟨hadvances, hstored⟩ := hok out hout
    refine ⟨hadvances, fun hcompleted one hone hlarge whole hwhole => ?_⟩
    obtain ⟨hwholeAdvances, hwholeStored⟩ := (ChunkCall.run_moves hplan hone hat).2 whole hwhole
    have hall : (renderItems inputs).length ≤ 0 + one.maxItems := by omega
    have hdone : (renderItems inputs).length ≤ n + call.maxItems := by
      rw [hadvances.completed, committed_of_stored hstored, take_planned_eq] at hcompleted
      exact hcompleted
    refine ⟨?_, hwholeAdvances.report.trans hadvances.report.symm, ?_⟩
    · rw [hwholeAdvances.completed, committed_of_stored hwholeStored, take_planned_eq]
      exact hall
    · rw [hwholeStored, hstored, contentAt_of_le hall (Nat.le_add_right _ (n + call.maxItems)),
        contentAt_of_le hdone (Nat.le_add_left (n + call.maxItems) (0 + one.maxItems))]
  · intro op' howner hoperation other hother
    refine ⟨fun hsame input => ?_, fun hapart hopen hdiffers => ?_⟩
    · exact same_inputs hother hplan hsame input
    · obtain ⟨m, -, hlast⟩ := applyEach_at hplan calls
        (fun call hcall => (hcalls call hcall).1) hat
      obtain ⟨run, hpos, -⟩ := positioned_of_stored
        (hlast.resolve_left fun h => hopen (stored_eq_none.mpr h.1))
      exact ChunkCall.run_refused hplan hother hapart howner hoperation hdiffers hpos
  · intro hfree hne hmany one hone hlarge hfreeOne
    obtain ⟨whole, hwhole⟩ := ChunkCall.run_commits hplan hone hfreeOne hat
    obtain ⟨hwholeAdvances, hwholeStored⟩ := (ChunkCall.run_moves hplan hone hat).2 whole hwhole
    obtain ⟨m, hm, hlast, hopen⟩ := applyEach_advances hplan calls hcalls hat hfree
    have hstored := hlast.resolve_left fun h => hopen (Or.inr hne) (stored_eq_none.mpr h.1)
    have hall : (renderItems inputs).length ≤ 0 + one.maxItems := by omega
    have hdone : (renderItems inputs).length ≤ m := by omega
    refine ⟨⟨whole, hwhole⟩, ?_, ?_⟩
    · rw [committed_of_stored hstored, take_planned_eq]
      exact hdone
    · rw [hwholeStored, hstored, contentAt_of_le hall (Nat.le_add_right _ m),
        contentAt_of_le hdone (Nat.le_add_left m (0 + one.maxItems))]

/-- A digest of sixty-four characters. -/
def someDigest : String := String.ofList (List.replicate 64 'a')

/-- Two retained items. The key of the first has both separators of a plan. -/
def retainedInputs : List ReprocessInput :=
  [⟨"b:|normalized|", .normalized, some someDigest⟩, ⟨"a", .warning, none⟩]

def retainedOperation : Operation := ⟨1, 5, 7, someDigest⟩

/-- The receipt has a reconciled import run. -/
def reconciledStore : Store where
  archive := { importRuns := ⟨[{
    runId := 5
    snapshotId := 4
    userRef := 1
    state := .reconciled
    detectedLayout := some SUPPORTED_REPROCESSING_LAYOUT
    parserId := some SUPPORTED_REPROCESSING_PARSER
    receivedAt := 1
    updatedAt := 2 }], by decide⟩ }

/-- One item each, in two orders; the third call comes after the completion. -/
def retainedCalls : List ChunkCall :=
  [⟨quietEnv 10 100, retainedInputs, 1⟩, ⟨quietEnv 20 200, retainedInputs.reverse, 1⟩,
    ⟨quietEnv 30 300, retainedInputs, 5⟩]

def wholeCall : ChunkCall := ⟨quietEnv 40 400, retainedInputs, 9⟩

theorem chunks_equal_one_call_retained :
    (retainedOperation.committed (applyEach DataExport.padded retainedOperation retainedCalls
        reconciledStore)).map ItemOutcome.itemKey = ["a", "b:|normalized|"] ∧
      retainedOperation.stored
          (wholeCall.run DataExport.padded retainedOperation reconciledStore).2 =
        retainedOperation.stored (applyEach DataExport.padded retainedOperation retainedCalls
          reconciledStore) := by
  have hplan : PlanInputs retainedInputs := by
    refine ⟨by decide +kernel, ?_⟩
    intro input hinput digest hdigest
    have hsome : ∀ input ∈ retainedInputs, ∀ digest, input.prospectiveDigest = some digest →
        digest = someDigest := by
      simp [retainedInputs]
    obtain rfl := hsome input hinput digest hdigest
    exact ⟨by decide +kernel, List.all_iff_forall_prop.mp (by decide +kernel)⟩
  have hstorable : Storable DataExport.padded retainedOperation retainedInputs :=
    ⟨by decide +kernel, by decide +kernel, by decide +kernel, by decide +kernel⟩
  have hreversed : retainedInputs.reverse.Perm retainedInputs := List.reverse_perm _
  have h := chunks_equal_one_call DataExport.padded retainedOperation hplan
    (show reconciledStore.Referential from fun i hi => absurd hi (Table.not_mem_empty i)) rfl
    retainedCalls
    (by simp [retainedCalls, hreversed])
  refine ⟨by decide +kernel, ?_⟩
  have hquiet : ∀ call ∈ wholeCall :: retainedCalls, call.env.Quiet := by
    simp [wholeCall, retainedCalls, Env.Quiet, quietEnv]
  exact (h.2.2.2.2 ⟨hstorable, rfl, fun call hcall => hquiet call (List.mem_cons_of_mem _ hcall),
      fun _ _ _ _ r hr => absurd hr (Table.not_mem_empty r)⟩ (by decide) (by decide) wholeCall
    (List.Perm.refl _) (by decide) ⟨hstorable, rfl, fun call hcall => hquiet call (by simp_all),
      fun _ _ _ _ r hr => absurd hr (Table.not_mem_empty r)⟩).2.2

end InstagramArchive.Reprocessing

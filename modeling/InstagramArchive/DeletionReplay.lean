import InstagramArchive.ServiceWrites

/-!
# Replay of deletion requests

A committed deletion stores its operation and the audit of its plan under the id of the
request. `DeletionChange` lists what the transactions of the service do to the operations, the
audit and the tasks of stored objects, and none of it takes an operation or its audit back: a
request that is sent again is answered from them, in every later state and with no change.
-/

namespace InstagramArchive

open Relational Relational.Tx

/-! ## What a transaction does to the deletions -/

/-- What a committed transaction does to the tables of the deletions. -/
inductive DeletionChange (lib : Externals) (env : Env) (db : Db) : Db → Prop
  | kept {db' : Db} (hoperations : db'.deletionOperations = db.deletionOperations)
      (heffects : db'.deletionEffects = db.deletionEffects)
      (htasks : db'.blobDeletionTasks = db.blobDeletionTasks) : DeletionChange lib env db db'
  | tombstoned {row : DeletionOperation}
      {t : Table DeletionOperation DeletionOperation.operationId} {db' : Db}
      (hstate : row.state = .complete) (ht : db.deletionOperations.insert? row = some t)
      (hoperations : db'.deletionOperations = t)
      (heffects : db'.deletionEffects = db.deletionEffects)
      (htasks : db'.blobDeletionTasks = db.blobDeletionTasks) : DeletionChange lib env db db'
  | task {db' : Db} (h : TaskStep env db db') : DeletionChange lib env db db'
  | deleted {request : DeletionRequest} {db' : Db} (h : Deletes lib env request db db') :
      DeletionChange lib env db db'

section Changes

variable {lib : Externals} {env : Env} {db db' : Db}

/-- The operations of deletions stay. -/
def SameOperations (db db' : Db) : Prop := db'.deletionOperations = db.deletionOperations

theorem SameOperations.trans {a b c : Db} (h : SameOperations a b) (h' : SameOperations b c) :
    SameOperations a c := Eq.trans h' h

theorem Appends.sameOperations {row : OutboxEvent} (h : Appends db row db') :
    SameOperations db db' := by
  rw [h.eq]
  rfl

theorem Publishes.sameOperations {kind : FactKind} {captureId : Uuid}
    (h : Publishes lib kind captureId db db') : SameOperations db db' := by
  obtain ⟨_, _, _, -, happ⟩ := h
  exact happ.sameOperations

theorem recordFailedResolution_sameOperations {captureId : Uuid}
    {observed : AvailabilityObservationKind} {resolvedAt : Instant} {out : ResolutionOutcome}
    (h : (recordFailedResolution lib captureId observed resolvedAt).Yields env db out db') :
    SameOperations db db' := by
  obtain ⟨observations, mid, rfl, ⟨mediaId, -, -, hfact⟩ | ⟨-, rfl⟩⟩ :=
    recordFailedResolution_yields h
  · exact hfact.sameOperations
  · rfl

theorem storeResolution_sameOperations {captureId : Uuid} {permalink : Permalink.CanonicalPermalink}
    {normalized : NormalizedMedia} {body : String} {resolvedAt : Instant}
    {stored : StoredResolution}
    (h : (storeResolution lib captureId permalink normalized body resolvedAt).Yields env db
      stored db') : SameOperations db db' := by
  obtain ⟨mid, ⟨raws, upserted, revisions, observations, -, hup, -, rfl⟩, hfact⟩ :=
    storeResolution_yields h
  have hmid : SameOperations db (concludeResolved captureId stored.mediaId
      { setCurrentRevision stored.mediaId stored.revisionId
          { upserted with mediaRevisions := revisions } with
        availabilityObservations := observations }) := by
    rw [hup.frame]
    rfl
  split at hfact
  · exact hmid.trans hfact.sameOperations
  · rw [hfact]
    exact hmid

theorem reportPending_sameOperations {captureId : Uuid} {now : Instant} {n : Nat}
    (h : (reportPending lib captureId now).Yields env db n db') : SameOperations db db' := by
  obtain ⟨c, -, ⟨-, rfl⟩ | ⟨conclusion, -, hr⟩⟩ := reportPending_yields h
  · rfl
  · rw [hr.1]
    rfl

theorem submitCaptureInTransaction_sameOperations {request : CaptureRequest}
    {submission : CaptureSubmission}
    (h : (submitCaptureInTransaction request).Yields env db submission db') :
    SameOperations db db' := by
  obtain ⟨_, _, -, -, ⟨_, _, -, -, rfl, -⟩ | ⟨_, -, rfl, -⟩⟩ := submitCaptureInTransaction_yields h
  · rfl
  · rfl

theorem ingestBrowserCaptureCommand_sameOperations {delivery : CommandDelivery}
    {out : BrowserCaptureIngested}
    (h : (ingestBrowserCaptureCommand lib delivery).Yields env db out db') :
    SameOperations db db' := by
  obtain ⟨command, -, ⟨-, rfl, -⟩ | ⟨-, t, -, hh⟩⟩ := ingestBrowserCaptureCommand_yields h
  · rfl
  rcases handleCommand_yields hh with ⟨e, -, hr⟩ | ⟨submission, m, m', -, hs, hrec, rfl⟩
  · obtain ⟨-, eventId, occurredAt, m, happ, rfl⟩ := rejectCommand_yields hr
    exact happ.sameOperations
  · have hm : SameOperations { db with inboxEvents := t } m :=
      submitCaptureInTransaction_sameOperations hs
    rcases recordOperation_yields hrec with ⟨-, rfl⟩ | ⟨-, ops, eventId, occurredAt, -, happ⟩
    · exact hm
    · have hm' : SameOperations m m' := happ.sameOperations
      exact hm.trans hm'

/-- A tombstone adds its operation unless one is stored under the id of the capture. -/
theorem tombstoneCapture_operations {captureId : Uuid} {reason : RemovalReason}
    {removedAt : Instant} {out : TombstoneOutcome}
    (h : (tombstoneCapture lib captureId reason removedAt).Yields env db out db') :
    SameOperations db db' ∨ ∃ row t, row.state = .complete ∧
      db.deletionOperations.insert? row = some t ∧ db'.deletionOperations = t := by
  obtain ⟨capture, _, h1, h⟩ := h.bind
  obtain ⟨-, rfl⟩ := h1.fetchOne
  obtain ⟨present, _, h1, h⟩ := h.bind
  obtain ⟨-, rfl⟩ := h1.query
  cases present with
  | some removal =>
    obtain ⟨_, _, h1, h⟩ := h.bind
    obtain ⟨-, rfl⟩ := h1.ofExcept
    obtain ⟨_, _, h1, h⟩ := h.bind
    obtain rfl := h1.commit
    obtain ⟨-, rfl⟩ := yields_pure.mp h
    exact .inl rfl
  | none =>
    obtain ⟨_, m, h1, h⟩ := h.bind
    have hrest : SameOperations m db' := by
      obtain ⟨eventId, _, h2, h⟩ := h.bind
      obtain ⟨c, permalink, -, -, happ⟩ := appendRemovalFact_yields h2.mapError
      obtain ⟨_, _, h2, h⟩ := h.bind
      obtain ⟨-, removals, -, rfl⟩ := h2.insertInto
      obtain ⟨_, _, h2, h⟩ := h.bind
      obtain rfl := h2.execute
      obtain ⟨_, _, h2, h⟩ := h.bind
      obtain rfl := h2.commit
      obtain ⟨-, rfl⟩ := yields_pure.mp h
      exact happ.sameOperations
    have hinsert := h1.statement
    split at hinsert
    · cases hinsert
    · split at hinsert
      · cases hinsert
        exact .inl hrest
      · rename_i t ht
        cases hinsert
        exact .inr ⟨_, t, rfl, ht, hrest⟩

/-- **What a call of the capture lane does to the deletions.** -/
theorem Effect.deletionChange {call : Call} (h : Effect lib env db call db') :
    DeletionChange lib env db db' := by
  by_cases hdelete : ∃ request, call = .delete request
  · obtain ⟨request, rfl⟩ := hdelete
    cases h with
    | idle => exact .kept rfl rfl rfl
    | store hcall _ _ => exact hcall.elim
    | fail hcall _ _ => exact hcall.elim
    | delete h =>
      rcases applyDeletion_yields h with ⟨-, rfl⟩ | ⟨-, -, -, hdeletes⟩
      · exact .kept rfl rfl rfl
      · exact .deleted hdeletes
  -- The audit and the tasks are outside what the lane writes.
  obtain ⟨heffects, htasks⟩ : db'.deletionEffects = db.deletionEffects ∧
      db'.blobDeletionTasks = db.blobDeletionTasks := by
    obtain ⟨⟨_, _, _, _, _, _, _, _, _, _, _, rfl⟩, -⟩ :=
      h.captureWrites fun request hcall => hdelete ⟨request, hcall⟩
    exact ⟨rfl, rfl⟩
  suffices hoperations : SameOperations db db' ∨ ∃ row t, row.state = .complete ∧
      db.deletionOperations.insert? row = some t ∧ db'.deletionOperations = t by
    rcases hoperations with hsame | ⟨row, t, hstate, ht, hdb⟩
    · exact .kept hsame heffects htasks
    · exact .tombstoned hstate ht hdb heffects htasks
  cases h with
  | idle => exact .inl rfl
  | submit h => exact .inl (submitCaptureInTransaction_sameOperations h)
  | command h => exact .inl (ingestBrowserCaptureCommand_sameOperations h)
  | analysis h =>
    obtain ⟨completion, -, ⟨-, rfl, -⟩ | ⟨-, t, -, hh⟩⟩ := ingestAnalysisCompleted_yields h
    · exact .inl rfl
    · obtain ⟨-, outcome, links, rfl⟩ := handleCompletion_yields hh
      exact .inl rfl
  | claim h =>
    exact .inl (claimEach_invariant (SameOperations db) (fun _ _ _ hm => hm)
      (fun _ _ _ _ hr hm => hm.trans (reportPending_sameOperations hr)) h rfl)
  | reschedule => exact .inl rfl
  | store hcall hn h => exact .inl (storeResolution_sameOperations h)
  | fail hcall ho h => exact .inl (recordFailedResolution_sameOperations h)
  | unmapped h => exact .inl (recordFailedResolution_sameOperations h)
  | report h => exact .inl (reportPending_sameOperations h)
  | unavailable h =>
    obtain ⟨m, t, rfl, rfl⟩ := writeUnavailable_yields h
    split
    · exact .inl rfl
    · exact .inl rfl
  | tombstone h => exact tombstoneCapture_operations h
  | mediaFact h => exact .inl h.sameOperations
  | book h => exact .inl rfl
  | acknowledge => exact .inl rfl
  | delete h => exact absurd ⟨_, rfl⟩ hdelete

/-- **What a transaction of another lane does to the deletions.** -/
theorem ServiceTx.deletionChange {ε α : Type} {x : Tx Db ε α} (hx : ServiceTx lib x) {v : α}
    (h : x.Yields env db v db') : DeletionChange lib env db db' := by
  cases hx.commits h with
  | lane h => exact .kept h.deletions h.effects h.tasks
  | parsed hparse h =>
    obtain ⟨_, -, _, _, _, _, rfl, -⟩ := DataExport.persistParsed_yields h
    exact .kept rfl rfl rfl
  | reconciled _ h =>
    rcases DataExport.reconcile_yields h with ⟨rfl, -⟩ | ⟨ctx, m, -, hreconciles, -, _, _, _, _, -,
      -, rfl⟩
    · exact .kept rfl rfl rfl
    · obtain ⟨media, raws, revisions, outbox, records, rfl⟩ := hreconciles.same
      exact .kept rfl rfl rfl
  | task h => exact .task h
  | deleted h => exact .deleted (applyNewDeletion_yields h).2.2

/-- What a step of the service does to the operations and the tasks. -/
theorem serviceStep_deletionChange {s : Service} (hs : s.Sound lib) (a : ServiceAction) :
    ∃ env, DeletionChange lib env s.db (serviceStep lib s a).db := by
  rcases serviceStep_cases lib s a with h | ⟨action, env, call, -, -, heffect⟩ |
    ⟨env, ε, α, x, v, hruns, hy⟩
  · rw [h]
    exact ⟨quietEnv 0 0, .kept rfl rfl rfl⟩
  · exact ⟨env, heffect.deletionChange⟩
  · exact ⟨env, (hs.runs hruns).deletionChange hy⟩

/-- **Invariants of the deletions.** What no transaction takes from a database that holds it,
every run from a state with sound programs keeps. -/
theorem deletions_run (lib : Externals) (Inv : Db → Prop)
    (hstep : ∀ env db db', DeletionChange lib env db db' → Inv db → Inv db') {s : Service}
    (hs : s.Sound lib) (hinv : Inv s.db) (actions : List ServiceAction) :
    Inv (run (serviceStep lib) s actions).db := by
  refine (run_invariant (serviceStep lib) (fun _ _ => True) (fun s => s.Sound lib ∧ Inv s.db) ?_
    (guarded_of_forall _ fun _ _ => trivial) ⟨hs, hinv⟩).2
  rintro s a - ⟨hsound, hinv⟩
  obtain ⟨env, hchange⟩ := serviceStep_deletionChange hsound a
  exact ⟨serviceStep_sound a hsound, hstep env _ _ hchange hinv⟩

theorem service_sound (lib : Externals) (actions : List ServiceAction) :
    (run (serviceStep lib) {} actions).Sound lib := by
  refine run_invariant (serviceStep lib) (fun _ _ => True) (fun s => s.Sound lib)
    (fun s a _ hs => serviceStep_sound a hs) (guarded_of_forall _ fun _ _ => trivial) ?_
  exact fun job hjob => absurd hjob (by simp)

end Changes

/-! ## The stored answer -/

theorem DeletionTarget.eq_of_kind_id {a b : DeletionTarget} (hkind : a.kind = b.kind)
    (hid : a.id = b.id) : a = b := by
  cases a with
  | capture => cases b <;> simp_all [DeletionTarget.kind, DeletionTarget.id]
  | connection => cases b <;> simp_all [DeletionTarget.kind, DeletionTarget.id]

/-- The operation is a run of the request that committed. -/
structure DeletionOperation.Ran (op : DeletionOperation) (request : DeletionRequest) : Prop where
  owner : op.userRef = request.userRef
  kind : op.targetKind = request.target.kind
  target : op.targetId = request.target.id
  state : op.state = .complete ∨ op.state = .pendingBlobDeletion

/-- A run of the request is stored with the effects of the result. -/
structure Recorded (request : DeletionRequest) (result : DeletionResult) (db : Db) : Prop where
  id : result.operationId = request.operationId
  operation : ∃ op, db.deletionOperations.lookup request.operationId = some op ∧ op.Ran request
  effects : storedEffects request.operationId db = some result.effects

/-- The plan lists its classes in the order the audit is read in. -/
theorem buildPlan_sorted (request : DeletionRequest) :
    (buildPlan request).insertionSort (fun a b => a.dataClass.rank ≤ b.dataClass.rank) =
      buildPlan request := by
  have hranks : (OwnedDataClass.all.map OwnedDataClass.rank).Pairwise (· ≤ ·) := by decide
  have hplan : ((buildPlan request).map fun e => e.dataClass.rank).Pairwise (· ≤ ·) := by
    rw [← buildPlan_classes request, List.map_map] at hranks
    exact hranks
  exact (List.pairwise_map.mp hplan).insertionSort_eq

theorem mapM_read_rows (operationId : Uuid) (effects : List DeletionEffectCount) :
    (effects.map fun e => e.row operationId).mapM DeletionEffect.read = some effects := by
  induction effects with
  | nil => rfl
  | cons e rest ih => simp [List.mapM_cons, read_row, ih]

/-- What a request under the id of a recorded one is answered. -/
def replayed (request : DeletionRequest) (result : DeletionResult) (request' : DeletionRequest) :
    Except PrivacyDeletionError DeletionResult :=
  if request'.userRef = request.userRef ∧ request'.target = request.target then .ok result
  else .error .operationConflict

theorem Recorded.loadExisting {request request' : DeletionRequest} {result : DeletionResult}
    {db : Db} (h : Recorded request result db) (hid : request'.operationId = request.operationId) :
    loadExisting request' db = some (replayed request result request') := by
  obtain ⟨op, hop, hran⟩ := h.operation
  have hstate : ¬ (op.state ≠ .complete ∧ op.state ≠ .pendingBlobDeletion) := by
    rintro ⟨hcomplete, hpending⟩
    rcases hran.state with hs | hs
    · exact hcomplete hs
    · exact hpending hs
  have hresult : (⟨request.operationId, result.effects⟩ : DeletionResult) = result := by
    rw [← h.id]
  unfold InstagramArchive.loadExisting replayed
  rw [hid, hop, Option.map_some, h.effects]
  simp only [hran.owner, hran.kind, hran.target, if_neg hstate, hresult]
  by_cases hsame : request'.userRef = request.userRef ∧ request'.target = request.target
  · rw [if_pos hsame, if_neg (by simp [hsame.1, hsame.2])]
  · rw [if_neg hsame, if_pos]
    by_contra hnone
    simp only [not_or, not_not] at hnone
    exact hsame ⟨hnone.1.symm, (DeletionTarget.eq_of_kind_id hnone.2.1 hnone.2.2).symm⟩

/-- A request that is answered with a result is recorded. -/
theorem recorded_of_loadExisting {request : DeletionRequest} {result : DeletionResult} {db : Db}
    (h : loadExisting request db = some (.ok result)) : Recorded request result db := by
  unfold loadExisting at h
  obtain ⟨op, hop, h⟩ := Option.map_eq_some_iff.mp h
  split at h
  · cases h
  rename_i hsame
  split at h
  · cases h
  rename_i hstate
  split at h
  · rename_i effects heffects
    cases h
    simp only [not_or, not_not] at hsame
    refine ⟨rfl, ⟨op, hop, hsame.1, hsame.2.1, hsame.2.2, ?_⟩, heffects⟩
    by_contra hnone
    exact hstate (not_or.mp hnone)
  · cases h

/-! ## Nothing takes the answer back -/

/-- A stored operation stays the same run, and its audit stays; audits belong to operations. -/
structure KeepsDeletions (db db' : Db) : Prop where
  operation : ∀ request op, db.deletionOperations.lookup request.operationId = some op →
    op.Ran request →
    ∃ op', db'.deletionOperations.lookup request.operationId = some op' ∧ op'.Ran request
  stored : ∀ id, (db.deletionOperations.lookup id).isSome →
    (db'.deletionOperations.lookup id).isSome
  audit : ∀ id, (db.deletionOperations.lookup id).isSome →
    (db'.deletionEffects.rows.filter fun e => e.operationId = id) =
      db.deletionEffects.rows.filter fun e => e.operationId = id
  audited : ∀ e ∈ db'.deletionEffects, e ∈ db.deletionEffects ∨
    (db'.deletionOperations.lookup e.operationId).isSome

section Keeping

variable {lib : Externals} {env : Env} {db db' : Db}

theorem KeepsDeletions.of_eq (hoperations : db'.deletionOperations = db.deletionOperations)
    (heffects : db'.deletionEffects = db.deletionEffects) : KeepsDeletions db db' := by
  constructor
  case operation =>
    intro request op hop hran
    rw [hoperations]
    exact ⟨op, hop, hran⟩
  case stored =>
    intro id hid
    rwa [hoperations]
  case audit =>
    intro id _
    rw [heffects]
  case audited =>
    intro e he
    rw [heffects] at he
    exact .inl he

/-- An update that makes a run of a request no run of another one. -/
theorem KeepsDeletions.of_update {g : DeletionOperation → DeletionOperation}
    (hlookup : ∀ id, db'.deletionOperations.lookup id = (db.deletionOperations.lookup id).map g)
    (heffects : db'.deletionEffects = db.deletionEffects)
    (hran : ∀ op request, op.Ran request → (g op).Ran request) : KeepsDeletions db db' := by
  constructor
  case operation =>
    intro request op hop h
    rw [hlookup, hop]
    exact ⟨g op, rfl, hran op request h⟩
  case stored =>
    intro id hid
    rw [hlookup, Option.isSome_map]
    exact hid
  case audit =>
    intro id _
    rw [heffects]
  case audited =>
    intro e he
    rw [heffects] at he
    exact .inl he

theorem lookup_finishDeletion (operationId : Uuid) (state : DeletionState) (now : Instant) (db : Db)
    (id : Uuid) : (finishDeletion operationId state now db).deletionOperations.lookup id =
      (db.deletionOperations.lookup id).map fun op =>
        if op.operationId = operationId then
          { op with
            state
            updatedAt := now
            finishedAt := if state = .complete then some now else none }
        else op := by
  simp only [finishDeletion, Table.lookup_update, decide_eq_true_eq]

theorem lookup_pendBlobDeletion (operationId : Uuid) (now : Instant) (db : Db) (id : Uuid) :
    (pendBlobDeletion operationId now db).deletionOperations.lookup id =
      (db.deletionOperations.lookup id).map fun op =>
        if op.operationId = operationId then
          { op with state := .pendingBlobDeletion, updatedAt := now }
        else op := by
  simp only [pendBlobDeletion, Table.lookup_update, decide_eq_true_eq]

theorem lookup_completeOperation (operationId : Uuid) (now : Instant) (db : Db) (id : Uuid) :
    (completeOperation operationId now db).deletionOperations.lookup id =
      (db.deletionOperations.lookup id).map fun op =>
        if (op.operationId = operationId && !awaitsBlob operationId db) = true then
          { op with state := .complete, updatedAt := now, finishedAt := some now }
        else op := by
  simp only [completeOperation, Table.lookup_update]

/-- An update of the state to a final one. -/
theorem DeletionOperation.Ran.update {op op' : DeletionOperation} {request : DeletionRequest}
    {p : Prop} [Decidable p] (h : op.Ran request) (hop : op'.userRef = op.userRef ∧
      op'.targetKind = op.targetKind ∧ op'.targetId = op.targetId)
    (hstate : op'.state = .complete ∨ op'.state = .pendingBlobDeletion) :
    (if p then op' else op).Ran request := by
  split
  · exact ⟨hop.1.trans h.owner, hop.2.1.trans h.kind, hop.2.2.trans h.target, hstate⟩
  · exact h

theorem KeepsDeletions.of_insert {row : DeletionOperation}
    {t : Table DeletionOperation DeletionOperation.operationId}
    (ht : db.deletionOperations.insert? row = some t) (hoperations : db'.deletionOperations = t)
    (heffects : db'.deletionEffects = db.deletionEffects) : KeepsDeletions db db' := by
  subst hoperations
  constructor
  case operation =>
    intro request op hop hran
    exact ⟨op, Table.lookup_insert?_of_some ht hop, hran⟩
  case stored =>
    intro id hid
    obtain ⟨op, hop⟩ := Option.isSome_iff_exists.mp hid
    rw [Table.lookup_insert?_of_some ht hop]
    rfl
  case audit =>
    intro id _
    rw [heffects]
  case audited =>
    intro e he
    rw [heffects] at he
    exact .inl he

theorem KeepsDeletions.trans {a b c : Db} (h : KeepsDeletions a b) (h' : KeepsDeletions b c) :
    KeepsDeletions a c := by
  constructor
  case operation =>
    intro request op hop hran
    obtain ⟨op', hop', hran'⟩ := h.operation request op hop hran
    exact h'.operation request op' hop' hran'
  case stored => exact fun id hid => h'.stored id (h.stored id hid)
  case audit => exact fun id hid => (h'.audit id (h.stored id hid)).trans (h.audit id hid)
  case audited =>
    intro e he
    rcases h'.audited e he with he | hid
    · rcases h.audited e he with he | hid
      · exact .inl he
      · exact .inr (h'.stored _ hid)
    · exact .inr hid

theorem Planned.lookup {request : DeletionRequest} {requestedAt : Instant}
    {operations : Table DeletionOperation DeletionOperation.operationId}
    {effects : Table DeletionEffect DeletionEffect.key}
    (h : Planned request requestedAt operations effects db) :
    operations.lookup request.operationId = some (plannedOperation request requestedAt) := by
  rw [Table.lookup_of_insert? h.1]
  exact if_pos rfl

/-- The operation and the audit of a new request. -/
theorem Planned.keeps {request : DeletionRequest} {requestedAt : Instant}
    {operations : Table DeletionOperation DeletionOperation.operationId}
    {effects : Table DeletionEffect DeletionEffect.key}
    (h : Planned request requestedAt operations effects db) :
    KeepsDeletions db { db with deletionOperations := operations, deletionEffects := effects } := by
  have hnew := h.lookup
  obtain ⟨hoperations, heffects⟩ := h
  have hrows := Table.insertAll?_eq_some heffects
  constructor
  case operation =>
    intro other op hop hran
    exact ⟨op, Table.lookup_insert?_of_some hoperations hop, hran⟩
  case stored =>
    intro id hid
    obtain ⟨op, hop⟩ := Option.isSome_iff_exists.mp hid
    change (operations.lookup id).isSome
    rw [Table.lookup_insert?_of_some hoperations hop]
    rfl
  case audit =>
    intro id hid
    have hne : request.operationId ≠ id := by
      rintro rfl
      obtain ⟨op, hop⟩ := Option.isSome_iff_exists.mp hid
      obtain ⟨hmem, hkey⟩ := Table.lookup_eq_some.mp hop
      exact (Table.insert?_eq_some hoperations).2 op hmem hkey
    have hplan : (((buildPlan request).map fun e => e.row request.operationId).filter
        fun e => e.operationId = id) = [] := by
      rw [List.filter_eq_nil_iff]
      rintro _ he
      obtain ⟨e, -, rfl⟩ := List.mem_map.mp he
      simp [DeletionEffectCount.row, hne]
    change effects.rows.filter _ = _
    rw [hrows, List.filter_append, hplan, List.append_nil]
  case audited =>
    intro e he
    change e ∈ effects.rows at he
    rw [hrows] at he
    rcases List.mem_append.mp he with he | he
    · exact .inl he
    · obtain ⟨count, -, rfl⟩ := List.mem_map.mp he
      refine .inr ?_
      change (operations.lookup request.operationId).isSome
      rw [hnew]
      rfl

theorem Erasure.deletions {request : DeletionRequest} (h : Erasure lib request db db') :
    db'.deletionOperations = db.deletionOperations ∧ db'.deletionEffects = db.deletionEffects := by
  cases h with
  | removal h =>
    rw [h.eq]
    exact ⟨rfl, rfl⟩
  | _ => exact ⟨rfl, rfl⟩

theorem Erases.deletions {request : DeletionRequest} (h : Erases lib request db db') :
    db'.deletionOperations = db.deletionOperations ∧ db'.deletionEffects = db.deletionEffects := by
  refine h.invariant (P := fun d => d.deletionOperations = db.deletionOperations ∧
    d.deletionEffects = db.deletionEffects) ?_ ⟨rfl, rfl⟩
  rintro a b ⟨hoperations, heffects⟩ herasure
  exact ⟨herasure.deletions.1.trans hoperations, herasure.deletions.2.trans heffects⟩

theorem finishDeletion_keeps (operationId : Uuid) {state : DeletionState}
    (hstate : state = .complete ∨ state = .pendingBlobDeletion) (now : Instant) (db : Db) :
    KeepsDeletions db (finishDeletion operationId state now db) :=
  .of_update (lookup_finishDeletion operationId state now db) rfl
    fun _ _ h => h.update ⟨rfl, rfl, rfl⟩ hstate

theorem finalState_cases (pending : Nat) :
    (if pending > 0 then DeletionState.pendingBlobDeletion else .complete) = .complete ∨
      (if pending > 0 then DeletionState.pendingBlobDeletion else .complete) =
        .pendingBlobDeletion := by
  split
  · exact .inr rfl
  · exact .inl rfl

theorem Deletes.keeps {request : DeletionRequest} (h : Deletes lib env request db db') :
    KeepsDeletions db db' := by
  obtain ⟨operations, effects, mid, pending, hplanned, htarget, rfl⟩ := h
  obtain ⟨hoperations, heffects⟩ := (applyTargetRows_erases env _ _ _ htarget).deletions
  exact (hplanned.keeps.trans (.of_eq hoperations heffects)).trans
    (finishDeletion_keeps _ (finalState_cases pending) _ _)

theorem TaskStep.keeps (h : TaskStep env db db') : KeepsDeletions db db' := by
  cases h with
  | kept operationId =>
    exact .of_update (lookup_pendBlobDeletion operationId env.now db) rfl
      fun _ _ h => h.update ⟨rfl, rfl, rfl⟩ (.inr rfl)
  | completed taskId => exact .of_eq rfl rfl
  | finished operationId =>
    exact .of_update (lookup_completeOperation operationId env.now db) rfl
      fun _ _ h => h.update ⟨rfl, rfl, rfl⟩ (.inl rfl)

theorem DeletionChange.keeps (h : DeletionChange lib env db db') : KeepsDeletions db db' := by
  cases h with
  | kept hoperations heffects _ => exact .of_eq hoperations heffects
  | tombstoned _ ht hoperations heffects _ => exact .of_insert ht hoperations heffects
  | task h => exact h.keeps
  | deleted h => exact h.keeps

theorem KeepsDeletions.recorded {request : DeletionRequest} {result : DeletionResult}
    (h : KeepsDeletions db db') (hr : Recorded request result db) : Recorded request result db' := by
  obtain ⟨hid, ⟨op, hop, hran⟩, heffects⟩ := hr
  refine ⟨hid, h.operation request op hop hran, ?_⟩
  unfold storedEffects
  rw [h.audit _ (by rw [hop]; rfl)]
  exact heffects

/-- Every row of the audit belongs to a stored operation. -/
def Audited (db : Db) : Prop :=
  ∀ e ∈ db.deletionEffects, (db.deletionOperations.lookup e.operationId).isSome

theorem KeepsDeletions.auditedDb (h : KeepsDeletions db db') (ha : Audited db) : Audited db' := by
  intro e he
  rcases h.audited e he with he | hid
  · exact h.stored _ (ha e he)
  · exact hid

/-- A new deletion is recorded with its plan. -/
theorem Deletes.recorded {request : DeletionRequest} (ha : Audited db)
    (h : Deletes lib env request db db') :
    Recorded request ⟨request.operationId, buildPlan request⟩ db' := by
  obtain ⟨operations, effects, mid, pending, hplanned, htarget, rfl⟩ := h
  obtain ⟨hmid, hmidEffects⟩ := (applyTargetRows_erases env _ _ _ htarget).deletions
  have hlookup := hplanned.lookup
  obtain ⟨hoperations, heffects⟩ := hplanned
  constructor
  case id => rfl
  case operation =>
    rw [lookup_finishDeletion, hmid, hlookup, Option.map_some,
      if_pos (show (plannedOperation request env.now).operationId = request.operationId from rfl)]
    exact ⟨_, rfl, rfl, rfl, rfl, finalState_cases pending⟩
  case effects =>
    have hold : (db.deletionEffects.rows.filter fun e => e.operationId = request.operationId) = [] := by
      rw [List.filter_eq_nil_iff]
      intro e he heq
      obtain ⟨op, hop⟩ := Option.isSome_iff_exists.mp (ha e he)
      obtain ⟨hmem, hkey⟩ := Table.lookup_eq_some.mp hop
      exact (Table.insert?_eq_some hoperations).2 op hmem (hkey.trans (of_decide_eq_true heq))
    have hrows : ((finishDeletion request.operationId
        (if pending > 0 then .pendingBlobDeletion else .complete) env.now mid).deletionEffects.rows.filter
          fun e => e.operationId = request.operationId) =
        (buildPlan request).map fun e => e.row request.operationId := by
      change mid.deletionEffects.rows.filter _ = _
      rw [hmidEffects, Table.insertAll?_eq_some heffects, List.filter_append, hold, List.nil_append,
        List.filter_eq_self]
      rintro _ he
      obtain ⟨e, -, rfl⟩ := List.mem_map.mp he
      simp [DeletionEffectCount.row]
    unfold storedEffects
    rw [hrows, mapM_read_rows, Option.map_some, buildPlan_sorted]

/-- An applied request is recorded, whether it deleted or was answered from an earlier run. -/
theorem applyDeletion_recorded {request : DeletionRequest} {result : DeletionResult}
    (ha : Audited db) (h : (applyDeletion lib request).Yields env db result db') :
    Recorded request result db' := by
  rcases applyDeletion_yields h with ⟨hload, rfl⟩ | ⟨-, -, rfl, hdeletes⟩
  · exact recorded_of_loadExisting hload
  · exact Deletes.recorded ha hdeletes

/-- A request under the id of a recorded one ends at its read. -/
theorem Recorded.run_applyRequest {request request' : DeletionRequest} {result : DeletionResult}
    (h : Recorded request result db) (hid : request'.operationId = request.operationId)
    {turns : Nat → Env × (Empty → Unit)} {n : Nat} (hconnected : (turns n).1.fault 0 = false) :
    (applyRequest lib request').run turns n db = (replayed request result request', db, []) := by
  unfold applyRequest
  rw [Script.run_read, hconnected, h.loadExisting hid]
  cases hreplayed : replayed request result request' <;> rfl

end Keeping

/-! ## Replay -/

/-- **A deletion request is answered once and for all.** Once a request was applied, in any state
the service reached and whatever the service did since, every request under its operation id ends
without a write: with the same operation and the same effects in the same order if it has the
owner and the target of the first, and with a conflict otherwise. -/
theorem deletion_replays (lib : Externals) (before : List ServiceAction) (a : ServiceAction)
    (after : List ServiceAction) (env : Env) (request request' : DeletionRequest)
    (result : DeletionResult)
    (happlied : (applyDeletion lib request).Yields env (run (serviceStep lib) {} before).db result
      (run (serviceStep lib) {} (before ++ [a])).db)
    (hid : request'.operationId = request.operationId) (turns : Nat → Env × (Empty → Unit)) (n : Nat)
    (hconnected : (turns n).1.fault 0 = false) :
    (applyRequest lib request').run turns n (run (serviceStep lib) {} (before ++ a :: after)).db =
      (replayed request result request', (run (serviceStep lib) {} (before ++ a :: after)).db, []) := by
  have haudited : Audited (run (serviceStep lib) {} before).db :=
    deletions_run lib Audited (fun _ _ _ hchange => hchange.keeps.auditedDb) (service_sound lib [])
      (fun e he => absurd he List.not_mem_nil) before
  have hlast : Recorded request result (run (serviceStep lib) {} (before ++ a :: after)).db := by
    rw [List.append_cons, run_append]
    exact deletions_run lib (Recorded request result) (fun _ _ _ hchange => hchange.keeps.recorded)
      (service_sound lib _) (applyDeletion_recorded haudited happlied) after
  exact hlast.run_applyRequest hid hconnected

/-- A capture of user 1. -/
def oneCapture : List ServiceAction :=
  [.archive (.submit (quietEnv 10 100)
    ⟨1, "https://www.instagram.com/p/A/", 5, .iosShareExtension, none, none⟩)]

/-- User 1 deletes it. -/
def captureDeletion : DeletionRequest := ⟨8, 1, .capture 100⟩

theorem serviceStep_delete (lib : Externals) (s : Service) (env : Env) (request : DeletionRequest) :
    (serviceStep lib s (.archive (.delete env request))).db =
      ((applyDeletion lib request).exec env s.db).2 := rfl

/-- The deletion is sent again after its capture is gone and another one is there. -/
theorem deletion_replays_captureDeletion :
    (applyRequest reference captureDeletion).run (fun _ => (quietEnv 90 900, Empty.rec)) 0
        (run (serviceStep reference) {} (oneCapture ++
          .archive (.delete (quietEnv 20 200) captureDeletion) :: oneCapture)).db =
      (.ok ⟨8, buildPlan captureDeletion⟩,
        (run (serviceStep reference) {} (oneCapture ++
          .archive (.delete (quietEnv 20 200) captureDeletion) :: oneCapture)).db, []) := by
  have happlied : ((applyDeletion reference captureDeletion).exec (quietEnv 20 200)
      (run (serviceStep reference) {} oneCapture).db).1 = .ok ⟨8, buildPlan captureDeletion⟩ := by
    decide +kernel
  have hyields : (applyDeletion reference captureDeletion).Yields (quietEnv 20 200)
      (run (serviceStep reference) {} oneCapture).db ⟨8, buildPlan captureDeletion⟩
      (run (serviceStep reference) {}
        (oneCapture ++ [.archive (.delete (quietEnv 20 200) captureDeletion)])).db := by
    rw [run_concat, serviceStep_delete]
    exact exec_yields happlied
  have hreplay := deletion_replays reference oneCapture
    (.archive (.delete (quietEnv 20 200) captureDeletion)) oneCapture (quietEnv 20 200)
    captureDeletion captureDeletion ⟨8, buildPlan captureDeletion⟩ hyields rfl
    (fun _ => (quietEnv 90 900, Empty.rec)) 0 rfl
  rwa [replayed, if_pos ⟨rfl, rfl⟩] at hreplay

end InstagramArchive

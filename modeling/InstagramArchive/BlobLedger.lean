import InstagramArchive.DeletionReplay

/-!
# The ledger of stored objects to erase

A deletion schedules one task for each stored object it leaves without a row, and stays pending
while it has scheduled any. `Counted` says that a deletion which reports no task has scheduled
none, and `BlobLedger` is what the operations and the tasks hold in every state the service
reaches: an operation is only called complete when no object of it is left to erase.
-/

namespace InstagramArchive

open Relational Relational.Tx

/-! ## Deletions that schedule nothing -/

/-- The tasks of stored objects stay. -/
def SameTasks (db db' : Db) : Prop := db'.blobDeletionTasks = db.blobDeletionTasks

instance : IsPreorder Db SameTasks where
  refl _ := rfl
  trans _ _ _ h h' := Eq.trans h' h

/-- A step of a deletion that counts no task leaves the tasks alone. -/
def Counted (x : DeletionTx Nat) : Prop :=
  ∀ env db n db', x.Yields env db n db' → n = 0 → SameTasks db db'

/-- A step of a deletion that counts at least one task. -/
def Counting (x : DeletionTx Nat) : Prop := ∀ env db n db', x.Yields env db n db' → n ≠ 0

section Counts

variable {α : Type}

theorem Counted.pure (n : Nat) : Counted (Pure.pure n) := by
  intro env db m db' h _
  obtain ⟨-, rfl⟩ := yields_pure.mp h
  rfl

theorem Counted.bind {x : DeletionTx α} {f : α → DeletionTx Nat} (hx : x.Respects SameTasks)
    (hf : ∀ a, Counted (f a)) : Counted (x >>= f) := by
  intro env db n db' h hn
  obtain ⟨a, m, h1, h2⟩ := h.bind
  exact (hf a env m n db' h2 hn).trans (hx env db a m h1)

/-- The sum of two counts. -/
theorem Counted.add {x y : DeletionTx Nat} (hx : Counted x) (hy : Counted y) :
    Counted (x >>= fun a => y >>= fun b => Pure.pure (a + b)) := by
  intro env db n db' h hn
  obtain ⟨a, m, h1, h⟩ := h.bind
  obtain ⟨b, m', h2, h⟩ := h.bind
  obtain ⟨rfl, rfl⟩ := yields_pure.mp h
  exact (hy env m b m' h2 (by omega)).trans (hx env db a m h1 (by omega))

theorem Counting.counted {x : DeletionTx Nat} (h : Counting x) : Counted x :=
  fun env db n db' hy hn => absurd hn (h env db n db' hy)

theorem Counting.bind {x : DeletionTx α} {f : α → DeletionTx Nat} (hf : ∀ a, Counting (f a)) :
    Counting (x >>= f) := by
  intro env db n db' h
  obtain ⟨a, m, -, h2⟩ := h.bind
  exact hf a env m n db' h2

theorem Counting.succ (n : Nat) : Counting (Pure.pure (n + 1)) := by
  intro env db m db' h
  obtain ⟨rfl, -⟩ := yields_pure.mp h
  omega

end Counts

section Statements

variable {lib : Externals} {request : DeletionRequest} {operationId : Uuid}

theorem eraseRaw_counted (raws : List RawRecord) : Counted (eraseRaw operationId raws) := by
  induction raws with
  | nil => exact .pure 0
  | cons raw rest ih =>
    refine .bind (.query _) fun retained => ?_
    cases retained with
    | true => exact ih
    | false =>
      refine Counting.counted ?_
      exact .bind fun _ => .bind fun _ => .bind fun pending => .succ pending

theorem eraseMediaRows_sameTasks (mediaId : Uuid) :
    (eraseMediaRows mediaId).Respects SameTasks := by
  refine .bind (.execute fun _ => rfl) fun _ => ?_
  exact .bind (.deleteFrom fun _ _ => rfl) fun _ => .deleteFrom fun _ _ => rfl

theorem eraseMedia_counted (mediaId : Uuid) {clear : Db → Db}
    (hclear : ∀ db, SameTasks db (clear db)) :
    Counted (eraseMedia operationId mediaId clear) := by
  refine .bind (.query _) fun blob => ?_
  refine .bind (.query _) fun raws => ?_
  refine .bind (.execute hclear) fun _ => ?_
  refine .bind (eraseMediaRows_sameTasks mediaId) fun _ => ?_
  cases blob with
  | none => exact eraseRaw_counted _
  | some blob =>
    refine Counting.counted ?_
    exact .bind fun _ => .bind fun pending => .succ pending

theorem insertLocalRemoval_sameTasks (row : LocalSourceRemoval) :
    (insertLocalRemoval row).Respects SameTasks :=
  .bind (.insertUnless fun _ _ => rfl) fun _ => .pure _

theorem endCaptureSource_sameTasks (capture : Capture) :
    (endCaptureSource lib request capture).Respects SameTasks := by
  refine .bind .nowUtc fun removedAt => ?_
  refine .bind (.mapError ?_) fun _ => ?_
  · intro env db eventId db' h
    obtain ⟨_, _, -, -, happ⟩ := appendRemovalFact_yields h
    rw [happ.eq]
    rfl
  exact .bind (.execute fun _ => rfl) fun _ => insertLocalRemoval_sameTasks _

theorem applyCaptureRows_counted (captureId : Uuid) :
    Counted (applyCaptureRows lib request captureId) := by
  refine .bind (.fetchOne _ _) fun capture => ?_
  refine .bind (.query _) fun held => ?_
  have hrest : Counted (eraseCaptureRows captureId >>= fun _ =>
      eraseUnheldMedia request.operationId capture.mediaId) := by
    refine .bind (.bind (.execute fun _ => rfl) fun _ => .deleteFrom fun _ _ => rfl) fun _ => ?_
    cases capture.mediaId with
    | none => exact .pure 0
    | some mediaId =>
      refine .bind (.query _) fun independent => ?_
      cases independent with
      | true => exact .pure 0
      | false => exact eraseMedia_counted mediaId fun _ => rfl
  cases held with
  | true => exact hrest
  | false => exact .bind (endCaptureSource_sameTasks capture) fun _ => hrest

theorem endConnectionSource_counted (m : Media) :
    Counted (endConnectionSource lib request m) := by
  refine .bind .nowUtc fun removedAt => ?_
  refine .bind (.mapError ?_) fun _ => ?_
  · intro env db eventId db' h
    rw [(appendSourceRemovalFact_yields h).eq]
    rfl
  refine .bind (.execute fun _ => rfl) fun _ => ?_
  exact .bind (insertLocalRemoval_sameTasks _) fun _ => eraseMedia_counted m.mediaId fun _ => rfl

theorem eraseConnectionMedia_counted (rows : List Media) :
    Counted (eraseConnectionMedia lib request rows) := by
  induction rows with
  | nil => exact .pure 0
  | cons m rest ih =>
    refine .bind (.query _) fun held => ?_
    cases held with
    | true =>
      refine .bind .now fun now => ?_
      exact .bind (.execute fun _ => rfl) fun _ => ih
    | false => exact .add (endConnectionSource_counted m) ih

theorem eraseSyncRows_sameTasks (accountId : Uuid) :
    (eraseSyncRows accountId).Respects SameTasks := by
  refine .bind (.execute fun _ => rfl) fun _ => ?_
  exact .bind (.execute fun _ => rfl) fun _ => .deleteFrom fun _ _ => rfl

theorem eraseConnectionRaws_counted (rawIds : List Uuid) :
    Counted (eraseConnectionRaws operationId rawIds) := by
  induction rawIds with
  | nil => exact .pure 0
  | cons rawId rest ih =>
    refine .bind (.query _) fun found => ?_
    cases found with
    | none => exact ih
    | some raw =>
      refine Counting.counted ?_
      exact .bind fun _ => .bind fun _ => .bind fun pending => .succ pending

theorem deleteAccount_sameTasks (accountId : Uuid) :
    (deleteAccount accountId).Respects SameTasks := .deleteFrom fun _ _ => rfl

theorem applyConnectionRows_counted (accountId : Uuid) :
    Counted (applyConnectionRows lib request accountId) := by
  intro env db n db' h hn
  obtain ⟨rawIds, _, h1, h⟩ := h.bind
  obtain ⟨-, rfl⟩ := h1.query
  obtain ⟨rows, _, h1, h⟩ := h.bind
  obtain ⟨-, rfl⟩ := h1.query
  obtain ⟨pending, m, hmedia, h⟩ := h.bind
  obtain ⟨_, m1, hsync, h⟩ := h.bind
  obtain ⟨_, _, h1, h⟩ := h.bind
  obtain rfl := h1.execute
  obtain ⟨more, m2, hraws, h⟩ := h.bind
  obtain ⟨_, m3, haccount, h⟩ := h.bind
  obtain ⟨rfl, rfl⟩ := yields_pure.mp h
  have hmedia := eraseConnectionMedia_counted rows env _ _ _ hmedia (by omega)
  have hsync : SameTasks m m1 := eraseSyncRows_sameTasks accountId env _ _ _ hsync
  have hraws : SameTasks (clearAccount accountId m1) m2 :=
    eraseConnectionRaws_counted rawIds env _ _ _ hraws (by omega)
  have haccount : SameTasks m2 m3 := deleteAccount_sameTasks accountId env _ _ _ haccount
  exact haccount.trans (hraws.trans (hsync.trans hmedia))

theorem applyTargetRows_counted : Counted (applyTargetRows lib request) := by
  unfold applyTargetRows
  split
  · exact applyCaptureRows_counted _
  · exact applyConnectionRows_counted _

end Statements

/-! ## The ledger -/

/-- What the operations and the tasks of stored objects hold. An operation whose objects others
had scheduled first is pending without a task of its own. -/
structure BlobLedger (db : Db) : Prop where
  final : ∀ op ∈ db.deletionOperations, op.state = .complete ∨ op.state = .pendingBlobDeletion
  settled : ∀ op ∈ db.deletionOperations, op.state = .complete →
    ∀ t ∈ db.blobDeletionTasks, t.operationId = some op.operationId → t.complete = true
  owned : ∀ t ∈ db.blobDeletionTasks, ∃ id, t.operationId = some id ∧
    (db.deletionOperations.lookup id).isSome
  objects : ∀ t ∈ db.blobDeletionTasks, ∀ t' ∈ db.blobDeletionTasks,
    t.blob.blobRef = t'.blob.blobRef → t.blob.contentHash = t'.blob.contentHash → t = t'

section Ledger

variable {lib : Externals} {env : Env} {db db' : Db}

/-- The operation of a task. -/
theorem BlobLedger.operation (h : BlobLedger db) {t : BlobDeletionTask} {id : Uuid}
    (ht : t ∈ db.blobDeletionTasks) (hid : t.operationId = some id) :
    ∃ op, db.deletionOperations.lookup id = some op := by
  obtain ⟨id', hid', hsome⟩ := h.owned t ht
  rw [Option.some.inj (hid.symm.trans hid')]
  exact Option.isSome_iff_exists.mp hsome

theorem awaitsBlob_eq_false {operationId : Uuid} : awaitsBlob operationId db = false ↔
    ∀ t ∈ db.blobDeletionTasks, t.operationId = some operationId → t.complete = true := by
  rw [awaitsBlob, List.any_eq_false]
  simp [Table.mem_rows]

theorem mem_pendBlobDeletion {operationId : Uuid} {now : Instant} {op : DeletionOperation} :
    op ∈ (pendBlobDeletion operationId now db).deletionOperations ↔
      (op ∈ db.deletionOperations ∧ op.operationId ≠ operationId) ∨
        ∃ old ∈ db.deletionOperations, old.operationId = operationId ∧
          op = { old with state := .pendingBlobDeletion, updatedAt := now } := by
  simp only [pendBlobDeletion, Table.mem_update_iff, decide_eq_true_eq, decide_eq_false_iff_not,
    ne_eq]

theorem mem_completeTask {taskId : Uuid} {t : BlobDeletionTask} :
    t ∈ (completeTask taskId db).blobDeletionTasks ↔ ∃ old ∈ db.blobDeletionTasks,
      t = if old.taskId = taskId then { old with complete := true } else old := by
  simp only [completeTask, Table.mem_update, decide_eq_true_eq]

theorem mem_completeOperation {operationId : Uuid} {now : Instant} {op : DeletionOperation} :
    op ∈ (completeOperation operationId now db).deletionOperations ↔
      (op ∈ db.deletionOperations ∧
          (op.operationId = operationId && !awaitsBlob operationId db) = false) ∨
        ∃ old ∈ db.deletionOperations,
          (old.operationId = operationId && !awaitsBlob operationId db) = true ∧
          op = { old with state := .complete, updatedAt := now, finishedAt := some now } := by
  simp only [completeOperation, Table.mem_update_iff]

theorem mem_finishDeletion {operationId : Uuid} {state : DeletionState} {now : Instant}
    {op : DeletionOperation} :
    op ∈ (finishDeletion operationId state now db).deletionOperations ↔
      (op ∈ db.deletionOperations ∧ op.operationId ≠ operationId) ∨
        ∃ old ∈ db.deletionOperations, old.operationId = operationId ∧
          op = { old with
            state
            updatedAt := now
            finishedAt := if state = .complete then some now else none } := by
  simp only [finishDeletion, Table.mem_update_iff, decide_eq_true_eq, decide_eq_false_iff_not,
    ne_eq]

theorem BlobLedger.of_eq (h : BlobLedger db)
    (hoperations : db'.deletionOperations = db.deletionOperations)
    (htasks : db'.blobDeletionTasks = db.blobDeletionTasks) : BlobLedger db' := by
  obtain ⟨hfinal, hsettled, howned, hobjects⟩ := h
  rw [← hoperations] at hfinal hsettled howned
  rw [← htasks] at hsettled howned hobjects
  exact ⟨hfinal, hsettled, howned, hobjects⟩

/-- A complete operation nobody stored before has no task. -/
theorem BlobLedger.of_insert (h : BlobLedger db) {row : DeletionOperation}
    {t : Table DeletionOperation DeletionOperation.operationId} (hstate : row.state = .complete)
    (ht : db.deletionOperations.insert? row = some t) :
    BlobLedger { db with deletionOperations := t } := by
  constructor
  case final =>
    intro op hop
    rcases (Table.mem_of_insert? ht op).mp hop with hop | rfl
    · exact h.final op hop
    · exact .inl hstate
  case settled =>
    intro op hop hcomplete task htask hid
    rcases (Table.mem_of_insert? ht op).mp hop with hop | rfl
    · exact h.settled op hop hcomplete task htask hid
    · obtain ⟨old, hold⟩ := h.operation htask hid
      obtain ⟨hmem, hkey⟩ := Table.lookup_eq_some.mp hold
      exact absurd hkey ((Table.insert?_eq_some ht).2 old hmem)
  case owned =>
    intro task htask
    obtain ⟨id, hid, hsome⟩ := h.owned task htask
    obtain ⟨old, hold⟩ := Option.isSome_iff_exists.mp hsome
    refine ⟨id, hid, ?_⟩
    change (t.lookup id).isSome
    rw [Table.lookup_insert?_of_some ht hold]
    rfl
  case objects => exact h.objects

/-- The booking of a worker. -/
theorem TaskStep.ledger (hstep : TaskStep env db db') (h : BlobLedger db) : BlobLedger db' := by
  cases hstep with
  | kept operationId =>
    constructor
    case final =>
      intro op hop
      rcases mem_pendBlobDeletion.mp hop with ⟨hop, -⟩ | ⟨old, hold, -, rfl⟩
      · exact h.final op hop
      · exact .inr rfl
    case settled =>
      intro op hop hcomplete
      rcases mem_pendBlobDeletion.mp hop with ⟨hop, -⟩ | ⟨old, hold, -, rfl⟩
      · exact h.settled op hop hcomplete
      · cases hcomplete
    case owned =>
      intro t ht
      obtain ⟨id, hid, hsome⟩ := h.owned t ht
      refine ⟨id, hid, ?_⟩
      rw [lookup_pendBlobDeletion, Option.isSome_map]
      exact hsome
    case objects => exact h.objects
  | completed taskId =>
    constructor
    case final => exact h.final
    case settled =>
      intro op hop hcomplete t ht hid
      obtain ⟨old, hmem, rfl⟩ := mem_completeTask.mp ht
      by_cases hkey : old.taskId = taskId
      · rw [if_pos hkey]
      · rw [if_neg hkey] at hid ⊢
        exact h.settled op hop hcomplete old hmem hid
    case owned =>
      intro t ht
      obtain ⟨old, hmem, rfl⟩ := mem_completeTask.mp ht
      split
      · exact h.owned old hmem
      · exact h.owned old hmem
    case objects =>
      intro t ht t' ht' href hhash
      obtain ⟨old, hmem, rfl⟩ := mem_completeTask.mp ht
      obtain ⟨old', hmem', rfl⟩ := mem_completeTask.mp ht'
      have hblob : ∀ b : BlobDeletionTask,
          (if b.taskId = taskId then { b with complete := true } else b).blob = b.blob := by
        intro b
        split
        · rfl
        · rfl
      rw [hblob, hblob] at href hhash
      rw [h.objects old hmem old' hmem' href hhash]
  | finished operationId =>
    constructor
    case final =>
      intro op hop
      rcases mem_completeOperation.mp hop with ⟨hop, -⟩ | ⟨old, hold, -, rfl⟩
      · exact h.final op hop
      · exact .inl rfl
    case settled =>
      intro op hop hcomplete
      rcases mem_completeOperation.mp hop with ⟨hop, -⟩ | ⟨old, hold, hp, rfl⟩
      · exact h.settled op hop hcomplete
      · simp only [Bool.and_eq_true, decide_eq_true_eq, Bool.not_eq_true'] at hp
        rw [← hp.1] at hp
        exact awaitsBlob_eq_false.mp hp.2
    case owned =>
      intro t ht
      obtain ⟨id, hid, hsome⟩ := h.owned t ht
      refine ⟨id, hid, ?_⟩
      rw [lookup_completeOperation, Option.isSome_map]
      exact hsome
    case objects => exact h.objects

/-- What the statements of a deletion do to the tasks: they add open tasks of the operation for
objects that have none. -/
structure Schedules (operationId : Uuid) (db db' : Db) : Prop where
  tasks : ∀ t ∈ db'.blobDeletionTasks, t ∈ db.blobDeletionTasks ∨ t.operationId = some operationId
  objects : (∀ t ∈ db.blobDeletionTasks, ∀ t' ∈ db.blobDeletionTasks,
      t.blob.blobRef = t'.blob.blobRef → t.blob.contentHash = t'.blob.contentHash → t = t') →
    ∀ t ∈ db'.blobDeletionTasks, ∀ t' ∈ db'.blobDeletionTasks,
      t.blob.blobRef = t'.blob.blobRef → t.blob.contentHash = t'.blob.contentHash → t = t'

instance (operationId : Uuid) : IsPreorder Db (Schedules operationId) where
  refl _ := ⟨fun _ => .inl, fun h => h⟩
  trans _ _ _ h h' := by
    refine ⟨fun t ht => ?_, fun hobjects => h'.objects (h.objects hobjects)⟩
    rcases h'.tasks t ht with ht | hid
    · exact h.tasks t ht
    · exact .inr hid

theorem Schedules.of_eq {operationId : Uuid} (h : SameTasks db db') :
    Schedules operationId db db' := by
  constructor
  case tasks =>
    intro t ht
    rw [h] at ht
    exact .inl ht
  case objects =>
    intro hobjects
    rw [h]
    exact hobjects

theorem Erasure.schedules {request : DeletionRequest} (h : Erasure lib request db db') :
    Schedules request.operationId db db' := by
  cases h with
  | blobTask hoperation hopen hnew ht =>
    constructor
    case tasks =>
      intro t hmem
      rcases (Table.mem_of_insert? ht t).mp hmem with hmem | rfl
      · exact .inl hmem
      · exact .inr hoperation
    case objects =>
      intro hobjects t hmem t' hmem' href hhash
      rcases (Table.mem_of_insert? ht t).mp hmem with hmem | rfl
      · rcases (Table.mem_of_insert? ht t').mp hmem' with hmem' | rfl
        · exact hobjects t hmem t' hmem' href hhash
        · exact absurd ⟨href, hhash⟩ (hnew t hmem)
      · rcases (Table.mem_of_insert? ht t').mp hmem' with hmem' | rfl
        · exact absurd ⟨href.symm, hhash.symm⟩ (hnew t' hmem')
        · rfl
  | removal h =>
    refine .of_eq ?_
    rw [h.eq]
    rfl
  | _ => exact .of_eq rfl

theorem Deletes.ledger {request : DeletionRequest} (hdeletes : Deletes lib env request db db')
    (h : BlobLedger db) : BlobLedger db' := by
  obtain ⟨operations, effects, mid, pending, hplanned, htarget, rfl⟩ := hdeletes
  have hlookup := hplanned.lookup
  obtain ⟨hoperations, -⟩ := hplanned
  have hmid := (applyTargetRows_erases env _ _ _ htarget).deletions.1
  have hschedules : Schedules request.operationId
      { db with deletionOperations := operations, deletionEffects := effects } mid :=
    (applyTargetRows_erases env _ _ _ htarget).rel fun _ _ => Erasure.schedules
  have hfresh : ∀ t ∈ db.blobDeletionTasks, t.operationId ≠ some request.operationId := by
    intro t ht hid
    obtain ⟨old, hold⟩ := h.operation ht hid
    obtain ⟨hmem, hkey⟩ := Table.lookup_eq_some.mp hold
    exact (Table.insert?_eq_some hoperations).2 old hmem hkey
  have hop : ∀ op ∈ mid.deletionOperations, op.operationId ≠ request.operationId →
      op ∈ db.deletionOperations := by
    intro op hop hne
    rw [hmid] at hop
    rcases (Table.mem_of_insert? hoperations op).mp hop with hop | rfl
    · exact hop
    · exact absurd rfl hne
  constructor
  case final =>
    intro op hmem
    rcases mem_finishDeletion.mp hmem with ⟨hmem, hne⟩ | ⟨old, -, -, rfl⟩
    · exact h.final op (hop op hmem hne)
    · exact finalState_cases pending
  case settled =>
    intro op hmem hcomplete t ht hid
    rcases mem_finishDeletion.mp hmem with ⟨hmem, hne⟩ | ⟨old, -, hid', rfl⟩
    · rcases hschedules.tasks t ht with ht | hreq
      · exact h.settled op (hop op hmem hne) hcomplete t ht hid
      · exact absurd (Option.some.inj (hid.symm.trans hreq)) hne
    -- The operation is complete: it scheduled nothing, and nothing was scheduled for it before.
    · have hpending : pending = 0 := by
        by_contra hpos
        simp only [gt_iff_lt, Nat.pos_of_ne_zero hpos, if_true] at hcomplete
        cases hcomplete
      have hcounted := applyTargetRows_counted env _ _ _ htarget hpending
      have hsame : mid.blobDeletionTasks = db.blobDeletionTasks := hcounted
      change t ∈ mid.blobDeletionTasks at ht
      rw [hsame] at ht
      change t.operationId = some old.operationId at hid
      rw [hid'] at hid
      exact absurd hid (hfresh t ht)
  case owned =>
    intro t ht
    rcases hschedules.tasks t ht with ht | hreq
    · obtain ⟨id, hid, hsome⟩ := h.owned t ht
      obtain ⟨old, hold⟩ := Option.isSome_iff_exists.mp hsome
      refine ⟨id, hid, ?_⟩
      rw [lookup_finishDeletion, Option.isSome_map, hmid]
      change (operations.lookup id).isSome
      rw [Table.lookup_insert?_of_some hoperations hold]
      rfl
    · refine ⟨request.operationId, hreq, ?_⟩
      rw [lookup_finishDeletion, Option.isSome_map, hmid]
      change (operations.lookup request.operationId).isSome
      rw [hlookup]
      rfl
  case objects => exact hschedules.objects h.objects

theorem DeletionChange.ledger (hchange : DeletionChange lib env db db') (h : BlobLedger db) :
    BlobLedger db' := by
  cases hchange with
  | kept hoperations _ htasks => exact h.of_eq hoperations htasks
  | tombstoned hstate ht hoperations _ htasks => exact (h.of_insert hstate ht).of_eq hoperations htasks
  | task hstep => exact hstep.ledger h
  | deleted hdeletes => exact hdeletes.ledger h

/-- **An operation is complete only when nothing of it is left to erase**, every task is one of a
stored operation, and no object is scheduled twice, in every state the service reaches. -/
theorem blob_ledger_run (lib : Externals) (actions : List ServiceAction) :
    BlobLedger (run (serviceStep lib) {} actions).db := by
  refine deletions_run lib BlobLedger (fun _ _ _ hchange => hchange.ledger) (service_sound lib [])
    ⟨?_, ?_, ?_, ?_⟩ actions
  · exact fun op hop => absurd hop List.not_mem_nil
  · exact fun op hop => absurd hop List.not_mem_nil
  · exact fun t ht => absurd ht List.not_mem_nil
  · exact fun t ht => absurd ht List.not_mem_nil

end Ledger

end InstagramArchive

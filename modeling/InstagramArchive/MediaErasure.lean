import InstagramArchive.MediaStore
import InstagramArchive.ReceiptIdempotence
import InstagramArchive.Relational.Simulation
import InstagramArchive.TaskReferences

/-!
# An erasure alone

When nothing else runs and every operation succeeds, a task that is open ends complete exactly
if its reference is the one of a media object, no row names that object and a file under its
digest is the object. The task of a raw response has another reference, so it is refused however
often it is tried, and the operation that scheduled it stays pending.
-/

namespace InstagramArchive

open Relational Relational.Tx Relational.Script

namespace MediaRetention

open DataExport (Disk DiskTx IoError exec_statement)

/-- The file under the digest of the task, if there is one, is the object of the task. -/
structure Matches (store : MediaBlobStore) (blob : StoredBlob) (disk : Disk) : Prop where
  reference : blob.blobRef = mediaRef blob.contentHash
  content : ∀ o, disk.objects.lookup (hexEncode blob.contentHash) = some o →
    o.content.length = blob.byteSize ∧ o.content.length ≤ i64Max ∧
      store.sha256 o.content = blob.contentHash

/-- The disk without the object. -/
def withoutObject (blob : StoredBlob) (disk : Disk) : Disk :=
  { disk with objects := disk.objects.delete fun o => o.name = hexEncode blob.contentHash }

/-- The rows of a task and its operation after an attempt that failed. -/
def failedAttempt (t : BlobDeletionTask) (now : Instant) (db : Db) : Db :=
  match t.operationId with
  | none => db
  | some operationId => pendBlobDeletion operationId now db

/-- The rows of a task and its operation after an attempt that succeeded. -/
def succeededAttempt (t : BlobDeletionTask) (now : Instant) (db : Db) : Db :=
  match t.operationId with
  | none => completeTask t.taskId db
  | some operationId => completeOperation operationId now (completeTask t.taskId db)

section Alone

variable {lib : Externals} {store : MediaBlobStore} {turns : Nat → Env × (Empty → Unit)} {n : Nat}
  {w : MediaWorld} {ε : Type}

theorem onMedia_completes {α : Type} {x : DiskTx α} {a : α} {disk : Disk}
    {Q : Except IoError α → Nat → MediaWorld → Prop}
    (hx : x.exec (turns n).1 w.disk = (.ok a, disk)) (h : Q (.ok a) (n + 1) { w with disk }) :
    (onMedia x : MediaScript ε (Except IoError α)).Completes turns Q n w :=
  .tx (exec_attempt (exec_zoom hx)) h

theorem lookup_withoutObject (blob : StoredBlob) (disk : Disk) :
    (withoutObject blob disk).objects.lookup (hexEncode blob.contentHash) = none := by
  rw [Table.lookup_eq_none]
  intro o ho hname
  have hkept := ((Table.mem_delete _ _ o).mp ho).2
  simp [hname] at hkept

theorem withoutObject_absent {disk : Disk} {blob : StoredBlob}
    (h : disk.objects.lookup (hexEncode blob.contentHash) = none) :
    withoutObject blob disk = disk := by
  have hrows : disk.objects.delete (fun o => o.name = hexEncode blob.contentHash) =
      disk.objects := by
    apply Table.ext
    refine List.filter_eq_self.mpr fun o ho => ?_
    have hne := Table.lookup_eq_none.mp h o ho
    simpa using hne
  unfold withoutObject
  rw [hrows]

/-- **The answer of the object store** when nothing else runs. -/
theorem deleteIfMatches_completes (hq : ∀ n, (turns n).1.Quiet) (blob : StoredBlob) :
    (deleteIfMatches store blob : MediaScript ε (Except BlobDeletionFailure Unit)).Completes turns
      (fun r _ w' => (r = .ok () ∧ Matches store blob w.disk ∧
          w' = { w with disk := withoutObject blob w.disk }) ∨
        (r = .error .digestMismatch ∧ ¬ Matches store blob w.disk ∧ w' = w)) n w := by
  unfold deleteIfMatches
  split
  · rename_i href
    exact .pure (Or.inr ⟨rfl, fun hm => href hm.reference, rfl⟩)
  rename_i href
  have href := not_not.mp href
  refine Completes.bind (R := fun r _ w' =>
    r = .ok (w.disk.objects.lookup (hexEncode blob.contentHash)).isSome ∧ w' = w) ?_ ?_
  · exact onMedia_completes (exec_query (hq n) _ _) ⟨rfl, rfl⟩
  rintro r n w ⟨rfl, rfl⟩
  cases hlookup : w.disk.objects.lookup (hexEncode blob.contentHash) with
  | none =>
    have hm : Matches store blob w.disk := ⟨href, fun o ho => by rw [hlookup] at ho; cases ho⟩
    refine .pure (Or.inl ⟨rfl, hm, ?_⟩)
    rw [withoutObject_absent hlookup]
  | some o =>
    refine Completes.bind (R := fun r _ w' => r = .ok o.content ∧ w' = w) ?_ ?_
    · refine onMedia_completes (exec_statement (hq n) (t := w.disk) ?_) ⟨rfl, rfl⟩
      rw [hlookup]
    rintro r n w ⟨rfl, rfl⟩
    dsimp only
    split
    · rename_i hwrong
      refine .pure (Or.inr ⟨rfl, fun hm => ?_, rfl⟩)
      obtain ⟨hsize, hmax, hdigest⟩ := hm.content o hlookup
      rcases hwrong with h | h | h
      · exact h hsize
      · omega
      · exact h hdigest
    · rename_i hright
      obtain ⟨hsize, hmax, hdigest⟩ : o.content.length = blob.byteSize ∧
          ¬ o.content.length > i64Max ∧ store.sha256 o.content = blob.contentHash := by
        simpa only [not_or, not_not] using hright
      have hm : Matches store blob w.disk := by
        refine ⟨href, fun o' ho' => ?_⟩
        rw [hlookup] at ho'
        cases ho'
        exact ⟨hsize, not_lt.mp hmax, hdigest⟩
      refine Completes.bind (R := fun r _ w' => r = .ok () ∧
        w' = { w with disk := withoutObject blob w.disk }) ?_ ?_
      · refine .emit (exec_attempt (exec_zoom (exec_statement (hq n)
          (t := withoutObject blob w.disk) ?_))) ⟨rfl, rfl⟩
        rw [hlookup]
        rfl
      rintro r n w' ⟨rfl, rfl⟩
      refine Completes.bind (R := fun r _ w' => r = .ok false ∧
        w' = { w with disk := withoutObject blob w.disk }) ?_ ?_
      · refine onMedia_completes (exec_query (hq n) _ _) ⟨?_, rfl⟩
        rw [lookup_withoutObject]
        rfl
      rintro r n w' ⟨rfl, rfl⟩
      exact .pure (Or.inl ⟨rfl, hm, rfl⟩)

/-- What one attempt does when nothing else runs. -/
inductive Attempt (lib : Externals) (store : MediaBlobStore) (t : BlobDeletionTask)
    (w : MediaWorld) : BlobDeletionTaskOutcome → MediaWorld → Prop
  | done (h : t.complete = true) : Attempt lib store t w .complete w
  | erased (h : t.complete = false) (hlive : liveReferences lib t.blob w.db = 0)
      (hmatches : Matches store t.blob w.disk) (now : Instant) :
      Attempt lib store t w .complete
        { db := succeededAttempt t now w.db, disk := withoutObject t.blob w.disk }
  | referenced (h : t.complete = false) (hlive : liveReferences lib t.blob w.db ≠ 0)
      (now : Instant) :
      Attempt lib store t w (.pending .stillReferenced) { w with db := failedAttempt t now w.db }
  | differs (h : t.complete = false) (hmatches : ¬ Matches store t.blob w.disk) (now : Instant) :
      Attempt lib store t w (.pending .digestMismatch) { w with db := failedAttempt t now w.db }

theorem recordBlobFailure_completes (hq : ∀ n, (turns n).1.Quiet) (t : BlobDeletionTask)
    {outcome : BlobDeletionTaskOutcome} {Q : BlobDeletionTaskOutcome → Nat → MediaWorld → Prop}
    (h : ∀ n now, Q outcome n { w with db := failedAttempt t now w.db }) :
    ((recordBlobFailure t.operationId >>= fun _ => pure outcome :
      BlobScript BlobDeletionTaskOutcome).handle MediaWorld.db (fun w db => { w with db })
      Empty.elim (deleteIfMatches store)).Completes turns Q n w := by
  unfold failedAttempt at h
  cases hop : t.operationId with
  | none =>
    rw [hop] at h
    exact h n 0
  | some operationId =>
    rw [hop] at h
    have hx : (Tx.now >>= fun now => execute (pendBlobDeletion operationId now) :
        Tx Db SqlError Unit).exec (turns n).1 w.db =
        (.ok (), pendBlobDeletion operationId (turns n).1.now w.db) := exec_execute (hq n) _ _
    exact .handle_tx hx (h (n + 1) _)

theorem finishOperation_completes (hq : ∀ n, (turns n).1.Quiet) (t : BlobDeletionTask)
    {outcome : BlobDeletionTaskOutcome} {Q : BlobDeletionTaskOutcome → Nat → MediaWorld → Prop}
    {db : Db} (h : ∀ n now, Q outcome n { w with db := succeededAttempt t now db })
    (hw : w.db = completeTask t.taskId db) :
    ((finishOperation t.operationId >>= fun _ => pure outcome :
      BlobScript BlobDeletionTaskOutcome).handle MediaWorld.db (fun w db => { w with db })
      Empty.elim (deleteIfMatches store)).Completes turns Q n w := by
  unfold succeededAttempt at h
  cases hop : t.operationId with
  | none =>
    rw [hop] at h
    have h := h n 0
    rw [← hw] at h
    exact h
  | some operationId =>
    rw [hop, ← hw] at h
    have hx : (Tx.now >>= fun now => execute (completeOperation operationId now) :
        Tx Db SqlError Unit).exec (turns n).1 w.db =
        (.ok (), completeOperation operationId (turns n).1.now w.db) := exec_execute (hq n) _ _
    exact .handle_tx hx (h (n + 1) _)

/-- **One attempt alone.** An open task ends complete exactly when no row names its object, its
reference is that of a media object with its digest, and a file under the digest is that object. -/
theorem eraseTask_completes (hq : ∀ n, (turns n).1.Quiet) {taskId : Uuid} {t : BlobDeletionTask}
    (ht : w.db.blobDeletionTasks.lookup taskId = some t) :
    (eraseTask lib store taskId).Completes turns
      (fun outcome _ w' => Attempt lib store t w outcome w') n w := by
  obtain ⟨-, rfl⟩ := Table.lookup_eq_some.mp ht
  refine .handle_tx (exec_fetchOne (hq n) ht) ?_
  cases hdone : t.complete with
  | true => exact .pure (.done hdone)
  | false =>
    refine .handle_tx (exec_query (hq _) _ _) ?_
    dsimp only
    split
    · rename_i hlive
      exact recordBlobFailure_completes hq t fun _ now => .referenced hdone (by omega) now
    · rename_i hlive
      have hzero : liveReferences lib t.blob w.db = 0 := Nat.eq_zero_of_not_pos hlive
      refine .handle_request (deleteIfMatches_completes hq t.blob) ?_
      rintro r n w' (⟨rfl, hmatches, rfl⟩ | ⟨rfl, hmatches, rfl⟩)
      · refine .handle_tx (exec_execute (hq n) _ _) ?_
        refine finishOperation_completes hq t (fun _ now => ?_) rfl
        exact .erased hdone hzero hmatches now
      · exact recordBlobFailure_completes hq t fun _ now => .differs hdone hmatches now

end Alone

/-! ## The tasks of a deletion -/

/-- The tasks one after the other, each attempt alone. -/
def eraseAll (lib : Externals) (store : MediaBlobStore) (turns : Nat → Nat → Env × (Empty → Unit)) :
    List Uuid → Nat → MediaWorld → MediaWorld
  | [], _, w => w
  | taskId :: rest, n, w =>
    eraseAll lib store turns rest (n + 1) ((eraseTask lib store taskId).run (turns n) 0 w).2.1

/-- The open tasks of an operation are among the rest, and nothing keeps them open. -/
structure Finishing (lib : Externals) (store : MediaBlobStore) (operationId : Uuid)
    (digests : List (List UInt8)) (rest : List Uuid) (w : MediaWorld) : Prop where
  stored : ∀ id ∈ rest, (w.db.blobDeletionTasks.lookup id).isSome
  operation : ∃ op, w.db.deletionOperations.lookup operationId = some op ∧
    (op.state = .complete ∨ awaitsBlob operationId w.db = true)
  left : ∀ t ∈ w.db.blobDeletionTasks, t.operationId = some operationId → t.complete = false →
    t.taskId ∈ rest ∧ liveReferences lib t.blob w.db = 0 ∧ Matches store t.blob w.disk
  files : ∀ digest ∈ digests, w.disk.objects.lookup (hexEncode digest) = none ∨
    ∃ t ∈ w.db.blobDeletionTasks, t.operationId = some operationId ∧ t.complete = false ∧
      t.blob.contentHash = digest

section Finishing

variable {lib : Externals} {store : MediaBlobStore} {operationId : Uuid}
  {digests : List (List UInt8)} {rest : List Uuid} {w w' : MediaWorld} {t : BlobDeletionTask}
  {outcome : BlobDeletionTaskOutcome}

theorem failedAttempt_tasks (t : BlobDeletionTask) (now : Instant) (db : Db) :
    (failedAttempt t now db).blobDeletionTasks = db.blobDeletionTasks := by
  unfold failedAttempt
  split <;> rfl

theorem succeededAttempt_tasks (t : BlobDeletionTask) (now : Instant) (db : Db) :
    (succeededAttempt t now db).blobDeletionTasks = (completeTask t.taskId db).blobDeletionTasks := by
  unfold succeededAttempt
  split <;> rfl

theorem failedAttempt_live (t : BlobDeletionTask) (now : Instant) (db : Db) (blob : StoredBlob) :
    liveReferences lib blob (failedAttempt t now db) = liveReferences lib blob db := by
  unfold failedAttempt
  split <;> rfl

theorem succeededAttempt_live (t : BlobDeletionTask) (now : Instant) (db : Db)
    (blob : StoredBlob) :
    liveReferences lib blob (succeededAttempt t now db) = liveReferences lib blob db := by
  unfold succeededAttempt
  split <;> rfl

theorem lookup_withoutObject_none {blob : StoredBlob} {disk : Disk} {name : String}
    (h : disk.objects.lookup name = none) : (withoutObject blob disk).objects.lookup name = none := by
  rw [Table.lookup_eq_none] at h ⊢
  exact fun o ho => h o ((Table.mem_delete _ _ o).mp ho).1

/-- The removal of an object leaves every other task's object as it is, or removes it too. -/
theorem Matches.withoutObject {blob other : StoredBlob} {disk : Disk}
    (h : Matches store other disk) : Matches store other (withoutObject blob disk) where
  reference := h.reference
  content o ho := by
    obtain ⟨hmem, hname⟩ := Table.lookup_eq_some.mp ho
    have hkept := ((Table.mem_delete _ _ o).mp hmem).1
    exact h.content o (Table.lookup_eq_some.mpr ⟨hkept, hname⟩)

/-- An attempt of a task of another operation, or of none. -/
theorem failedAttempt_operation (hne : t.operationId ≠ some operationId) (now : Instant) (db : Db) :
    (failedAttempt t now db).deletionOperations.lookup operationId =
      db.deletionOperations.lookup operationId := by
  unfold failedAttempt
  split
  · rfl
  · rename_i id hid
    rw [lookup_pendBlobDeletion]
    cases hop : db.deletionOperations.lookup operationId with
    | none => rfl
    | some op =>
      obtain ⟨-, hopid⟩ := Table.lookup_eq_some.mp hop
      rw [Option.map_some, if_neg]
      rw [hopid]
      rintro rfl
      exact hne hid

theorem succeededAttempt_operation (t : BlobDeletionTask) (now : Instant) {db : Db}
    {op : DeletionOperation} (hop : db.deletionOperations.lookup operationId = some op) :
    ∃ op', (succeededAttempt t now db).deletionOperations.lookup operationId = some op' ∧
      (op.state = .complete → op'.state = .complete) ∧
      (t.operationId = some operationId →
        awaitsBlob operationId (completeTask t.taskId db) = false → op'.state = .complete) := by
  have hop' : (completeTask t.taskId db).deletionOperations.lookup operationId = some op := hop
  unfold succeededAttempt
  split
  · rename_i hid
    exact ⟨op, hop', id, fun h => by rw [hid] at h; cases h⟩
  · rename_i id hid
    rw [lookup_completeOperation, hop', Option.map_some]
    refine ⟨_, rfl, fun h => ?_, fun h hawaits => ?_⟩
    · split
      · rfl
      · exact h
    · rw [hid] at h
      cases h
      obtain ⟨-, hopid⟩ := Table.lookup_eq_some.mp hop
      rw [if_pos]
      simp [hopid, hawaits]

theorem awaitsBlob_congr {db db' : Db} (h : db'.blobDeletionTasks = db.blobDeletionTasks) :
    awaitsBlob operationId db' = awaitsBlob operationId db := by
  unfold awaitsBlob
  rw [h]

theorem awaitsBlob_eq_true {db : Db} : awaitsBlob operationId db = true ↔
    ∃ t ∈ db.blobDeletionTasks, t.operationId = some operationId ∧ t.complete = false := by
  rw [awaitsBlob, List.any_eq_true]
  simp [Table.mem_rows]

/-- Another open task stays as it is. -/
theorem mem_completeTask_of_ne {db : Db} {taskId : Uuid} (ht : t ∈ db.blobDeletionTasks)
    (hne : t.taskId ≠ taskId) : t ∈ (completeTask taskId db).blobDeletionTasks :=
  mem_completeTask.mpr ⟨t, ht, by rw [if_neg hne]⟩

/-- A task that is open afterwards is one of the others. -/
theorem open_of_completeTask {db : Db} {taskId : Uuid}
    (ht : t ∈ (completeTask taskId db).blobDeletionTasks) (hopen : t.complete = false) :
    t ∈ db.blobDeletionTasks ∧ t.taskId ≠ taskId := by
  obtain ⟨old, hold, rfl⟩ := mem_completeTask.mp ht
  split at hopen
  · cases hopen
  · rename_i hne
    rw [if_neg hne]
    exact ⟨hold, hne⟩

/-- An attempt that ends its task. -/
theorem Finishing.erased (h : Finishing lib store operationId digests (t.taskId :: rest) w)
    (ht : t ∈ w.db.blobDeletionTasks) (now : Instant) :
    Finishing lib store operationId digests rest
      { db := succeededAttempt t now w.db, disk := withoutObject t.blob w.disk } where
  stored id hid := by
    have hsome := h.stored id (List.mem_cons_of_mem _ hid)
    dsimp only
    rw [succeededAttempt_tasks]
    simpa only [completeTask, Table.lookup_update, Option.isSome_map] using hsome
  operation := by
    obtain ⟨op, hop, hstate⟩ := h.operation
    obtain ⟨op', hop', hkeeps, hends⟩ := succeededAttempt_operation t now hop
    refine ⟨op', hop', ?_⟩
    rw [awaitsBlob_congr (succeededAttempt_tasks t now w.db)]
    rcases hstate with hcomplete | hawaits
    · exact Or.inl (hkeeps hcomplete)
    cases hafter : awaitsBlob operationId (completeTask t.taskId w.db) with
    | true => exact Or.inr rfl
    | false =>
      left
      refine hends ?_ hafter
      obtain ⟨t', ht', hop', hopen⟩ := awaitsBlob_eq_true.mp hawaits
      by_cases hsame : t'.taskId = t.taskId
      · rwa [← Table.eq_of_key_eq ht' ht hsame]
      · have hdone := awaitsBlob_eq_false.mp hafter t' (mem_completeTask_of_ne ht' hsame) hop'
        rw [hopen] at hdone
        cases hdone
  left t' ht' hop' hopen := by
    rw [succeededAttempt_tasks] at ht'
    obtain ⟨hmem, hne⟩ := open_of_completeTask ht' hopen
    obtain ⟨hrest, hlive, hmatches⟩ := h.left t' hmem hop' hopen
    refine ⟨(List.mem_cons.mp hrest).resolve_left hne, ?_, hmatches.withoutObject⟩
    dsimp only
    rw [succeededAttempt_live, hlive]
  files digest hdigest := by
    rcases h.files digest hdigest with hnone | ⟨t', ht', hop', hopen, rfl⟩
    · exact Or.inl (lookup_withoutObject_none hnone)
    · by_cases hsame : t'.taskId = t.taskId
      · left
        rw [Table.eq_of_key_eq ht' ht hsame]
        exact lookup_withoutObject _ _
      · refine Or.inr ⟨t', ?_, hop', hopen, rfl⟩
        dsimp only
        rw [succeededAttempt_tasks]
        exact mem_completeTask_of_ne ht' hsame

/-- An attempt that fails is one of another operation. -/
theorem Finishing.failed (h : Finishing lib store operationId digests (t.taskId :: rest) w)
    (ht : t ∈ w.db.blobDeletionTasks) (hopen : t.complete = false)
    (hfails : ¬ (liveReferences lib t.blob w.db = 0 ∧ Matches store t.blob w.disk))
    (now : Instant) :
    Finishing lib store operationId digests rest { w with db := failedAttempt t now w.db } := by
  have hother : t.operationId ≠ some operationId := fun hop =>
    hfails (h.left t ht hop hopen).2
  constructor
  case stored =>
    dsimp only
    rw [failedAttempt_tasks]
    exact fun id hid => h.stored id (List.mem_cons_of_mem _ hid)
  case operation =>
    dsimp only
    rw [failedAttempt_operation hother, awaitsBlob_congr (failedAttempt_tasks t now w.db)]
    exact h.operation
  case left =>
    dsimp only
    rw [failedAttempt_tasks]
    intro t' ht' hop' hopen'
    obtain ⟨hrest, hlive, hmatches⟩ := h.left t' ht' hop' hopen'
    refine ⟨(List.mem_cons.mp hrest).resolve_left ?_, ?_, hmatches⟩
    · intro hsame
      rw [Table.eq_of_key_eq ht' ht hsame] at hop'
      exact hother hop'
    · rw [failedAttempt_live, hlive]
  case files =>
    dsimp only
    rw [failedAttempt_tasks]
    exact h.files

theorem Finishing.attempt (h : Finishing lib store operationId digests (t.taskId :: rest) w)
    (ht : t ∈ w.db.blobDeletionTasks) (ha : Attempt lib store t w outcome w') :
    Finishing lib store operationId digests rest w' := by
  cases ha with
  | done hdone =>
    refine { h with stored := fun id hid => h.stored id (List.mem_cons_of_mem _ hid), left := ?_ }
    intro t' ht' hop' hopen
    obtain ⟨hrest, hfree⟩ := h.left t' ht' hop' hopen
    refine ⟨(List.mem_cons.mp hrest).resolve_left fun hsame => ?_, hfree⟩
    rw [Table.eq_of_key_eq ht' ht hsame, hdone] at hopen
    cases hopen
  | erased hopen hlive hmatches now => exact h.erased ht now
  | referenced hopen hlive now => exact h.failed ht hopen (fun hall => hlive hall.1) now
  | differs hopen hmatches now => exact h.failed ht hopen (fun hall => hmatches hall.2) now

/-- By induction on the tasks left. -/
theorem Finishing.all {turns : Nat → Nat → Env × (Empty → Unit)}
    (hq : ∀ n m, (turns n m).1.Quiet) (h : Finishing lib store operationId digests rest w)
    (n : Nat) :
    Finishing lib store operationId digests [] (eraseAll lib store turns rest n w) := by
  induction rest generalizing n w with
  | nil => exact h
  | cons taskId rest ih =>
    obtain ⟨t, ht⟩ := Option.isSome_iff_exists.mp (h.stored taskId List.mem_cons_self)
    have hcompletes : (eraseTask lib store taskId).Completes (turns n)
        (fun outcome _ w' => Attempt lib store t w outcome w') 0 w := eraseTask_completes (hq n) ht
    obtain ⟨outcome, -, w', events, hrun, ha⟩ := hcompletes.run
    obtain ⟨hmem, rfl⟩ := Table.lookup_eq_some.mp ht
    have hrest := ih (h.attempt hmem ha) (n + 1)
    unfold eraseAll
    rwa [hrun]

/-- The operation waits for objects, and nothing keeps those of its open tasks: no row names them,
their references are those of media objects, and their files are these objects. -/
structure Finishable (lib : Externals) (store : MediaBlobStore) (operationId : Uuid)
    (rest : List Uuid) (w : MediaWorld) : Prop where
  stored : ∀ id ∈ rest, (w.db.blobDeletionTasks.lookup id).isSome
  operation : (w.db.deletionOperations.lookup operationId).isSome
  awaits : awaitsBlob operationId w.db = true
  free : ∀ t ∈ w.db.blobDeletionTasks, t.operationId = some operationId → t.complete = false →
    t.taskId ∈ rest ∧ liveReferences lib t.blob w.db = 0 ∧ Matches store t.blob w.disk

/-- The operation is complete, no task of it is open, and no object of those that were is left. -/
structure Finished (operationId : Uuid) (w w' : MediaWorld) : Prop where
  operation : ∃ op, w'.db.deletionOperations.lookup operationId = some op ∧ op.state = .complete
  tasks : ∀ t ∈ w'.db.blobDeletionTasks, t.operationId = some operationId → t.complete = true
  files : ∀ t ∈ w.db.blobDeletionTasks, t.operationId = some operationId → t.complete = false →
    w'.disk.objects.lookup (hexEncode t.blob.contentHash) = none

theorem Finishable.finished (h : Finishable lib store operationId rest w)
    {turns : Nat → Nat → Env × (Empty → Unit)} (hq : ∀ n m, (turns n m).1.Quiet) :
    Finished operationId w (eraseAll lib store turns rest 0 w) := by
  obtain ⟨op, hop⟩ := Option.isSome_iff_exists.mp h.operation
  have hstart : Finishing lib store operationId
      ((w.db.blobDeletionTasks.rows.filter fun t =>
        t.operationId = some operationId && !t.complete).map fun t => t.blob.contentHash)
      rest w := by
    refine ⟨h.stored, ⟨op, hop, Or.inr h.awaits⟩, h.free, fun digest hdigest => ?_⟩
    obtain ⟨t, ht, rfl⟩ := List.mem_map.mp hdigest
    obtain ⟨hmem, hkey⟩ := List.mem_filter.mp ht
    simp only [Bool.and_eq_true, decide_eq_true_eq, Bool.not_eq_true'] at hkey
    exact Or.inr ⟨t, hmem, hkey.1, hkey.2, rfl⟩
  have hend := hstart.all hq 0
  have hnone : ∀ t ∈ (eraseAll lib store turns rest 0 w).db.blobDeletionTasks,
      t.operationId = some operationId → t.complete = true := by
    intro t ht hid
    by_contra hopen
    have hmem := (hend.left t ht hid (Bool.eq_false_iff.mpr hopen)).1
    cases hmem
  refine ⟨?_, hnone, fun t ht hid hopen => ?_⟩
  · obtain ⟨op', hop', hcomplete | hstill⟩ := hend.operation
    · exact ⟨op', hop', hcomplete⟩
    · rw [awaitsBlob_eq_false.mpr hnone] at hstill
      cases hstill
  · have hdigest : t.blob.contentHash ∈ (w.db.blobDeletionTasks.rows.filter fun t =>
        t.operationId = some operationId && !t.complete).map fun t => t.blob.contentHash := by
      refine List.mem_map.mpr ⟨t, List.mem_filter.mpr ⟨ht, ?_⟩, rfl⟩
      simp [hid, hopen]
    rcases hend.files _ hdigest with hgone | ⟨t', ht', hid', hopen', -⟩
    · exact hgone
    · rw [hnone t' ht' hid'] at hopen'
      cases hopen'

end Finishing

/-! ## Tasks the store refuses -/

/-- The reference of a media object is longer than the digest it ends with. -/
theorem hexEncode_ne_mediaRef (digest : List UInt8) : hexEncode digest ≠ mediaRef digest := by
  unfold mediaRef
  generalize hexEncode digest = text
  intro heq
  have hlength := congrArg String.length heq
  have hdirectory : 0 < "instagram-archive/media/sha256/".length := by decide +kernel
  rw [String.length_append] at hlength
  omega

theorem plainHex_refused {blob : StoredBlob} (h : blob.PlainHex) :
    blob.blobRef ≠ mediaRef blob.contentHash := by
  rw [StoredBlob.PlainHex] at h
  rw [h]
  exact hexEncode_ne_mediaRef _

/-- The task is open, and its operation waits for objects. -/
structure Waiting (t : BlobDeletionTask) (db : Db) : Prop where
  stored : t ∈ db.blobDeletionTasks
  opened : t.complete = false
  operation : ∀ id, t.operationId = some id →
    ∃ op, db.deletionOperations.lookup id = some op ∧ op.state = .pendingBlobDeletion

section Refused

variable {lib : Externals} {store : MediaBlobStore} {t : BlobDeletionTask} {db : Db}
  {w : MediaWorld}

theorem Waiting.pended (h : Waiting t db) (operationId : Uuid) (now : Instant) :
    Waiting t (pendBlobDeletion operationId now db) := by
  refine ⟨h.stored, h.opened, fun id hid => ?_⟩
  obtain ⟨op, hop, hstate⟩ := h.operation id hid
  rw [lookup_pendBlobDeletion, hop, Option.map_some]
  refine ⟨_, rfl, ?_⟩
  split
  · rfl
  · exact hstate

theorem Waiting.completed (h : Waiting t db) {taskId : Uuid} (hne : t.taskId ≠ taskId) :
    Waiting t (completeTask taskId db) :=
  ⟨mem_completeTask_of_ne h.stored hne, h.opened, h.operation⟩

/-- An operation with an open task is not called complete. -/
theorem Waiting.finished (h : Waiting t db) (operationId : Uuid) (now : Instant) :
    Waiting t (completeOperation operationId now db) := by
  refine ⟨h.stored, h.opened, fun id hid => ?_⟩
  obtain ⟨op, hop, hstate⟩ := h.operation id hid
  rw [lookup_completeOperation, hop, Option.map_some]
  refine ⟨_, rfl, ?_⟩
  split
  · rename_i hends
    simp only [Bool.and_eq_true, decide_eq_true_eq, Bool.not_eq_true'] at hends
    obtain ⟨-, hopid⟩ := Table.lookup_eq_some.mp hop
    have hdone := awaitsBlob_eq_false.mp hends.2 t h.stored (by rw [hid, ← hopid, hends.1])
    rw [h.opened] at hdone
    cases hdone
  · exact hstate

theorem onMedia_ensures {ε α : Type} (x : DiskTx α) :
    (onMedia x : MediaScript ε (Except IoError α)).Ensures (fun _ w' => w'.db = w.db) w := by
  refine .tx (fun env r w' h => ?_) fun _ _ _ => rfl
  rcases h.attempt with ⟨a, -, h⟩ | ⟨e, -, rfl, -⟩
  · obtain ⟨disk, -, rfl⟩ := h.zoom
    rfl
  · rfl

/-- The object store leaves the database alone and refuses a reference that is not its own. -/
theorem deleteIfMatches_ensures {ε : Type} (blob : StoredBlob) :
    (deleteIfMatches store blob : MediaScript ε (Except BlobDeletionFailure Unit)).Ensures
      (fun r w' => w'.db = w.db ∧
        (blob.blobRef ≠ mediaRef blob.contentHash → r ≠ .ok (.ok ()))) w := by
  unfold deleteIfMatches
  split
  · exact .pure ⟨rfl, fun _ h => by cases h⟩
  rename_i href
  refine (onMedia_ensures _).bind (fun r w₁ h₁ => ?_) fun e w₁ h₁ => ⟨h₁, fun h => absurd h href⟩
  split
  · exact .pure ⟨h₁, fun _ h => by cases h⟩
  · exact .pure ⟨h₁, fun h => absurd h href⟩
  refine (onMedia_ensures _).bind (fun r w₂ h₂ => ?_)
    fun e w₂ h₂ => ⟨h₂.trans h₁, fun h => absurd h href⟩
  split
  · exact .pure ⟨h₂.trans h₁, fun _ h => by cases h⟩
  split
  · exact .pure ⟨h₂.trans h₁, fun _ h => by cases h⟩
  have hremoving : (removing blob : MediaScript ε (Except IoError Unit)).Ensures
      (fun _ w' => w'.db = w₂.db) w₂ := by
    refine .emit (fun env r w' h => ?_) fun _ _ _ => rfl
    rcases h.attempt with ⟨a, -, h⟩ | ⟨e, -, rfl, -⟩
    · obtain ⟨disk, -, rfl⟩ := h.zoom
      rfl
    · rfl
  refine hremoving.bind (fun r w₃ h₃ => ?_)
    fun e w₃ h₃ => ⟨h₃.trans (h₂.trans h₁), fun h => absurd h href⟩
  split
  · exact .pure ⟨h₃.trans (h₂.trans h₁), fun _ h => by cases h⟩
  refine (onMedia_ensures _).bind (fun r w₄ h₄ => ?_)
    fun e w₄ h₄ => ⟨h₄.trans (h₃.trans (h₂.trans h₁)), fun h => absurd h href⟩
  split
  · exact .pure ⟨h₄.trans (h₃.trans (h₂.trans h₁)), fun h => absurd h href⟩
  · exact .pure ⟨h₄.trans (h₃.trans (h₂.trans h₁)), fun _ h => by cases h⟩

theorem recordBlobFailure_waits (h : Waiting t w.db) (operationId : Option Uuid)
    (outcome : BlobDeletionTaskOutcome) :
    ((recordBlobFailure operationId >>= fun _ => pure outcome :
      BlobScript BlobDeletionTaskOutcome).handle MediaWorld.db (fun w db => { w with db })
      Empty.elim (deleteIfMatches store)).Ensures (fun _ w' => Waiting t w'.db) w := by
  cases operationId with
  | none => exact h
  | some operationId =>
    refine .handle_tx (fun env u db hy => ?_) fun _ => h
    obtain ⟨now, _, h1, hy⟩ := hy.bind
    obtain ⟨-, rfl⟩ := h1.now
    obtain rfl := hy.execute
    exact h.pended operationId now

theorem finishOperation_waits (h : Waiting t w.db) (operationId : Option Uuid)
    (outcome : BlobDeletionTaskOutcome) :
    ((finishOperation operationId >>= fun _ => pure outcome :
      BlobScript BlobDeletionTaskOutcome).handle MediaWorld.db (fun w db => { w with db })
      Empty.elim (deleteIfMatches store)).Ensures (fun _ w' => Waiting t w'.db) w := by
  cases operationId with
  | none => exact h
  | some operationId =>
    refine .handle_tx (fun env u db hy => ?_) fun _ => h
    obtain ⟨now, _, h1, hy⟩ := hy.bind
    obtain ⟨-, rfl⟩ := h1.now
    obtain rfl := hy.execute
    exact h.finished operationId now

/-- **An attempt of any task leaves a refused one waiting**, whatever fails on the way. -/
theorem eraseTask_waits (h : Waiting t w.db) (href : t.blob.blobRef ≠ mediaRef t.blob.contentHash)
    (taskId : Uuid) :
    (eraseTask lib store taskId).Ensures (fun _ w' => Waiting t w'.db) w := by
  refine .handle_tx (fun env task db hy => ?_) fun _ => h
  obtain ⟨htask, rfl⟩ := hy.fetchOne
  cases task.complete with
  | true => exact h
  | false =>
    refine .handle_tx (fun env live db hy => ?_) fun _ => h
    obtain ⟨-, rfl⟩ := hy.query
    dsimp only
    split
    · exact recordBlobFailure_waits h _ _
    refine .handle_request (deleteIfMatches_ensures task.blob) ?_ fun e w' h' => ?_
    · rintro r w' ⟨hdb, hrefused⟩
      have h' : Waiting t w'.db := by
        rw [hdb]
        exact h
      cases r with
      | error failure => exact recordBlobFailure_waits h' _ _
      | ok u =>
        have hne : t.taskId ≠ taskId := by
          rintro rfl
          rw [Table.lookup_mem h.stored] at htask
          cases htask
          exact hrefused href rfl
        refine .handle_tx (fun env u db hy => ?_) fun _ => h'
        obtain rfl := hy.execute
        exact finishOperation_waits (h'.completed hne) _ _
    · rw [h'.1]
      exact h

/-- By induction on the tasks tried. -/
theorem eraseAll_waits (href : t.blob.blobRef ≠ mediaRef t.blob.contentHash)
    (turns : Nat → Nat → Env × (Empty → Unit)) (rest : List Uuid) (n : Nat) (h : Waiting t w.db) :
    Waiting t (eraseAll lib store turns rest n w).db := by
  induction rest generalizing n w with
  | nil => exact h
  | cons taskId rest ih => exact ih (n + 1) ((eraseTask_waits h href taskId).run (turns n) 0)

/-- Alone, the attempt is refused for the reference. -/
theorem eraseTask_refused (hstored : t ∈ w.db.blobDeletionTasks) (hopen : t.complete = false)
    (href : t.blob.blobRef ≠ mediaRef t.blob.contentHash)
    (hlive : liveReferences lib t.blob w.db = 0) {turns : Nat → Env × (Empty → Unit)}
    (hq : ∀ n, (turns n).1.Quiet) :
    ((eraseTask lib store t.taskId).run turns 0 w).1 = .ok (.pending .digestMismatch) := by
  have hcompletes : (eraseTask lib store t.taskId).Completes turns
      (fun outcome _ w' => Attempt lib store t w outcome w') 0 w :=
    eraseTask_completes hq (Table.lookup_mem hstored)
  obtain ⟨outcome, -, w', events, hrun, hattempt⟩ := hcompletes.run
  rw [hrun]
  cases hattempt with
  | done hdone =>
    rw [hopen] at hdone
    cases hdone
  | erased _ _ hmatches => exact absurd hmatches.reference href
  | referenced _ hne => exact absurd hlive hne
  | differs => rfl

/-- **The tasks of a deletion, one after the other**, whatever other tasks are tried in between
and in whatever order. Without failures an operation that waits for media objects nothing keeps
ends complete, with no task open and no file left. A task with another reference stays open and
its operation pending whatever is tried and fails, the answer to it being a mismatch; and every
raw response is scheduled under such a reference, in every state the service reaches. -/
theorem erasures_finish (lib : Externals) (store : MediaBlobStore) :
    (∀ operationId rest w (turns : Nat → Nat → Env × (Empty → Unit)),
      (∀ n m, (turns n m).1.Quiet) → Finishable lib store operationId rest w →
        Finished operationId w (eraseAll lib store turns rest 0 w)) ∧
    (∀ (t : BlobDeletionTask) (w : MediaWorld), Waiting t w.db →
      t.blob.blobRef ≠ mediaRef t.blob.contentHash →
        (∀ rest turns, Waiting t (eraseAll lib store turns rest 0 w).db) ∧
        (liveReferences lib t.blob w.db = 0 → ∀ turns : Nat → Env × (Empty → Unit),
          (∀ n, (turns n).1.Quiet) →
            ((eraseTask lib store t.taskId).run turns 0 w).1 = .ok (.pending .digestMismatch))) ∧
    ∀ actions, ∀ t ∈ (run (serviceStep lib) {} actions).db.blobDeletionTasks,
      t.mediaClass = .rawResponse → t.blob.blobRef ≠ mediaRef t.blob.contentHash := by
  refine ⟨fun operationId rest w turns hq h => h.finished hq, fun t w h href => ⟨?_, ?_⟩, ?_⟩
  · exact fun rest turns => eraseAll_waits href turns rest 0 h
  · exact fun hlive turns hq => eraseTask_refused h.stored h.opened href hlive hq
  · exact fun actions t ht hclass => plainHex_refused ((plainTasks_run lib actions).tasks t ht hclass)

end Refused

/-- Two deletions that wait: one for a media object, the other for a raw response. -/
def waitingForBlobs : MediaWorld where
  db := {
    deletionOperations := ⟨[{
      operationId := 8
      userRef := 1
      targetKind := .connection
      targetId := 100
      reason := .userRequested
      state := .pendingBlobDeletion
      requestedAt := 0
      updatedAt := 0 }, {
      operationId := 9
      userRef := 2
      targetKind := .capture
      targetId := 200
      reason := .userRequested
      state := .pendingBlobDeletion
      requestedAt := 0
      updatedAt := 0 }], by decide⟩
    blobDeletionTasks := ⟨[{
      taskId := 20
      operationId := some 8
      blob := ⟨mediaRef [7], [7], 1⟩
      mediaClass := .providerMedia }, {
      taskId := 21
      operationId := some 9
      blob := ⟨hexEncode [6], [6], 1⟩
      mediaClass := .rawResponse }], by decide⟩ }
  disk := { objects := ⟨[⟨hexEncode [7], [7]⟩, ⟨hexEncode [6], [6]⟩], by decide⟩ }

/-- The tasks of both, one of them twice. -/
def erasedBlobs : MediaWorld :=
  eraseAll reference ⟨id, fun _ => none⟩ (fun _ _ => (quietEnv 1 50, Empty.elim)) [21, 20, 21] 0
    waitingForBlobs

theorem erasures_finish_waitingForBlobs :
    Finished 8 waitingForBlobs erasedBlobs ∧
      (∀ t ∈ waitingForBlobs.db.blobDeletionTasks, t.mediaClass = .rawResponse →
        Waiting t erasedBlobs.db) ∧
      erasedBlobs.disk.objects.rows.map (fun o => o.name) = [hexEncode [6]] := by
  obtain ⟨hfinish, hwait, -⟩ := erasures_finish reference ⟨id, fun _ => none⟩
  refine ⟨hfinish 8 _ waitingForBlobs _ (fun _ _ _ => rfl) ?_, fun t ht hclass => ?_, ?_⟩
  · refine ⟨by decide, rfl, rfl, fun t ht hid _ => ?_⟩
    rcases List.mem_cons.mp ht with rfl | ht
    · refine ⟨by decide, rfl, rfl, fun o ho => ?_⟩
      have hobject : o = ⟨hexEncode [7], [7]⟩ :=
        Option.some.inj (ho.symm.trans (by decide +kernel))
      rw [hobject]
      exact ⟨rfl, by decide, rfl⟩
    · obtain rfl := List.mem_singleton.mp ht
      cases hid
  · rcases List.mem_cons.mp ht with rfl | hlast
    · cases hclass
    · obtain rfl := List.mem_singleton.mp hlast
      refine (hwait _ waitingForBlobs ⟨ht, rfl, fun id hid => ?_⟩ ?_).1 _ _
      · cases hid
        exact ⟨_, rfl, rfl⟩
      · decide +kernel
  · decide +kernel

end MediaRetention

end InstagramArchive

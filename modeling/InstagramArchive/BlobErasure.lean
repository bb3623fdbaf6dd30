import InstagramArchive.PrivacyDeletion
import InstagramArchive.Relational.Script

/-!
# Deletion of stored objects

A deletion schedules a task for every object it leaves without a row, and a worker processes
the tasks one by one after the commit. A worker reads its task, counts the rows that still
name the object, asks the object store to delete it and books the result, each in a statement
of its own.

The attempt count and the last failure class of a task are left out: nothing reads them.
-/

namespace InstagramArchive

open Relational Relational.Tx Relational.Script

/-- Safe bounded failure vocabulary for post-commit deletion. -/
inductive BlobDeletionFailure where
  | storageUnavailable
  | digestMismatch
  | stillReferenced
  deriving DecidableEq, Repr

/-- Durable state returned by one idempotent blob-task attempt. -/
inductive BlobDeletionTaskOutcome where
  | pending (failure : BlobDeletionFailure)
  | complete
  deriving DecidableEq, Repr

/-! ## A task -/

/-- The object a snapshot names; its reference is stored as JSON. -/
def ExportSnapshot.blob (lib : Externals) (s : ExportSnapshot) : StoredBlob :=
  ⟨lib.blobRefJson s.archive, s.archiveHash, s.archiveByteSize⟩

/-- The rows of the database that name an object. -/
def liveReferences (lib : Externals) (blob : StoredBlob) (db : Db) : Nat :=
  (db.media.rows.countP fun m => m.blob = some blob) +
    (db.rawRecords.rows.countP fun r => r.blob = blob) +
    db.exportSnapshots.rows.countP fun s => s.blob lib = blob

abbrev BlobScript := Script Db SqlError StoredBlob (Except BlobDeletionFailure Unit) Empty

def pendBlobDeletion (operationId : Uuid) (now : Instant) (db : Db) : Db :=
  { db with
    deletionOperations := db.deletionOperations.update (fun op => op.operationId = operationId)
      fun op => { op with state := .pendingBlobDeletion, updatedAt := now } }

/-- `record_blob_failure`, by what it does to the operation. -/
def recordBlobFailure (operationId : Option Uuid) : BlobScript Unit :=
  match operationId with
  | none => return ()
  | some operationId => tx do
    let now ← Tx.now
    execute (pendBlobDeletion operationId now)

def completeTask (taskId : Uuid) (db : Db) : Db :=
  { db with
    blobDeletionTasks := db.blobDeletionTasks.update (fun t => t.taskId = taskId)
      fun t => { t with complete := true } }

/-- Whether an operation waits for an object. -/
def awaitsBlob (operationId : Uuid) (db : Db) : Bool :=
  db.blobDeletionTasks.rows.any fun t => t.operationId = some operationId && !t.complete

def completeOperation (operationId : Uuid) (now : Instant) (db : Db) : Db :=
  { db with
    deletionOperations := db.deletionOperations.update
      (fun op => op.operationId = operationId && !awaitsBlob operationId db)
      fun op => { op with state := .complete, updatedAt := now, finishedAt := some now } }

/-- The operation of a completed task is complete once no other task of it is left. -/
def finishOperation (operationId : Option Uuid) : BlobScript Unit :=
  match operationId with
  | none => return ()
  | some operationId => tx do
    let now ← Tx.now
    execute (completeOperation operationId now)

/-- Processes one durable deletion task; the request is the call of the object store. -/
def processBlobDeletionTask (lib : Externals) (taskId : Uuid) : BlobScript BlobDeletionTaskOutcome := do
  let task ← tx (fetchOne .rowNotFound fun db => db.blobDeletionTasks.lookup taskId)
  if task.complete then return .complete
  else
    let live ← tx (query (liveReferences lib task.blob))
    if live > 0 then
      recordBlobFailure task.operationId
      return .pending .stillReferenced
    else
      match ← request task.blob with
      | .error failure =>
        recordBlobFailure task.operationId
        return .pending failure
      | .ok () =>
        tx (execute (completeTask taskId))
        finishOperation task.operationId
        return .complete

end InstagramArchive

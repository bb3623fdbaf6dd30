import InstagramArchive.DataExportParser
import InstagramArchive.DataExportReceipt
import InstagramArchive.Relational.Simulation

/-!
# The import worker

The stages of an import run as scripts: each reads the run in one statement, works on the
archive file outside of any transaction and commits what it found. A pass of the worker takes
a batch of pending runs, the ones that were not written for the longest time first, and takes
each through the stages it still needs. A refused archive is the end of its run; any other
failure ends the pass.

Two parts of what the stages do are left out: the telemetry, and the values they return, which
only the telemetry reads.
-/

namespace InstagramArchive.DataExport

open Relational Relational.Tx Relational.Script

/-! ## Archive files -/

/-- What the ZIP reader finds in an accepted archive: its inventory, and the saved-post section
as far as it can be read and is JSON. -/
structure ArchiveFile where
  inventory : ArchiveInventory
  savedPosts : Except ArchiveFailureClass (Option Json)

/-- The object a stage opens, with the digest and the size it must have. -/
structure FileRequest where
  digest : List UInt8
  byteSize : Nat
  deriving DecidableEq, Repr

/-- `verify_existing` and then the reader. -/
abbrev FileAnswer := Except ReceiptError (Except ArchiveFailureClass ArchiveFile)

/-- `missing_or_archive`. -/
def missingOrArchive (inventory : ArchiveInventory) (failure : ArchiveFailureClass) : ParserError :=
  if inventory.entries.any fun e => e.path = savedPostsPath then .archive failure
  else .unsupportedLayout

def parseFile (lib : Externals) :
    Except ArchiveFailureClass ArchiveFile → Except ParserError ParsedExport
  | .error failure => .error (.archive failure)
  | .ok file =>
    match file.savedPosts with
    | .error failure => .error (missingOrArchive file.inventory failure)
    | .ok section? => parseSavedPosts lib section? file.inventory

/-! ## Stages -/

abbrev ImportScript := Script Db ImportError FileRequest FileAnswer Empty

/-- The state of a run and its archive. -/
def runArchive (runId : Uuid) (db : Db) : Option (ImportState × BlobRef × FileRequest) := do
  let r ← db.importRuns.lookup runId
  let s ← db.exportSnapshots.lookup r.snapshotId
  return (r.state, s.archive, ⟨s.archiveHash, s.archiveByteSize⟩)

/-- `verified_path` and the work on the file. -/
def openArchive (archive : BlobRef) (file : FileRequest) :
    ImportScript (Except ArchiveFailureClass ArchiveFile) := do
  if archive ≠ archiveRef file.digest file.byteSize then fail (.receipt .corruptEvidence)
  else
    match ← request file with
    | .error e => fail (.receipt e)
    | .ok found => return found

def inspect (runId : Uuid) : ImportScript Unit := do
  let (state, archive, file) ← tx (fetchOne .stateConflict (runArchive runId))
  if state ≠ .received then fail .stateConflict
  else
    match ← openArchive archive file with
    | .ok _ => tx (finishInspection runId none)
    | .error failure =>
      tx (finishInspection runId (some failure))
      fail (.archive failure)

def parse (lib : Externals) (runId : Uuid) : ImportScript Unit := do
  let (state, archive, file) ← tx (fetchOne .stateConflict (runArchive runId))
  if state ≠ .inspected then fail .stateConflict
  else
    match parseFile lib (← openArchive archive file) with
    | .ok parsed => tx (persistParsed lib runId parsed)
    | .error error =>
      tx (failParse runId error.failureClass)
      fail (.parser error)

/-! ## Passes -/

/-- How far a pass took a run. -/
inductive Advanced where
  | reconciled
  | failed
  | intermediate
  deriving DecidableEq, Repr

def handledInputFailure : ImportError → ImportScript Advanced
  | .archive _ => return .failed
  | .parser _ => return .failed
  | other => fail other

def advanceParsed (lib : Externals) (runId : Uuid) : ImportScript Advanced := do
  let _ ← tx (reconcile lib runId)
  return .reconciled

def advanceInspected (lib : Externals) (runId : Uuid) : ImportScript Advanced := do
  match ← attempt (parse lib runId) with
  | .error e => handledInputFailure e
  | .ok () => advanceParsed lib runId

def advanceReceived (lib : Externals) (runId : Uuid) : ImportScript Advanced := do
  match ← attempt (inspect runId) with
  | .error e => handledInputFailure e
  | .ok () => advanceInspected lib runId

def advance (lib : Externals) (runId : Uuid) : ImportState → ImportScript Advanced
  | .received => advanceReceived lib runId
  | .inspected => advanceInspected lib runId
  | .parsed => advanceParsed lib runId
  | .reconciled => return .reconciled
  | .failed => return .failed

def ImportState.pending : ImportState → Bool
  | .received | .inspected | .parsed => true
  | .reconciled | .failed => false

/-- The order of the pending runs. -/
def runBefore (a b : ImportRun) : Prop :=
  toLex (a.updatedAt, a.runId) ≤ toLex (b.updatedAt, b.runId)

instance : DecidableRel runBefore := fun a b =>
  inferInstanceAs (Decidable (toLex (a.updatedAt, a.runId) ≤ toLex (b.updatedAt, b.runId)))

def pendingRuns (db : Db) : List ImportRun :=
  (db.importRuns.rows.filter fun r => ImportState.pending r.state).insertionSort runBefore

structure WorkerPass where
  selected : Nat := 0
  reconciled : Nat := 0
  failed : Nat := 0
  deriving DecidableEq, Repr

def advanceEach (lib : Externals) : List (Uuid × ImportState) → WorkerPass → ImportScript WorkerPass
  | [], pass => return pass
  | (runId, state) :: rest, pass => do
    match ← attempt (advance lib runId state) with
    | .ok .reconciled => advanceEach lib rest { pass with reconciled := pass.reconciled + 1 }
    | .ok .failed => advanceEach lib rest { pass with failed := pass.failed + 1 }
    | .ok .intermediate => advanceEach lib rest pass
    | .error .stateConflict => advanceEach lib rest pass
    | .error e => fail e

def runOnce (lib : Externals) (batchSize : Nat) : ImportScript WorkerPass := do
  let rows ← tx (query fun db =>
    ((pendingRuns db).take batchSize).map fun r => (r.runId, r.state))
  advanceEach lib rows { selected := rows.length }

/-! ## Jobs in flight -/

/-- What a worker, or a caller of the store, runs. -/
inductive ImportJob where
  | inspect (runId : Uuid)
  | parse (runId : Uuid)
  | reconcile (runId : Uuid)
  | pass (batchSize : Nat)
  deriving DecidableEq, Repr

def ImportJob.script (lib : Externals) : ImportJob → ImportScript Unit
  | .inspect runId => DataExport.inspect runId
  | .parse runId => DataExport.parse lib runId
  | .reconcile runId => do
    let _ ← tx (DataExport.reconcile lib runId)
    return ()
  | .pass batchSize => do
    let _ ← runOnce lib batchSize
    return ()

/-- The tables with the jobs that are between two of their transactions. A crash is a job that
is never advanced again. -/
structure ImportSystem where
  db : Db := {}
  jobs : List (ImportScript Unit) := []

inductive ImportAction where
  /-- The transaction of a receipt whose object is stored. -/
  | receive (env : Env) (owner : Uuid) (digest : List UInt8) (byteSize : Nat)
  | begin (job : ImportJob)
  /-- A job commits or aborts its next transaction, or its file work is done. -/
  | advance (env : Env) (answer : FileAnswer) (job : Nat)
  /-- Transactions of the rest of the service. -/
  | others (db : Db)

def importStep (lib : Externals) (s : ImportSystem) : ImportAction → ImportSystem
  | .receive env owner digest byteSize =>
    { s with db := ((persistReceipt owner (storedArchive digest byteSize)).exec env s.db).2 }
  | .begin job => { s with jobs := s.jobs ++ [job.script lib] }
  | .advance env answer i =>
    match s.jobs[i]? with
    | none => s
    | some job => match job.advance env answer s.db with
      | (job, db, _) => { db, jobs := s.jobs.set i job }
  | .others db => { s with db }

end InstagramArchive.DataExport

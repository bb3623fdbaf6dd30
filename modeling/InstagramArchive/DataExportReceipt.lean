import InstagramArchive.DataExport
import InstagramArchive.Relational.Ownership

/-!
# Receiving an archive

`receive` copies the body of a request into a staging file of its own while it hashes it,
links the file under its digest into the object directory unless an object stands there, which
it then reads back, and only then records the receipt in one transaction. Every file operation
and the transaction are steps of their own: other calls take theirs in between, and a call may
stop after any of them.

Files are created for their owner alone and a link keeps the mode, so the mode check of
`verify_existing` always holds and is left out.
-/

namespace InstagramArchive.DataExport

open Relational Relational.Tx Relational.Script

/-! ## Files -/

structure StagedFile where
  name : Uuid
  content : List UInt8
  deriving DecidableEq, Repr

structure StoredObject where
  name : String
  content : List UInt8
  deriving DecidableEq, Repr

structure Disk where
  staging : Table StagedFile StagedFile.name := Table.empty
  objects : Table StoredObject StoredObject.name := Table.empty

structure ArchiveWorld where
  db : Db := {}
  disk : Disk := {}

/-- The configuration of the store and the hash function of its library. -/
structure ArchiveStore where
  sha256 : List UInt8 → List UInt8
  maxBodyBytes : Nat

/-- A file operation failed. -/
inductive IoError where
  | failed
  deriving DecidableEq, Repr

instance : OfSql IoError := ⟨fun _ => .failed⟩

abbrev DiskTx := Tx Disk IoError

def ensurePrivateDirectory : DiskTx Unit := commit

/-- `create_new`: the name must not exist. -/
def createTemporary : DiskTx Uuid := do
  let name ← nowV7
  insertInto "staging" Disk.staging (fun disk t => { disk with staging := t }) (fun _ => none)
    ⟨name, []⟩
  return name

def writeAll (name : Uuid) (bytes : List UInt8) : DiskTx Unit :=
  execute fun disk => { disk with
    staging := disk.staging.update (fun f => f.name = name) fun f =>
      { f with content := f.content ++ bytes } }

def syncFile : DiskTx Unit := commit

def removeTemporary (name : Uuid) : DiskTx Unit := statement fun disk =>
  if (disk.staging.lookup name).isNone then .error .rowNotFound
  else .ok ((), { disk with staging := disk.staging.delete fun f => f.name = name })

def temporaryExists (name : Uuid) : DiskTx Bool := query fun disk =>
  (disk.staging.lookup name).isSome

inductive LinkResult where
  | linked
  | alreadyExists
  deriving DecidableEq, Repr

/-- `hard_link` of a staging file to its place in the object directory. -/
def hardLink (name : Uuid) (digest : List UInt8) : DiskTx LinkResult := statement fun disk =>
  match disk.staging.lookup name with
  | none => .error .rowNotFound
  | some file => match disk.objects.insert? ⟨hexEncode digest, file.content⟩ with
    | none => .ok (.alreadyExists, disk)
    | some objects => .ok (.linked, { disk with objects })

/-- Reads the object back. -/
def verifyExisting (store : ArchiveStore) (digest : List UInt8) (byteSize : Nat) : DiskTx Unit :=
  statement fun disk => match disk.objects.lookup (hexEncode digest) with
    | none => .error .rowNotFound
    | some o =>
      if o.content.length = byteSize ∧ store.sha256 o.content = digest then .ok ((), disk)
      else .error .rowNotFound

def syncDirectory : DiskTx Unit := commit

/-! ## The store -/

/-- An item of the body stream; a failed one ends it. -/
inductive StreamItem where
  | chunk (bytes : List UInt8)
  | failed
  deriving DecidableEq, Repr

/-- A receipt that was committed: the owner, the body and the answer. -/
structure Receipt where
  owner : Uuid
  body : List UInt8
  outcome : ReceiptOutcome
  deriving DecidableEq, Repr

abbrev ReceiptScript := Script ArchiveWorld ReceiptError Empty Unit Receipt

/-- One file operation; the caller handles its failure. -/
def onDisk {α : Type} (x : DiskTx α) : ReceiptScript (Except IoError α) :=
  tx (Tx.attempt (Tx.zoom ArchiveWorld.disk (fun w disk => { w with disk }) x))

/-- A file operation whose failure ends the call with `e`. -/
def orFail {α : Type} (e : ReceiptError) (x : DiskTx α) : ReceiptScript α := do
  match ← onDisk x with
  | .ok a => return a
  | .error _ => fail e

def u64Max : Nat := 2 ^ 64 - 1

/-- A body of this size is refused. -/
def overLimit (store : ArchiveStore) (byteSize : Nat) : Bool :=
  byteSize > u64Max || byteSize > store.maxBodyBytes || byteSize > i64Max

def copyAndHash (store : ArchiveStore) (temporary : Uuid) :
    List StreamItem → List UInt8 → ReceiptScript (Except ReceiptError (List UInt8 × Nat))
  | [], hashed => return .ok (store.sha256 hashed, hashed.length)
  | .failed :: _, _ => return .error .bodyStream
  | .chunk bytes :: rest, hashed =>
    if overLimit store (hashed.length + bytes.length) then return .error .bodyLimit
    else do
      match ← onDisk (writeAll temporary bytes) with
      | .error _ => return .error .rawStorage
      | .ok () => copyAndHash store temporary rest (hashed ++ bytes)

def publishOrVerify (store : ArchiveStore) (temporary : Uuid) (digest : List UInt8)
    (byteSize : Nat) : ReceiptScript (Except ReceiptError Unit) := do
  match ← onDisk ensurePrivateDirectory with
  | .error _ => return .error .rawStorage
  | .ok () =>
    match ← onDisk (hardLink temporary digest) with
    | .error _ => return .error .rawStorage
    | .ok .linked =>
      match ← onDisk syncDirectory with
      | .error _ => return .error .rawStorage
      | .ok () => return (← onDisk (removeTemporary temporary)).mapError fun _ => .rawStorage
    | .ok .alreadyExists =>
      match ← onDisk (verifyExisting store digest byteSize) with
      | .error _ => return .error .immutableConflict
      | .ok () => return (← onDisk (removeTemporary temporary)).mapError fun _ => .rawStorage

/-- `blob_ref` of an archive. -/
def archiveRef (digest : List UInt8) (byteSize : Nat) : BlobRef :=
  { digest := hexEncode digest, mediaType := "application/zip", lengthBytes := byteSize }

def storedArchive (digest : List UInt8) (byteSize : Nat) : StoredArchive :=
  { archive := archiveRef digest byteSize, digest, byteSize }

/-- Publishes the staging file, or removes it if it still stands there. -/
def publishTemporary (store : ArchiveStore) (temporary : Uuid) (digest : List UInt8)
    (byteSize : Nat) : ReceiptScript Unit := do
  match ← publishOrVerify store temporary digest byteSize with
  | .error e =>
    match ← onDisk (temporaryExists temporary) with
    | .ok true =>
      orFail .rawStorage (removeTemporary temporary)
      fail e
    | _ => fail e
  | .ok () => return ()

/-- `ArchiveStore::store`. -/
def storeArchive (store : ArchiveStore) (chunks : List StreamItem) :
    ReceiptScript StoredArchive := do
  orFail .rawStorage ensurePrivateDirectory
  let temporary ← orFail .rawStorage createTemporary
  match ← copyAndHash store temporary chunks [] with
  | .error e =>
    orFail .rawStorage (removeTemporary temporary)
    fail e
  | .ok (digest, byteSize) =>
    match ← onDisk syncFile with
    | .error _ =>
      orFail .rawStorage (removeTemporary temporary)
      fail .rawStorage
    | .ok () =>
      publishTemporary store temporary digest byteSize
      return storedArchive digest byteSize

/-- The bytes of a stream up to its failure. -/
def streamBody : List StreamItem → List UInt8
  | .chunk bytes :: rest => bytes ++ streamBody rest
  | _ => []

def receive (store : ArchiveStore) (owner : Uuid) (chunks : List StreamItem) :
    ReceiptScript ReceiptOutcome := do
  let stored ← storeArchive store chunks
  emit (Tx.zoom ArchiveWorld.db (fun w db => { w with db }) (persistReceipt owner stored))
    fun outcome => some ⟨owner, streamBody chunks, outcome⟩

/-! ## Calls in flight -/

structure ReceiptCall where
  owner : Uuid
  chunks : List StreamItem
  script : ReceiptScript ReceiptOutcome

structure ReceiptSystem where
  world : ArchiveWorld := {}
  calls : List ReceiptCall := []
  /-- The committed receipts, in order. -/
  receipts : List Receipt := []

inductive ReceiptAction where
  | begin (owner : Uuid) (chunks : List StreamItem)
  /-- A call takes its next step. -/
  | advance (env : Env) (call : Nat)
  /-- Other transactions of the service. -/
  | others (db : Db)

def receiptStep (store : ArchiveStore) (s : ReceiptSystem) : ReceiptAction → ReceiptSystem
  | .begin owner chunks =>
    { s with calls := s.calls ++ [⟨owner, chunks, receive store owner chunks⟩] }
  | .advance env i =>
    match s.calls[i]? with
    | none => s
    | some c => match c.script.advance env () s.world with
      | (script, world, receipt) =>
        { world, calls := s.calls.set i { c with script }
          receipts := s.receipts ++ receipt.toList }
  | .others db => { s with world := { s.world with db } }

end InstagramArchive.DataExport

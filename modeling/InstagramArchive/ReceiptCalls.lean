import InstagramArchive.DataExportReceipt
import InstagramArchive.EvidenceKeys

/-!
# What a call of `receive` can do

A call owns the staging file it created, knows what it wrote there and, once it has published
or verified it, that the object of its body is stored. `ReceiptWrite` lists its steps with what
it knows before and after each of them, and `receive_tracks` says that a call takes no other.
-/

namespace InstagramArchive.DataExport

open Relational Relational.Tx Relational.Script

/-- What a call owns and knows. -/
structure CallKnowledge where
  temporary : Option StagedFile := none
  /-- The body whose object is stored. -/
  stored : Option (List UInt8) := none
  deriving DecidableEq

def objectName (store : ArchiveStore) (body : List UInt8) : String := hexEncode (store.sha256 body)

structure CallKnowledge.Holds (store : ArchiveStore) (k : CallKnowledge) (w : ArchiveWorld) :
    Prop where
  file : ∀ f, k.temporary = some f → w.disk.staging.lookup f.name = some f
  object : ∀ body, k.stored = some body →
    w.disk.objects.lookup (objectName store body) = some ⟨objectName store body, body⟩

theorem StagedFile.append_name (bytes : List UInt8) (f : StagedFile) :
    ({ f with content := f.content ++ bytes } : StagedFile).name = f.name := rfl

/-- The disk after a write to a staging file. -/
def Disk.append (disk : Disk) (name : Uuid) (bytes : List UInt8) : Disk :=
  { disk with
    staging := disk.staging.update (fun f => f.name = name)
      (fun f => { f with content := f.content ++ bytes }) (StagedFile.append_name bytes) }

theorem Disk.lookup_append (disk : Disk) (name other : Uuid) (bytes : List UInt8) :
    (disk.append name bytes).staging.lookup other = (disk.staging.lookup other).map fun f =>
      if f.name = name then { f with content := f.content ++ bytes } else f := by
  refine (Table.lookup_update disk.staging (fun f => f.name = name)
    (fun f => { f with content := f.content ++ bytes }) (fun _ => rfl) other).trans ?_
  simp only [decide_eq_true_eq]

def Disk.remove (disk : Disk) (name : Uuid) : Disk :=
  { disk with staging := disk.staging.delete fun f => f.name = name }

/-- One step of a call of `owner` whose body is `whole`, with what the call knows around it. -/
inductive ReceiptWrite (store : ArchiveStore) (owner : Uuid) (whole : List UInt8)
    (k : CallKnowledge) (env : Env) (w : ArchiveWorld) : Option Receipt → CallKnowledge → ArchiveWorld → Prop
  | idle : ReceiptWrite store owner whole k env w none k w
  | created {name : Uuid} {t : Table StagedFile StagedFile.name}
      (hfree : k.temporary = none) (h : w.disk.staging.insert? ⟨name, []⟩ = some t) :
      ReceiptWrite store owner whole k env w none { k with temporary := some ⟨name, []⟩ }
        { w with disk := { w.disk with staging := t } }
  | written {f : StagedFile} {bytes : List UInt8} (hfile : k.temporary = some f) :
      ReceiptWrite store owner whole k env w none
        { k with temporary := some { f with content := f.content ++ bytes } }
        { w with disk := w.disk.append f.name bytes }
  | removed {f : StagedFile} (hfile : k.temporary = some f) :
      ReceiptWrite store owner whole k env w none { k with temporary := none }
        { w with disk := w.disk.remove f.name }
  | linked {f : StagedFile} {t : Table StoredObject StoredObject.name}
      (hfile : k.temporary = some f)
      (h : w.disk.objects.insert? ⟨objectName store f.content, f.content⟩ = some t) :
      ReceiptWrite store owner whole k env w none { k with stored := some f.content }
        { w with disk := { w.disk with objects := t } }
  | verified {body : List UInt8}
      (h : w.disk.objects.lookup (objectName store body) = some ⟨objectName store body, body⟩) :
      ReceiptWrite store owner whole k env w none { k with stored := some body } w
  | persisted {outcome : ReceiptOutcome} {db : Db} (hstored : k.stored = some whole)
      (h : (persistReceipt owner (storedArchive (store.sha256 whole) whole.length)).Yields env w.db
        outcome db) :
      ReceiptWrite store owner whole k env w (some ⟨owner, whole, outcome⟩) k { w with db }

section Calls

variable {store : ArchiveStore} {owner : Uuid} {whole : List UInt8} {k : CallKnowledge}
  {w : ArchiveWorld}

abbrev CallTracks {α : Type} (store : ArchiveStore) (owner : Uuid) (whole : List UInt8)
    (Post : α → CallKnowledge → Prop) (script : ReceiptScript α) (k : CallKnowledge) : Prop :=
  script.Tracks (CallKnowledge.Holds store) (ReceiptWrite store owner whole) Post k

/-- One file operation: it fails without effect, or it does what it yields. -/
theorem onDisk_tracks {α : Type} {x : DiskTx α} {Post : Except IoError α → CallKnowledge → Prop}
    (herror : ∀ e, Post (.error e) k)
    (h : ∀ env w a disk, k.Holds store w → x.Yields env w.disk a disk →
      ∃ k', ReceiptWrite store owner whole k env w none k' { w with disk } ∧
        k'.Holds store { w with disk } ∧ Post (.ok a) k') :
    CallTracks store owner whole Post (onDisk x) k := by
  refine .tx fun env w b w' hk hy => ?_
  rcases hy.attempt with ⟨a, rfl, hx⟩ | ⟨e, rfl, rfl, -⟩
  · obtain ⟨disk, hdisk, rfl⟩ := hx.zoom
    exact h env w a disk hk hdisk
  · exact ⟨k, .idle, hk, herror e⟩

/-- An operation that changes no file. -/
theorem onDisk_idle {α : Type} {x : DiskTx α} {Post : Except IoError α → CallKnowledge → Prop}
    (herror : ∀ e, Post (.error e) k) (h : ∀ a, Post (.ok a) k)
    (hread : ∀ env disk a disk', x.Yields env disk a disk' → disk = disk') :
    CallTracks store owner whole Post (onDisk x) k := by
  refine onDisk_tracks herror fun env w a disk hk hy => ?_
  obtain rfl := hread env w.disk a disk hy
  exact ⟨k, .idle, hk, h a⟩

theorem orFail_tracks {α : Type} {x : DiskTx α} {e : ReceiptError}
    {Post : α → CallKnowledge → Prop}
    (h : CallTracks store owner whole (fun r k' => ∀ a, r = .ok a → Post a k') (onDisk x) k) :
    CallTracks store owner whole Post (orFail e x) k := by
  refine h.bind fun r k' hr => ?_
  cases r with
  | error e' => exact .fail e
  | ok a => exact hr a rfl

theorem createTemporary_yields {env : Env} {disk disk' : Disk} {name : Uuid}
    (h : createTemporary.Yields env disk name disk') :
    ∃ t, disk.staging.insert? ⟨name, []⟩ = some t ∧ disk' = { disk with staging := t } := by
  obtain ⟨drawn, _, h1, h⟩ := h.bind
  obtain rfl := h1.nowV7
  obtain ⟨_, _, h2, h⟩ := h.bind
  obtain ⟨-, t, ht, rfl⟩ := h2.insertInto
  obtain ⟨rfl, rfl⟩ := yields_pure.mp h
  exact ⟨t, ht, rfl⟩

theorem CallKnowledge.Holds.created {name : Uuid} {t : Table StagedFile StagedFile.name}
    (hk : k.Holds store w) (ht : w.disk.staging.insert? ⟨name, []⟩ = some t) :
    ({ k with temporary := some ⟨name, []⟩ } : CallKnowledge).Holds store
      { w with disk := { w.disk with staging := t } } := by
  refine { hk with file := fun f hf => ?_ }
  cases hf
  rw [Table.lookup_of_insert? ht, if_pos rfl]

theorem createTemporary_tracks {Post : Uuid → CallKnowledge → Prop} {e : ReceiptError}
    (hfree : k.temporary = none)
    (h : ∀ name, Post name { k with temporary := some ⟨name, []⟩ }) :
    CallTracks store owner whole Post (orFail e createTemporary) k := by
  apply orFail_tracks
  refine onDisk_tracks (by simp) fun env w name disk hk hy => ?_
  obtain ⟨t, ht, rfl⟩ := createTemporary_yields hy
  refine ⟨_, .created hfree ht, hk.created ht, fun a ha => ?_⟩
  cases ha
  exact h name

theorem writeAll_tracks {name : Uuid} {content bytes : List UInt8}
    {Post : Except IoError Unit → CallKnowledge → Prop} (hfile : k.temporary = some ⟨name, content⟩)
    (herror : ∀ e, Post (.error e) k)
    (h : Post (.ok ()) { k with temporary := some ⟨name, content ++ bytes⟩ }) :
    CallTracks store owner whole Post (onDisk (writeAll name bytes)) k := by
  refine onDisk_tracks herror fun env w a disk hk hy => ?_
  obtain rfl := hy.execute
  refine ⟨_, .written hfile, { hk with file := fun f hf => ?_ }, h⟩
  cases hf
  have hlookup := hk.file _ hfile
  change (w.disk.staging.update _ _).lookup name = _
  rw [Table.lookup_update, hlookup]
  simp

theorem removeTemporary_tracks {f : StagedFile} {Post : Except IoError Unit → CallKnowledge → Prop}
    (hfile : k.temporary = some f) (herror : ∀ e, Post (.error e) k)
    (h : Post (.ok ()) { k with temporary := none }) :
    CallTracks store owner whole Post (onDisk (removeTemporary f.name)) k := by
  refine onDisk_tracks herror fun env w a disk hk hy => ?_
  have hy := hy.statement
  split at hy
  · cases hy
  · cases hy
    exact ⟨_, .removed hfile, { hk with file := by simp }, h⟩

theorem hardLink_tracks {name : Uuid} {body : List UInt8}
    {Post : Except IoError LinkResult → CallKnowledge → Prop}
    (hfile : k.temporary = some ⟨name, body⟩) (herror : ∀ e, Post (.error e) k)
    (hold : Post (.ok .alreadyExists) k)
    (hnew : Post (.ok .linked) { k with stored := some body }) :
    CallTracks store owner whole Post (onDisk (hardLink name (store.sha256 body))) k := by
  refine onDisk_tracks herror fun env w a disk hk hy => ?_
  have hy := hy.statement
  rw [hk.file _ hfile] at hy
  cases ht : w.disk.objects.insert? ⟨hexEncode (store.sha256 body), body⟩ with
  | none =>
    simp only [ht] at hy
    cases hy
    exact ⟨k, .idle, hk, hold⟩
  | some t =>
    simp only [ht] at hy
    cases hy
    refine ⟨_, .linked hfile ht, { hk with object := fun body' hbody => ?_ }, hnew⟩
    cases hbody
    exact (Table.lookup_of_insert? ht _).trans (if_pos rfl)

theorem verifyExisting_tracks (hsha : Function.Injective store.sha256) {body : List UInt8}
    {byteSize : Nat} {Post : Except IoError Unit → CallKnowledge → Prop}
    (herror : ∀ e, Post (.error e) k) (h : Post (.ok ()) { k with stored := some body }) :
    CallTracks store owner whole Post
      (onDisk (verifyExisting store (store.sha256 body) byteSize)) k := by
  refine onDisk_tracks herror fun env w a disk hk hy => ?_
  have hy := hy.statement
  cases hlookup : w.disk.objects.lookup (hexEncode (store.sha256 body)) with
  | none =>
    rw [hlookup] at hy
    cases hy
  | some o =>
    simp only [hlookup] at hy
    split at hy
    · rename_i hsame
      cases hy
      obtain ⟨-, hname⟩ := Table.lookup_eq_some.mp hlookup
      have ho : o = ⟨objectName store body, body⟩ := by
        cases o
        simp only at hname hsame
        rw [hname, hsha hsame.2]
        rfl
      rw [ho] at hlookup
      refine ⟨_, .verified hlookup, { hk with object := fun body' hbody => ?_ }, h⟩
      cases hbody
      exact hlookup
    · cases hy

theorem removeThenFail_tracks {α : Type} {f : StagedFile} {e : ReceiptError}
    {Post : α → CallKnowledge → Prop} (hfile : k.temporary = some f) :
    CallTracks store owner whole Post (do
      orFail .rawStorage (removeTemporary f.name)
      fail e) k := by
  refine Tracks.bind (Q := fun _ _ => True) ?_ fun _ _ _ => .fail e
  apply orFail_tracks
  exact removeTemporary_tracks hfile (by simp) (by simp)

/-- The copy loop, by induction on the stream: the file holds what has been hashed. -/
theorem copyAndHash_tracks {name : Uuid} (chunks : List StreamItem) {hashed : List UInt8}
    (hfile : k.temporary = some ⟨name, hashed⟩) :
    CallTracks store owner whole
      (fun r k' => ∃ content, k'.temporary = some ⟨name, content⟩ ∧ ∀ digest byteSize,
        r = .ok (digest, byteSize) → content = hashed ++ streamBody chunks ∧
          digest = store.sha256 content ∧ byteSize = content.length)
      (copyAndHash store name chunks hashed) k := by
  induction chunks generalizing hashed k with
  | nil =>
    refine .pure ⟨hashed, hfile, fun digest byteSize h => ?_⟩
    cases h
    simp [streamBody]
  | cons item rest ih =>
    cases item with
    | failed => exact .pure ⟨hashed, hfile, by simp⟩
    | chunk bytes =>
      unfold copyAndHash
      split
      · exact .pure ⟨hashed, hfile, by simp⟩
      · refine Tracks.bind (Q := fun r k' => ∃ content, k'.temporary = some ⟨name, content⟩ ∧
          (r = .ok () → content = hashed ++ bytes)) ?_ fun r k' hr => ?_
        · apply writeAll_tracks hfile
          · exact fun e => ⟨hashed, hfile, by simp⟩
          · exact ⟨hashed ++ bytes, rfl, by simp⟩
        · obtain ⟨content, hcontent, hok⟩ := hr
          cases r with
          | error e => exact .pure ⟨content, hcontent, by simp⟩
          | ok u =>
            obtain rfl := hok rfl
            have h := ih hcontent
            simpa only [streamBody, List.append_assoc] using h

theorem removeAfter_tracks {f : StagedFile} {Post : Except ReceiptError Unit → CallKnowledge → Prop}
    (hfile : k.temporary = some f) (herror : ∀ e, Post (.error e) k)
    (h : Post (.ok ()) { k with temporary := none }) :
    CallTracks store owner whole Post (do
      return (← onDisk (removeTemporary f.name)).mapError fun _ => .rawStorage) k := by
  have hremove : CallTracks store owner whole
      (fun r k' => Post (r.mapError fun _ => .rawStorage) k') (onDisk (removeTemporary f.name)) k :=
    removeTemporary_tracks hfile (fun e => herror _) h
  exact hremove.bind fun r k' hr => .pure hr

theorem publishOrVerify_tracks (hsha : Function.Injective store.sha256) {name : Uuid}
    {body : List UInt8} {byteSize : Nat} (hfile : k.temporary = some ⟨name, body⟩) :
    CallTracks store owner whole
      (fun r k' => (∀ e, r = .error e → k'.temporary = some ⟨name, body⟩) ∧
        (r = .ok () → k'.stored = some body))
      (publishOrVerify store name (store.sha256 body) byteSize) k := by
  have hidle : ∀ (x : DiskTx Unit) (k' : CallKnowledge),
      (∀ env disk a disk', x.Yields env disk a disk' → disk = disk') →
      CallTracks store owner whole (fun _ k'' => k'' = k') (onDisk x) k' := fun x k' hread =>
    onDisk_idle (fun _ => rfl) (fun _ => rfl) hread
  refine (hidle ensurePrivateDirectory k fun _ _ _ _ h => h.commit).bind ?_
  rintro r _ rfl
  cases r with
  | error e => exact .pure ⟨fun _ _ => hfile, by simp⟩
  | ok u =>
    refine Tracks.bind (Q := fun r k' => k'.temporary = some ⟨name, body⟩ ∧
      (r = .ok .linked → k'.stored = some body)) ?_ fun r k' hr => ?_
    · exact hardLink_tracks hfile (fun e => ⟨hfile, by simp⟩) ⟨hfile, by simp⟩ ⟨hfile, by simp⟩
    · obtain ⟨hfile, hlinked⟩ := hr
      cases r with
      | error e => exact .pure ⟨fun _ _ => hfile, by simp⟩
      | ok result =>
        cases result with
        | linked =>
          refine (hidle syncDirectory k' fun _ _ _ _ h => h.commit).bind ?_
          rintro r _ rfl
          cases r with
          | error e => exact .pure ⟨fun _ _ => hfile, by simp⟩
          | ok u =>
            exact removeAfter_tracks hfile (fun e => ⟨fun _ _ => hfile, by simp⟩)
              ⟨by simp, fun _ => hlinked rfl⟩
        | alreadyExists =>
          refine Tracks.bind (Q := fun r k' => k'.temporary = some ⟨name, body⟩ ∧
            (r = .ok () → k'.stored = some body)) ?_ fun r k' hr => ?_
          · exact verifyExisting_tracks hsha (fun e => ⟨hfile, by simp⟩) ⟨hfile, by simp⟩
          · obtain ⟨hfile, hverified⟩ := hr
            cases r with
            | error e => exact .pure ⟨fun _ _ => hfile, by simp⟩
            | ok u =>
              exact removeAfter_tracks hfile (fun e => ⟨fun _ _ => hfile, by simp⟩)
                ⟨by simp, fun _ => hverified rfl⟩

theorem publishTemporary_tracks (hsha : Function.Injective store.sha256) {name : Uuid}
    {body : List UInt8} {byteSize : Nat} (hfile : k.temporary = some ⟨name, body⟩) :
    CallTracks store owner whole (fun _ k' => k'.stored = some body)
      (publishTemporary store name (store.sha256 body) byteSize) k := by
  refine (publishOrVerify_tracks hsha hfile).bind ?_
  rintro r k ⟨hfile, hstored⟩
  cases r with
  | ok u => exact .pure (hstored rfl)
  | error e =>
    refine Tracks.bind (Q := fun _ k' => k'.temporary = some ⟨name, body⟩) ?_ fun r k hfile => ?_
    · exact onDisk_idle (fun _ => hfile e rfl) (fun _ => hfile e rfl) fun _ _ _ _ h => h.query.2
    cases r with
    | error e' => exact .fail e
    | ok present =>
      cases present with
      | false => exact .fail e
      | true => exact removeThenFail_tracks hfile

theorem storeArchive_tracks (hsha : Function.Injective store.sha256) (chunks : List StreamItem)
    (hfree : k.temporary = none) :
    CallTracks store owner whole
      (fun stored k' => k'.stored = some (streamBody chunks) ∧
        stored = storedArchive (store.sha256 (streamBody chunks)) (streamBody chunks).length)
      (storeArchive store chunks) k := by
  refine Tracks.bind (Q := fun _ k' => k'.temporary = none) ?_ fun _ k hfree => ?_
  · apply orFail_tracks
    exact onDisk_idle (by simp) (by simp [hfree]) fun _ _ _ _ h => h.commit
  refine Tracks.bind (Q := fun name k' => k'.temporary = some ⟨name, []⟩) ?_ fun name k hfile => ?_
  · exact createTemporary_tracks hfree fun name => rfl
  refine (copyAndHash_tracks chunks hfile).bind ?_
  rintro r k ⟨content, hfile, hok⟩
  cases r with
  | error e => exact removeThenFail_tracks hfile
  | ok copied =>
    obtain ⟨digest, byteSize⟩ := copied
    obtain ⟨hcontent, rfl, rfl⟩ := hok digest byteSize rfl
    rw [List.nil_append] at hcontent
    subst hcontent
    refine Tracks.bind (Q := fun _ k' => k'.temporary = some ⟨name, streamBody chunks⟩) ?_
      fun r k hfile => ?_
    · exact onDisk_idle (fun _ => hfile) (fun _ => hfile) fun _ _ _ _ h => h.commit
    cases r with
    | error e => exact removeThenFail_tracks hfile
    | ok u =>
      refine (publishTemporary_tracks hsha hfile).bind ?_
      rintro u k hstored
      exact .pure ⟨hstored, rfl⟩

/-- **A call of `receive` takes no step but those of `ReceiptWrite`.** -/
theorem receive_tracks (hsha : Function.Injective store.sha256) (chunks : List StreamItem)
    (hfree : k.temporary = none) :
    CallTracks store owner (streamBody chunks) (fun _ _ => True)
      (receive store owner chunks) k := by
  refine (storeArchive_tracks hsha chunks hfree).bind ?_
  rintro stored k ⟨hstored, rfl⟩
  refine .emit fun env w outcome w' hk hy => ?_
  obtain ⟨db, hdb, rfl⟩ := hy.zoom
  exact ⟨k, .persisted hstored hdb, ⟨hk.file, hk.object⟩, trivial⟩

end Calls

end InstagramArchive.DataExport

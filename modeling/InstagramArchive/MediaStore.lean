import InstagramArchive.MediaRetention
import InstagramArchive.ReceiptCalls
import InstagramArchive.Relational.Pool

/-!
# The media store under interleaving

Archive calls and erasures run side by side: each of their file operations and statements is a
step of its own, and the database changes in between. A call owns its staging file. An erasure
learns its task, that no row names the object and that the object is gone, each at a step of
its own; nothing keeps the database as it was when the rows were counted.
-/

namespace InstagramArchive

open Relational Relational.Tx Relational.Script

namespace MediaRetention

open DataExport (Disk DiskTx IoError LinkResult StagedFile StoredObject createTemporary writeAll
  syncFile removeTemporary hardLink ensurePrivateDirectory createTemporary_yields)

/-! ## Jobs -/

inductive MediaJob where
  | archive (lease : MediaFetchLease) (response : AcquiredMedia)
      (script : MediaScript MediaStoreError MediaArchiveOutcome)
  | erase (taskId : Uuid) (script : MediaScript SqlError BlobDeletionTaskOutcome)

def MediaJob.advance (env : Env) :
    MediaJob → MediaWorld → MediaJob × MediaWorld × Option StoredBlob
  | archive lease response script, w =>
    (archive lease response (script.advance env () w).1, (script.advance env () w).2)
  | erase taskId script, w => (erase taskId (script.advance env () w).1, (script.advance env () w).2)

/-- The store with the calls and the erasures in flight; the log holds the objects removed. -/
abbrev MediaSystem := Pool MediaWorld StoredBlob MediaJob

inductive MediaAction where
  | beginArchive (lease : MediaFetchLease) (response : AcquiredMedia)
  | beginErase (taskId : Uuid)
  /-- A job takes its next step. -/
  | advance (env : Env) (job : Nat)
  /-- Other transactions of the service. -/
  | others (db : Db)

def mediaStep (lib : Externals) (store : MediaBlobStore) (s : MediaSystem) :
    MediaAction → MediaSystem
  | .beginArchive lease response =>
    s.begin (.archive lease response (archiveAcquiredMedia store lease response))
  | .beginErase taskId => s.begin (.erase taskId (eraseTask lib store taskId))
  | .advance env i => s.advance (MediaJob.advance env) i
  | .others db => { s with store := { s.store with db } }

/-- The system after the actions. -/
def mediaRun (lib : Externals) (store : MediaBlobStore) (actions : List MediaAction) :
    MediaSystem := run (mediaStep lib store) ⟨{}, [], []⟩ actions

/-! ## What a job knows -/

structure MediaKnowledge where
  temporary : Option StagedFile := none
  /-- The digest whose object it linked or read. -/
  seen : Option (List UInt8) := none
  /-- Its task as it read it. -/
  task : Option BlobDeletionTask := none
  /-- The object of its open task, once no row was counted for it. -/
  unreferenced : Option StoredBlob := none
  /-- The object it found no file of. -/
  gone : Option StoredBlob := none

/-- One step of a job, with what the job knows around it. -/
inductive MediaWrite (lib : Externals) (store : MediaBlobStore) (k : MediaKnowledge)
    (w : MediaWorld) : Option StoredBlob → MediaKnowledge → MediaWorld → Prop
  | idle : MediaWrite lib store k w none k w
  | created {name : Uuid} {t : Table StagedFile StagedFile.name}
      (h : w.disk.staging.insert? ⟨name, []⟩ = some t) :
      MediaWrite lib store k w none { k with temporary := some ⟨name, []⟩ }
        { w with disk := { w.disk with staging := t } }
  | written {f : StagedFile} {bytes : List UInt8} (hfile : k.temporary = some f) :
      MediaWrite lib store k w none
        { k with temporary := some { f with content := f.content ++ bytes } }
        { w with disk := w.disk.append f.name bytes }
  | discarded {f : StagedFile} (hfile : k.temporary = some f) :
      MediaWrite lib store k w none { k with temporary := none }
        { w with disk := w.disk.remove f.name }
  | linked {f : StagedFile} {t : Table StoredObject StoredObject.name}
      (hfile : k.temporary = some f)
      (h : w.disk.objects.insert? ⟨hexEncode (store.sha256 f.content), f.content⟩ = some t) :
      MediaWrite lib store k w none { k with seen := some (store.sha256 f.content) }
        { w with disk := { w.disk with objects := t } }
  | verified {digest : List UInt8} (h : (w.disk.objects.lookup (hexEncode digest)).isSome) :
      MediaWrite lib store k w none { k with seen := some digest } w
  | loaded {t : BlobDeletionTask} (h : t ∈ w.db.blobDeletionTasks) :
      MediaWrite lib store k w none { k with task := some t } w
  | counted {t : BlobDeletionTask} (htask : k.task = some t) (hopen : t.complete = false)
      (h : liveReferences lib t.blob w.db = 0) :
      MediaWrite lib store k w none { k with unreferenced := some t.blob } w
  | missed {blob : StoredBlob} (h : w.disk.objects.lookup (hexEncode blob.contentHash) = none) :
      MediaWrite lib store k w none { k with gone := some blob } w
  | erased {blob : StoredBlob} (hcounted : k.unreferenced = some blob)
      (href : blob.blobRef = mediaRef blob.contentHash) :
      MediaWrite lib store k w (some blob) k
        { w with disk := { w.disk with
          objects := w.disk.objects.delete fun o => o.name = hexEncode blob.contentHash } }
  | booked {db : Db} : MediaWrite lib store k w none k { w with db }

/-- The staging file of the job is as the job left it. -/
def MediaKnowledge.Holds (k : MediaKnowledge) (w : MediaWorld) : Prop :=
  ∀ f, k.temporary = some f → w.disk.staging.lookup f.name = some f

def MediaKnowledge.Apart (k g : MediaKnowledge) : Prop :=
  ∀ f f', k.temporary = some f → g.temporary = some f' → f.name ≠ f'.name

section Writes

variable {lib : Externals} {store : MediaBlobStore} {k k' g : MediaKnowledge} {w w' : MediaWorld}
  {event : Option StoredBlob}

/-- A step leaves the staging file of another job alone. -/
theorem MediaWrite.spares (h : MediaWrite lib store k w event k' w') (hg : g.Holds w)
    (hapart : k.Apart g) : g.Holds w' := by
  cases h with
  | created hinsert =>
    intro f hf
    refine (Table.lookup_of_insert? hinsert f.name).trans ?_
    rw [if_neg, hg f hf]
    rintro rfl
    obtain ⟨hmem, -⟩ := Table.lookup_eq_some.mp (hg f hf)
    exact (Table.insert?_eq_some hinsert).2 f hmem rfl
  | written hfile =>
    intro f hf
    refine (Disk.lookup_append _ _ _ _).trans ?_
    rw [hg f hf, Option.map_some, if_neg (hapart _ f hfile hf).symm]
  | discarded hfile =>
    intro f hf
    obtain ⟨hmem, -⟩ := Table.lookup_eq_some.mp (hg f hf)
    refine Table.lookup_mem ((Table.mem_delete _ _ f).mpr ⟨hmem, ?_⟩)
    simpa using (hapart _ f hfile hf).symm
  | _ => exact hg

/-- What a job owns after a step it owned before, or nobody did. -/
theorem MediaWrite.stays_apart (h : MediaWrite lib store k w event k' w') (hg : g.Holds w)
    (hapart : k.Apart g) : k'.Apart g := by
  cases h with
  | created hinsert =>
    rintro f f' hf hf' hname
    cases hf
    obtain ⟨hmem, -⟩ := Table.lookup_eq_some.mp (hg f' hf')
    exact (Table.insert?_eq_some hinsert).2 f' hmem hname.symm
  | written hfile =>
    rintro f f' hf hf' hname
    cases hf
    exact hapart _ f' hfile hf' hname
  | discarded =>
    rintro f f' hf
    cases hf
  | _ => exact hapart

/-- An object is named by its content. -/
theorem MediaWrite.named (h : MediaWrite lib store k w event k' w')
    (hnamed : ∀ o ∈ w.disk.objects, o.name = hexEncode (store.sha256 o.content)) :
    ∀ o ∈ w'.disk.objects, o.name = hexEncode (store.sha256 o.content) := by
  cases h with
  | linked hfile hinsert =>
    intro o ho
    rcases (Table.mem_of_insert? hinsert o).mp ho with ho | rfl
    · exact hnamed o ho
    · rfl
  | erased => exact fun o ho => hnamed o ((Table.mem_delete _ _ o).mp ho).1
  | _ => exact hnamed

/-- Only the object of a counted task is removed. -/
theorem MediaWrite.removes (h : MediaWrite lib store k w event k' w') {blob : StoredBlob}
    (hb : blob ∈ event.toList) :
    blob.blobRef = mediaRef blob.contentHash ∧ k.unreferenced = some blob := by
  cases h with
  | erased hcounted href =>
    obtain rfl := List.mem_singleton.mp hb
    exact ⟨href, hcounted⟩
  | _ => cases hb

/-- An object stays, or an erasure with its digest removed it. -/
theorem MediaWrite.keeps (h : MediaWrite lib store k w event k' w') {digest : List UInt8}
    (ho : (w.disk.objects.lookup (hexEncode digest)).isSome) :
    (w'.disk.objects.lookup (hexEncode digest)).isSome ∨
      ∃ blob ∈ event.toList, blob.contentHash = digest := by
  obtain ⟨o, ho⟩ := Option.isSome_iff_exists.mp ho
  cases h with
  | linked hfile hinsert =>
    left
    rw [Table.lookup_insert?_of_some hinsert ho]
    rfl
  | @erased blob hcounted href =>
    by_cases hsame : blob.contentHash = digest
    · exact Or.inr ⟨blob, List.mem_singleton.mpr rfl, hsame⟩
    · left
      obtain ⟨hmem, hname⟩ := Table.lookup_eq_some.mp ho
      have hkept : o ∈ w.disk.objects.delete fun o => o.name = hexEncode blob.contentHash := by
        refine (Table.mem_delete _ _ o).mpr ⟨hmem, ?_⟩
        rw [decide_eq_false_iff_not, hname]
        exact fun heq => hsame (DataExport.hexEncode_injective heq.symm)
      exact Option.isSome_iff_exists.mpr ⟨o, by rw [← hname]; exact Table.lookup_mem hkept⟩
  | _ => exact Or.inl (Option.isSome_iff_exists.mpr ⟨o, ho⟩)

end Writes

/-! ## Archive calls -/

/-- What a verified response satisfies. -/
structure Verified (store : MediaBlobStore) (lease : MediaFetchLease) (response : AcquiredMedia) :
    Prop where
  https : store.urlScheme response.finalUrl = some "https"
  mime : observedMime response.observedContentType = response.expectedMime.asStr.toList
  budget : response.body.length ≤ lease.maxBytes
  declared : response.body.length = response.declaredBytes
  digest : store.sha256 response.body = response.expectedDigest

theorem verify_eq_none {store : MediaBlobStore} {lease : MediaFetchLease}
    {response : AcquiredMedia} :
    verify store lease response = none ↔ Verified store lease response := by
  constructor
  · intro h
    unfold verify at h
    split_ifs at h with h1 h2 h3 h4 h5
    exact ⟨not_not.mp h1, not_not.mp h2, not_lt.mp h3, not_not.mp h4, not_not.mp h5⟩
  · rintro ⟨h1, h2, h3, h4, h5⟩
    unfold verify
    rw [if_neg (not_not.mpr h1), if_neg (not_not.mpr h2), if_neg (not_lt.mpr h3),
      if_neg (not_not.mpr h4), if_neg (not_not.mpr h5)]

section Tracks

variable {lib : Externals} {store : MediaBlobStore} {k : MediaKnowledge} {ε : Type}

abbrev MediaTracks {α : Type} (lib : Externals) (store : MediaBlobStore)
    (Post : α → MediaKnowledge → Prop) (script : MediaScript ε α) (k : MediaKnowledge) : Prop :=
  script.Tracks MediaKnowledge.Holds (fun k _ => MediaWrite lib store k) Post k

/-- One file operation: it fails without effect, or it does what it yields. -/
theorem onMedia_tracks {α : Type} {x : DiskTx α}
    {Post : Except IoError α → MediaKnowledge → Prop} (herror : ∀ e, Post (.error e) k)
    (h : ∀ env w a disk, k.Holds w → x.Yields env w.disk a disk →
      ∃ k', MediaWrite lib store k w none k' { w with disk } ∧ k'.Holds { w with disk } ∧
        Post (.ok a) k') :
    MediaTracks lib store Post (onMedia x : MediaScript ε (Except IoError α)) k := by
  refine .tx fun env w b w' hk hy => ?_
  rcases hy.attempt with ⟨a, rfl, hx⟩ | ⟨e, rfl, rfl, -⟩
  · obtain ⟨disk, hdisk, rfl⟩ := hx.zoom
    exact h env w a disk hk hdisk
  · exact ⟨k, .idle, hk, herror e⟩

theorem orElse_tracks {α : Type} {x : DiskTx α} {e : ε} {Post : α → MediaKnowledge → Prop}
    (h : MediaTracks lib store (fun r k' => ∀ a, r = .ok a → Post a k')
      (onMedia x : MediaScript ε (Except IoError α)) k) :
    MediaTracks lib store Post (orElse e x) k := by
  refine h.bind fun r k' hr => ?_
  cases r with
  | error e' => exact .fail e
  | ok a => exact hr a rfl

/-- An operation that changes no file. -/
theorem onMedia_commit {x : DiskTx Unit} {Post : Except IoError Unit → MediaKnowledge → Prop}
    (herror : ∀ e, Post (.error e) k) (h : Post (.ok ()) k)
    (hread : ∀ env disk a disk', x.Yields env disk a disk' → disk = disk') :
    MediaTracks lib store Post (onMedia x : MediaScript ε (Except IoError Unit)) k := by
  refine onMedia_tracks herror fun env w a disk hk hy => ?_
  obtain rfl := hread env w.disk a disk hy
  exact ⟨k, .idle, hk, h⟩

theorem ensurePrivateDirectory_tracks {e : ε} {Post : Unit → MediaKnowledge → Prop}
    (h : Post () k) : MediaTracks lib store Post (orElse e ensurePrivateDirectory) k :=
  orElse_tracks (onMedia_commit (by simp) (fun _ _ => h) fun _ _ _ _ hy => hy.commit)

theorem createTemporary_media {e : ε} {Post : Uuid → MediaKnowledge → Prop}
    (h : ∀ name, Post name { k with temporary := some ⟨name, []⟩ }) :
    MediaTracks lib store Post (orElse e createTemporary) k := by
  apply orElse_tracks
  refine onMedia_tracks (by simp) fun env w name disk hk hy => ?_
  obtain ⟨t, ht, rfl⟩ := createTemporary_yields hy
  refine ⟨_, .created ht, ?_, fun a ha => ?_⟩
  · rintro f ⟨⟩
    rw [Table.lookup_of_insert? ht, if_pos rfl]
  · cases ha
    exact h name

theorem writeAll_media {name : Uuid} {content bytes : List UInt8}
    {Post : Except IoError Unit → MediaKnowledge → Prop}
    (hfile : k.temporary = some ⟨name, content⟩) (herror : ∀ e, Post (.error e) k)
    (h : Post (.ok ()) { k with temporary := some ⟨name, content ++ bytes⟩ }) :
    MediaTracks lib store Post (onMedia (writeAll name bytes) : MediaScript ε _) k := by
  refine onMedia_tracks herror fun env w a disk hk hy => ?_
  obtain rfl := hy.execute
  refine ⟨_, .written hfile, ?_, h⟩
  rintro f ⟨⟩
  refine (Disk.lookup_append w.disk name name bytes).trans ?_
  rw [hk _ hfile]
  simp

theorem removeTemporary_media {f : StagedFile} {Post : Except IoError Unit → MediaKnowledge → Prop}
    (hfile : k.temporary = some f) (herror : ∀ e, Post (.error e) k)
    (h : Post (.ok ()) { k with temporary := none }) :
    MediaTracks lib store Post (onMedia (removeTemporary f.name) : MediaScript ε _) k := by
  refine onMedia_tracks herror fun env w a disk hk hy => ?_
  have hy := hy.statement
  split at hy
  · cases hy
  · cases hy
    refine ⟨_, .discarded hfile, ?_, h⟩
    rintro f ⟨⟩

theorem discard_tracks {α : Type} {f : StagedFile} {Post : α → MediaKnowledge → Prop}
    (hfile : k.temporary = some f) : MediaTracks lib store Post (discard f.name) k := by
  refine Tracks.bind (Q := fun _ _ => True) ?_ fun _ _ _ => .fail _
  exact removeTemporary_media hfile (fun _ => trivial) trivial

theorem hardLink_media {name : Uuid} {body : List UInt8}
    {Post : Except IoError LinkResult → MediaKnowledge → Prop}
    (hfile : k.temporary = some ⟨name, body⟩) (herror : ∀ e, Post (.error e) k)
    (hold : Post (.ok .alreadyExists) k)
    (hnew : Post (.ok .linked) { k with seen := some (store.sha256 body) }) :
    MediaTracks lib store Post (onMedia (hardLink name (store.sha256 body)) : MediaScript ε _) k := by
  refine onMedia_tracks herror fun env w a disk hk hy => ?_
  have hy := hy.statement
  rw [hk _ hfile] at hy
  cases ht : w.disk.objects.insert? ⟨hexEncode (store.sha256 body), body⟩ with
  | none =>
    simp only [ht] at hy
    cases hy
    exact ⟨k, .idle, hk, hold⟩
  | some t =>
    simp only [ht] at hy
    cases hy
    exact ⟨_, .linked hfile ht, hk, hnew⟩

/-- An object that is read stands. -/
theorem readObject_media {e : ε} {digest : List UInt8} {Post : List UInt8 → MediaKnowledge → Prop}
    (h : ∀ content, Post content { k with seen := some digest }) :
    MediaTracks lib store Post (orElse e (readObject (hexEncode digest))) k := by
  apply orElse_tracks
  refine onMedia_tracks (by simp) fun env w content disk hk hy => ?_
  have hy := hy.statement
  cases hlookup : w.disk.objects.lookup (hexEncode digest) with
  | none =>
    rw [hlookup] at hy
    cases hy
  | some o =>
    rw [hlookup] at hy
    cases hy
    refine ⟨_, .verified (by rw [hlookup]; rfl), hk, fun a ha => ?_⟩
    cases ha
    exact h _

theorem publish_tracks {name : Uuid} {body : List UInt8}
    (hfile : k.temporary = some ⟨name, body⟩) :
    MediaTracks lib store (fun _ k' => k'.seen = some (store.sha256 body))
      (publish store name (store.sha256 body)) k := by
  refine Tracks.bind (Q := fun r k' => k'.temporary = some ⟨name, body⟩ ∧
    (r = .ok .linked → k'.seen = some (store.sha256 body))) ?_ fun r k' hr => ?_
  · exact hardLink_media hfile (fun e => ⟨hfile, by simp⟩) ⟨hfile, by simp⟩ ⟨hfile, fun _ => rfl⟩
  obtain ⟨hfile, hlinked⟩ := hr
  have hremove : ∀ {Q : Unit → MediaKnowledge → Prop}, Q () { k' with temporary := none } →
      MediaTracks lib store Q (orElse MediaStoreError.storage (removeTemporary name)) k' := by
    intro Q hQ
    apply orElse_tracks
    exact removeTemporary_media hfile (by simp) fun _ _ => hQ
  cases r with
  | error e => exact discard_tracks hfile
  | ok result =>
    cases result with
    | linked => exact hremove (hlinked rfl)
    | alreadyExists =>
      refine Tracks.bind (Q := fun _ _ => True) (hremove trivial) fun _ k' _ => ?_
      refine Tracks.bind (Q := fun _ k' => k'.seen = some (store.sha256 body)) ?_
        fun existing k' hseen => ?_
      · exact readObject_media fun _ => rfl
      · split
        · exact .fail _
        · exact .pure hseen

theorem storeBody_tracks (body : List UInt8) :
    MediaTracks lib store (fun _ k' => k'.seen = some (store.sha256 body))
      (storeBody store body) k := by
  refine Tracks.bind (Q := fun _ _ => True) (ensurePrivateDirectory_tracks trivial) fun _ k _ => ?_
  refine Tracks.bind (Q := fun _ _ => True) (ensurePrivateDirectory_tracks trivial) fun _ k _ => ?_
  refine Tracks.bind (Q := fun name k' => k'.temporary = some ⟨name, []⟩) ?_ fun name k hfile => ?_
  · exact createTemporary_media fun name => rfl
  refine Tracks.bind (Q := fun r k' => ∃ content, k'.temporary = some ⟨name, content⟩ ∧
    (r = .ok () → content = body)) ?_ fun r k hr => ?_
  · exact writeAll_media hfile (fun e => ⟨[], hfile, by simp⟩) ⟨body, rfl, fun _ => rfl⟩
  obtain ⟨content, hfile, hcontent⟩ := hr
  cases r with
  | error e => exact discard_tracks hfile
  | ok u =>
    obtain rfl := hcontent rfl
    refine Tracks.bind (Q := fun _ k' => k'.temporary = some ⟨name, content⟩) ?_ fun r k hfile => ?_
    · exact onMedia_commit (fun _ => hfile) hfile fun _ _ _ _ hy => hy.commit
    cases r with
    | error e => exact discard_tracks hfile
    | ok u => exact publish_tracks hfile

/-- An archived answer is the evidence of a verified body whose object the call saw. -/
def Archived (store : MediaBlobStore) (lease : MediaFetchLease) (response : AcquiredMedia)
    (media : ArchivedMedia) : Prop :=
  Verified store lease response ∧ response.body.length ≤ i64Max ∧ media = evidence store response

/-- An archived body is one the policy granted, within both of its budgets. -/
structure Granted (input : MediaPolicyInput) (lease : MediaFetchLease) (media : ArchivedMedia) :
    Prop where
  admits : input.Admits lease
  object : media.byteSize ≤ input.maxObjectBytes
  owner : ∃ remaining, input.ownerRemainingBytes = some remaining ∧ media.byteSize ≤ remaining

/-- The lease of an archived answer, where the policy hands it to the fetch. -/
theorem Archived.granted {lease : MediaFetchLease} {response : AcquiredMedia}
    {media : ArchivedMedia} (h : Archived store lease response media) {input : MediaPolicyInput}
    (hlease : lease ∈ (observeMedia input).2) : Granted input lease media := by
  obtain ⟨hverified, -, rfl⟩ := h
  have hadmits : input.Admits lease := by
    apply observeMedia_archive_iff.mp
    rcases observeMedia_fetches input with ⟨granted, hfetch⟩ | ⟨reason, hfetch⟩
    · rw [hfetch] at hlease ⊢
      rw [List.mem_singleton.mp hlease]
    · rw [hfetch] at hlease
      cases hlease
  obtain ⟨remaining, howner, hremaining⟩ := hadmits.owner
  exact ⟨hadmits, hverified.budget.trans hadmits.object, remaining, howner,
    hverified.budget.trans hremaining⟩

theorem archive_tracks (lease : MediaFetchLease) (response : AcquiredMedia) :
    MediaTracks lib store (fun outcome k' => ∀ media, outcome = .archived media →
        Archived store lease response media ∧ k'.seen = some (store.sha256 response.body))
      (archiveAcquiredMedia store lease response) k := by
  unfold archiveAcquiredMedia
  cases hverify : verify store lease response with
  | some reason => exact .pure fun media h => by cases h
  | none =>
    refine (storeBody_tracks response.body).bind fun _ k' hseen => ?_
    split
    · exact .fail _
    · rename_i hlength
      refine .pure fun media h => ?_
      cases h
      exact ⟨⟨verify_eq_none.mp hverify, not_lt.mp hlength, rfl⟩, hseen⟩

end Tracks

/-! ## Erasures -/

section Erasures

variable {lib : Externals} {store : MediaBlobStore} {k : MediaKnowledge} {ε : Type}

/-- The job still has the task and the count it had. -/
def SameTask (k k' : MediaKnowledge) : Prop :=
  k'.task = k.task ∧ k'.unreferenced = k.unreferenced

theorem objectExists_tracks {blob : StoredBlob} {Post : Except IoError Bool → MediaKnowledge → Prop}
    (herror : ∀ e, Post (.error e) k) (hthere : Post (.ok true) k)
    (hgone : Post (.ok false) { k with gone := some blob }) :
    MediaTracks lib store Post
      (onMedia (objectExists (hexEncode blob.contentHash)) : MediaScript ε _) k := by
  refine onMedia_tracks herror fun env w a disk hk hy => ?_
  obtain ⟨rfl, rfl⟩ := hy.query
  cases hlookup : w.disk.objects.lookup (hexEncode blob.contentHash) with
  | none => exact ⟨_, .missed hlookup, hk, hgone⟩
  | some o => exact ⟨k, .idle, hk, hthere⟩

theorem removing_tracks {blob : StoredBlob} {Post : Except IoError Unit → MediaKnowledge → Prop}
    (hcounted : k.unreferenced = some blob) (href : blob.blobRef = mediaRef blob.contentHash)
    (h : ∀ r, Post r k) :
    MediaTracks lib store Post (removing blob : MediaScript ε (Except IoError Unit)) k := by
  refine .emit fun env w b w' hk hy => ?_
  rcases hy.attempt with ⟨a, rfl, hx⟩ | ⟨e, rfl, rfl, -⟩
  · obtain ⟨disk, hdisk, rfl⟩ := hx.zoom
    have hdisk := hdisk.statement
    split at hdisk
    · cases hdisk
    · cases hdisk
      exact ⟨k, .erased hcounted href, hk, h _⟩
  · exact ⟨k, .idle, hk, h _⟩

/-- A deletion that succeeds has found no file. -/
theorem deleteIfMatches_tracks {blob : StoredBlob} (hcounted : k.unreferenced = some blob) :
    MediaTracks lib store
      (fun r k' => SameTask k k' ∧ (r = .ok () → k'.gone = some blob))
      (deleteIfMatches store blob : MediaScript ε (Except BlobDeletionFailure Unit)) k := by
  have hsame : SameTask k k := ⟨rfl, rfl⟩
  have hread : ∀ {Post : Except IoError (List UInt8) → MediaKnowledge → Prop},
      (∀ r, Post r k) → MediaTracks lib store Post
        (onMedia (readObject (hexEncode blob.contentHash)) : MediaScript ε _) k := by
    intro Post h
    refine onMedia_tracks (fun e => h _) fun env w content disk hk hy => ?_
    have hy := hy.statement
    split at hy
    · cases hy
    · cases hy
      exact ⟨k, .idle, hk, h _⟩
  unfold deleteIfMatches
  split
  · exact .pure ⟨hsame, by simp⟩
  rename_i href
  have hexists : MediaTracks lib store (fun r k' => r = .ok false ∧ k' = { k with gone := some blob } ∨
      r ≠ .ok false ∧ k' = k)
      (onMedia (objectExists (hexEncode blob.contentHash)) : MediaScript ε _) k :=
    objectExists_tracks (fun _ => Or.inr ⟨by simp, rfl⟩) (Or.inr ⟨by simp, rfl⟩)
      (Or.inl ⟨rfl, rfl⟩)
  refine hexists.bind ?_
  rintro r k' (⟨rfl, rfl⟩ | ⟨hne, rfl⟩)
  · exact .pure ⟨⟨rfl, rfl⟩, fun _ => rfl⟩
  cases r with
  | error e => exact .pure ⟨hsame, by simp⟩
  | ok there =>
    cases there with
    | false => exact (hne rfl).elim
    | true =>
      refine Tracks.bind (Q := fun _ g => g = k') (hread fun _ => rfl) ?_
      rintro r k rfl
      cases r with
      | error e => exact .pure ⟨hsame, by simp⟩
      | ok bytes =>
        dsimp only
        split
        · exact .pure ⟨hsame, by simp⟩
        refine Tracks.bind (Q := fun _ g => g = k) ?_ ?_
        · exact removing_tracks hcounted (not_not.mp href) fun _ => rfl
        rintro r k rfl
        cases r with
        | error e => exact .pure ⟨hsame, by simp⟩
        | ok u =>
          refine hexists.bind ?_
          rintro r g (⟨rfl, rfl⟩ | ⟨hne, rfl⟩)
          · exact .pure ⟨⟨rfl, rfl⟩, fun _ => rfl⟩
          · split
            · exact (hne rfl).elim
            · exact .pure ⟨hsame, by simp⟩

/-- A completed erasure found its task complete, or counted no row of its object and then
found no file of it. -/
def Erased (taskId : Uuid) (outcome : BlobDeletionTaskOutcome) (k : MediaKnowledge) : Prop :=
  outcome = .complete → ∃ t, k.task = some t ∧ t.taskId = taskId ∧
    (t.complete = true ∨ k.unreferenced = some t.blob ∧ k.gone = some t.blob)

/-- The statement that books a result, if there is one. -/
theorem booking_tracks {Post : BlobDeletionTaskOutcome → MediaKnowledge → Prop}
    {x : Tx Db SqlError Unit} {outcome : BlobDeletionTaskOutcome} (h : Post outcome k) :
    MediaTracks lib store Post
      ((tx x >>= fun _ => pure outcome : BlobScript BlobDeletionTaskOutcome).handle MediaWorld.db
        (fun w db => { w with db }) Empty.elim (deleteIfMatches store)) k :=
  Tracks.handle_tx fun _ _ _ _ hk _ => ⟨k, .booked, hk, .handle_pure h⟩

theorem recordBlobFailure_tracks {Post : BlobDeletionTaskOutcome → MediaKnowledge → Prop}
    {operationId : Option Uuid} {outcome : BlobDeletionTaskOutcome} (h : Post outcome k) :
    MediaTracks lib store Post
      ((recordBlobFailure operationId >>= fun _ => pure outcome :
        BlobScript BlobDeletionTaskOutcome).handle MediaWorld.db (fun w db => { w with db })
        Empty.elim (deleteIfMatches store)) k := by
  cases operationId with
  | none => exact .handle_pure h
  | some operationId => exact booking_tracks h

theorem finishOperation_tracks {Post : BlobDeletionTaskOutcome → MediaKnowledge → Prop}
    {operationId : Option Uuid} {outcome : BlobDeletionTaskOutcome} (h : Post outcome k) :
    MediaTracks lib store Post
      ((finishOperation operationId >>= fun _ => pure outcome :
        BlobScript BlobDeletionTaskOutcome).handle MediaWorld.db (fun w db => { w with db })
        Empty.elim (deleteIfMatches store)) k := by
  cases operationId with
  | none => exact .handle_pure h
  | some operationId => exact booking_tracks h

theorem eraseTask_tracks (taskId : Uuid) :
    MediaTracks lib store (Erased taskId) (eraseTask lib store taskId) k := by
  refine Tracks.handle_tx fun env w t db hk hy => ?_
  obtain ⟨hlookup, rfl⟩ := hy.fetchOne
  obtain ⟨hmem, hid⟩ := Table.lookup_eq_some.mp hlookup
  refine ⟨{ k with task := some t }, .loaded hmem, hk, ?_⟩
  cases hdone : t.complete with
  | true => exact .handle_pure fun _ => ⟨t, rfl, hid, Or.inl hdone⟩
  | false =>
    refine Tracks.handle_tx fun env w live db hk hy => ?_
    obtain ⟨rfl, rfl⟩ := hy.query
    by_cases hlive : liveReferences lib t.blob w.db > 0
    · refine ⟨_, .idle, hk, ?_⟩
      rw [if_pos hlive]
      exact recordBlobFailure_tracks fun h => by cases h
    · refine ⟨_, .counted rfl hdone (by omega), hk, ?_⟩
      rw [if_neg hlive]
      refine Tracks.handle_request (deleteIfMatches_tracks rfl) ?_
      rintro r k' ⟨⟨htask, hcounted⟩, hgone⟩
      cases r with
      | error failure => exact recordBlobFailure_tracks fun h => by cases h
      | ok u =>
        refine Tracks.handle_tx fun env w _ db hk _ => ⟨k', .booked, hk, ?_⟩
        refine finishOperation_tracks fun _ => ⟨t, htask, hid, Or.inr ⟨hcounted, hgone rfl⟩⟩

end Erasures

/-! ## The discipline -/

def MediaJob.Keeps (lib : Externals) (store : MediaBlobStore) :
    MediaJob → MediaKnowledge → Prop
  | archive lease response script, k =>
    MediaTracks lib store (fun outcome k' => ∀ media, outcome = .archived media →
      Archived store lease response media ∧ k'.seen = some (store.sha256 response.body)) script k
  | erase taskId script, k => MediaTracks lib store (Erased taskId) script k

def mediaDiscipline (lib : Externals) (store : MediaBlobStore) :
    Discipline MediaWorld StoredBlob MediaKnowledge MediaJob where
  start := {}
  Holds := MediaKnowledge.Holds
  Apart := MediaKnowledge.Apart
  Writes := MediaWrite lib store
  Keeps := MediaJob.Keeps lib store
  start_holds _ := by rintro f ⟨⟩
  apart_symm h f f' hf hf' := (h f' f hf' hf).symm
  start_apart _ := by rintro f f' ⟨⟩
  spares h hg hapart := h.spares hg hapart
  stays_apart h hg hapart := h.stays_apart hg hapart

section Discipline

variable {lib : Externals} {store : MediaBlobStore}

theorem mediaTracks_advance {ε α : Type} {Post : α → MediaKnowledge → Prop}
    {script : MediaScript ε α} {k : MediaKnowledge} {w : MediaWorld}
    (h : MediaTracks lib store Post script k) (hk : k.Holds w) (env : Env) :
    ∃ k', MediaWrite lib store k w (script.advance env () w).2.2 k' (script.advance env () w).2.1 ∧
      k'.Holds (script.advance env () w).2.1 ∧
      MediaTracks lib store Post (script.advance env () w).1 k' := by
  obtain ⟨k', hstep, hk', hnext⟩ := h.advance hk env ()
  rcases hstep with ⟨heq, rfl⟩ | hstep
  · rw [heq] at hk' ⊢
    exact ⟨k', .idle, hk', hnext⟩
  · exact ⟨k', hstep, hk', hnext⟩

theorem mediaJob_follows (env : Env) :
    (mediaDiscipline lib store).Follows (MediaJob.advance env) := by
  intro job k w hkeeps hk
  cases job with
  | archive lease response script => exact mediaTracks_advance hkeeps hk env
  | erase taskId script => exact mediaTracks_advance hkeeps hk env

end Discipline

/-! ## The system -/

/-- At some point of the run, `P`. -/
def Once (lib : Externals) (store : MediaBlobStore) (P : MediaWorld → Prop)
    (actions : List MediaAction) : Prop :=
  ∃ before, before <+: actions ∧ P (mediaRun lib store before).store

def Stands (s : MediaSystem) (digest : List UInt8) : Prop :=
  (s.store.disk.objects.lookup (hexEncode digest)).isSome

/-- A step after `before` erased the object. -/
def ErasedSince (lib : Externals) (store : MediaBlobStore) (before actions : List MediaAction)
    (digest : List UInt8) : Prop :=
  ∃ between a, before ++ between ++ [a] <+: actions ∧ ∃ blob, blob.contentHash = digest ∧
    (mediaRun lib store (before ++ between ++ [a])).log =
      (mediaRun lib store (before ++ between)).log ++ [blob]

/-- The object stood at a point when job `i` had begun, and it stands or was erased since. -/
def Kept (lib : Externals) (store : MediaBlobStore) (actions : List MediaAction) (i : Nat)
    (digest : List UInt8) : Prop :=
  ∃ before, before <+: actions ∧ i < (mediaRun lib store before).jobs.length ∧
    Stands (mediaRun lib store before) digest ∧
    (Stands (mediaRun lib store actions) digest ∨ ErasedSince lib store before actions digest)

/-- A task for the object was open at some point, and at some point no row named it. -/
def Doomed (lib : Externals) (store : MediaBlobStore) (actions : List MediaAction)
    (blob : StoredBlob) : Prop :=
  Once lib store (fun w => ∃ t ∈ w.db.blobDeletionTasks, t.complete = false ∧ t.blob = blob)
      actions ∧
    Once lib store (fun w => liveReferences lib blob w.db = 0) actions

/-- Where what job `i` knows comes from. -/
structure MediaKnowledge.Founded (lib : Externals) (store : MediaBlobStore)
    (actions : List MediaAction) (i : Nat) (k : MediaKnowledge) : Prop where
  seen : ∀ digest, k.seen = some digest → Kept lib store actions i digest
  task : ∀ t, k.task = some t → Once lib store (fun w => t ∈ w.db.blobDeletionTasks) actions
  unreferenced : ∀ blob, k.unreferenced = some blob → Doomed lib store actions blob
  gone : ∀ blob, k.gone = some blob → Once lib store
    (fun w => w.disk.objects.lookup (hexEncode blob.contentHash) = none) actions

/-- What holds of every run. -/
structure MediaSound (lib : Externals) (store : MediaBlobStore) (actions : List MediaAction)
    (know : Nat → MediaKnowledge) : Prop where
  jobs : (mediaDiscipline lib store).Sound know (mediaRun lib store actions)
  founded : ∀ i, (know i).Founded lib store actions i
  named : ∀ o ∈ (mediaRun lib store actions).store.disk.objects,
    o.name = hexEncode (store.sha256 o.content)
  removed : ∀ blob ∈ (mediaRun lib store actions).log,
    blob.blobRef = mediaRef blob.contentHash ∧ Doomed lib store actions blob

section Runs

variable {lib : Externals} {store : MediaBlobStore} {actions : List MediaAction}
  {a : MediaAction} {P : MediaWorld → Prop} {k k' : MediaKnowledge} {i : Nat}

theorem Once.now (h : P (mediaRun lib store actions).store) : Once lib store P actions :=
  ⟨actions, List.prefix_rfl, h⟩

theorem Once.later (h : Once lib store P actions) : Once lib store P (actions ++ [a]) := by
  obtain ⟨before, hprefix, hP⟩ := h
  exact ⟨before, hprefix.trans (List.prefix_append _ _), hP⟩

theorem Doomed.later {blob : StoredBlob} (h : Doomed lib store actions blob) :
    Doomed lib store (actions ++ [a]) blob := ⟨h.1.later, h.2.later⟩

theorem mediaRun_concat (actions : List MediaAction) (a : MediaAction) :
    mediaRun lib store (actions ++ [a]) = mediaStep lib store (mediaRun lib store actions) a :=
  run_concat _ _ _ _

/-- A step keeps the object or erases it. -/
def Spares (lib : Externals) (store : MediaBlobStore) (actions : List MediaAction)
    (a : MediaAction) : Prop :=
  ∀ digest, Stands (mediaRun lib store actions) digest →
    Stands (mediaRun lib store (actions ++ [a])) digest ∨ ∃ blob, blob.contentHash = digest ∧
      (mediaRun lib store (actions ++ [a])).log = (mediaRun lib store actions).log ++ [blob]

theorem Kept.later {digest : List UInt8} (h : Kept lib store actions i digest)
    (hspares : Spares lib store actions a) : Kept lib store (actions ++ [a]) i digest := by
  obtain ⟨before, hprefix, hbegun, hstood, hnow | ⟨between, b, hearlier, herased⟩⟩ := h
  · refine ⟨before, hprefix.trans (List.prefix_append _ _), hbegun, hstood, ?_⟩
    rcases hspares digest hnow with hstands | ⟨blob, hsame, hlog⟩
    · exact Or.inl hstands
    · obtain ⟨between, rfl⟩ := hprefix
      exact Or.inr ⟨between, a, List.prefix_rfl, blob, hsame, hlog⟩
  · exact ⟨before, hprefix.trans (List.prefix_append _ _), hbegun, hstood,
      Or.inr ⟨between, b, hearlier.trans (List.prefix_append _ _), herased⟩⟩

/-- What a job knows stays founded as long as objects are kept. -/
theorem MediaKnowledge.Founded.later (h : k.Founded lib store actions i)
    (hspares : Spares lib store actions a) : k.Founded lib store (actions ++ [a]) i where
  seen digest hd := (h.seen digest hd).later hspares
  task t ht := (h.task t ht).later
  unreferenced blob hb := (h.unreferenced blob hb).later
  gone blob hb := (h.gone blob hb).later

/-- The job's own step founds what it learns. -/
theorem MediaKnowledge.Founded.writes (h : k.Founded lib store actions i)
    {event : Option StoredBlob}
    (hwrite : MediaWrite lib store k (mediaRun lib store actions).store event k'
      (mediaRun lib store (actions ++ [a])).store)
    (hspares : Spares lib store actions a)
    (hbegun : i < (mediaRun lib store actions).jobs.length)
    (hlength : (mediaRun lib store (actions ++ [a])).jobs.length =
      (mediaRun lib store actions).jobs.length) :
    k'.Founded lib store (actions ++ [a]) i := by
  have hlater := h.later hspares
  generalize hw' : (mediaRun lib store (actions ++ [a])).store = w' at hwrite
  cases hwrite with
  | @linked f t hfile hinsert =>
    refine { hlater with seen := fun digest hd => ?_ }
    cases hd
    have hstands : Stands (mediaRun lib store (actions ++ [a])) (store.sha256 f.content) := by
      unfold Stands
      rw [hw']
      exact Option.isSome_iff_exists.mpr ⟨_, (Table.lookup_of_insert? hinsert _).trans (if_pos rfl)⟩
    exact ⟨_, List.prefix_rfl, hlength ▸ hbegun, hstands, Or.inl hstands⟩
  | verified hsome =>
    refine { hlater with seen := fun digest hd => ?_ }
    cases hd
    exact Kept.later ⟨_, List.prefix_rfl, hbegun, hsome, Or.inl hsome⟩ hspares
  | loaded hmem =>
    refine { hlater with task := fun t ht => ?_ }
    cases ht
    exact (Once.now hmem).later
  | @counted t htask hopen hzero =>
    refine { hlater with unreferenced := fun blob hb => ?_ }
    cases hb
    obtain ⟨before, hprefix, hmem⟩ := hlater.task t htask
    exact ⟨⟨before, hprefix, t, hmem, hopen, rfl⟩, (Once.now hzero).later⟩
  | missed hnone =>
    refine { hlater with gone := fun blob hb => ?_ }
    cases hb
    exact (Once.now hnone).later
  | _ => exact { hlater with }

/-- **One step of a job keeps the run sound.** -/
theorem MediaSound.advance {know : Nat → MediaKnowledge} (h : MediaSound lib store actions know)
    (env : Env) (i : Nat) : ∃ know', MediaSound lib store (actions ++ [.advance env i]) know' := by
  have hrun : mediaRun lib store (actions ++ [.advance env i]) =
      (mediaRun lib store actions).advance (MediaJob.advance env) i := mediaRun_concat _ _
  cases hi : (mediaRun lib store actions).jobs[i]? with
  | none =>
    have hsame : mediaRun lib store (actions ++ [.advance env i]) = mediaRun lib store actions := by
      rw [hrun]
      simp only [Pool.advance, hi]
    refine ⟨know, ?_⟩
    constructor
    · rw [hsame]
      exact h.jobs
    · exact fun j => (h.founded j).later fun digest hd => Or.inl (by rwa [hsame])
    · rw [hsame]
      exact h.named
    · rw [hsame]
      exact fun blob hb => ⟨(h.removed blob hb).1, (h.removed blob hb).2.later⟩
  | some job =>
    obtain ⟨k', hwrites, hsound⟩ := h.jobs.advance (mediaJob_follows env) hi
    have hstate : (mediaRun lib store (actions ++ [.advance env i])).store =
        (job.advance env (mediaRun lib store actions).store).2.1 := by
      rw [hrun]
      simp only [Pool.advance, hi]
    have hlog : (mediaRun lib store (actions ++ [.advance env i])).log =
        (mediaRun lib store actions).log ++
          (job.advance env (mediaRun lib store actions).store).2.2.toList := by
      rw [hrun]
      simp only [Pool.advance, hi]
    have hwrite : MediaWrite lib store (know i) (mediaRun lib store actions).store
        (job.advance env (mediaRun lib store actions).store).2.2 k'
        (mediaRun lib store (actions ++ [.advance env i])).store := by
      rw [hstate]
      exact hwrites
    have hspares : Spares lib store actions (.advance env i) := by
      intro digest hstands
      rcases hwrite.keeps hstands with hstands | ⟨blob, hmem, hsame⟩
      · exact Or.inl hstands
      · rw [Option.mem_toList] at hmem
        exact Or.inr ⟨blob, hsame, by rw [hlog, hmem, Option.toList_some]⟩
    have hbegun : i < (mediaRun lib store actions).jobs.length :=
      (List.getElem?_eq_some_iff.mp hi).1
    have hlength : (mediaRun lib store (actions ++ [.advance env i])).jobs.length =
        (mediaRun lib store actions).jobs.length := by
      rw [hrun]
      simp only [Pool.advance, hi, List.length_set]
    refine ⟨Function.update know i k', ?_⟩
    constructor
    case jobs =>
      rw [hrun]
      exact hsound
    case founded =>
      intro j
      by_cases hj : j = i
      · rw [hj, Function.update_self]
        exact (h.founded i).writes hwrite hspares hbegun hlength
      · rw [Function.update_of_ne hj]
        exact (h.founded j).later hspares
    case named => exact hwrite.named h.named
    case removed =>
      intro blob hb
      rw [hlog] at hb
      rcases List.mem_append.mp hb with hold | hnew
      · exact ⟨(h.removed blob hold).1, (h.removed blob hold).2.later⟩
      · obtain ⟨href, hcounted⟩ := hwrite.removes hnew
        exact ⟨href, ((h.founded i).unreferenced _ hcounted).later⟩

/-- A step that leaves the files alone keeps the run sound. -/
theorem MediaSound.same {know : Nat → MediaKnowledge} (h : MediaSound lib store actions know)
    (hjobs : (mediaDiscipline lib store).Sound know (mediaRun lib store (actions ++ [a])))
    (hdisk : (mediaRun lib store (actions ++ [a])).store.disk =
      (mediaRun lib store actions).store.disk)
    (hlog : (mediaRun lib store (actions ++ [a])).log = (mediaRun lib store actions).log) :
    MediaSound lib store (actions ++ [a]) know where
  jobs := hjobs
  founded i := (h.founded i).later fun digest hd => Or.inl (by
    unfold Stands
    rwa [hdisk])
  named := by
    rw [hdisk]
    exact h.named
  removed := by
    rw [hlog]
    exact fun blob hb => ⟨(h.removed blob hb).1, (h.removed blob hb).2.later⟩

theorem mediaSound (lib : Externals) (store : MediaBlobStore) (actions : List MediaAction) :
    ∃ know, MediaSound lib store actions know := by
  induction actions using List.reverseRecOn with
  | nil =>
    exact ⟨fun _ => {}, Discipline.Sound.init _, fun i => ⟨by simp, by simp, by simp, by simp⟩,
      by simp [mediaRun], by simp [mediaRun]⟩
  | append_singleton actions a ih =>
    obtain ⟨know, h⟩ := ih
    have hrun : mediaRun lib store (actions ++ [a]) =
        mediaStep lib store (mediaRun lib store actions) a := mediaRun_concat actions a
    cases a with
    | beginArchive lease response =>
      refine ⟨know, h.same ?_ (by rw [hrun]; rfl) (by rw [hrun]; rfl)⟩
      rw [hrun]
      exact h.jobs.begin (archive_tracks lease response)
    | beginErase taskId =>
      refine ⟨know, h.same ?_ (by rw [hrun]; rfl) (by rw [hrun]; rfl)⟩
      rw [hrun]
      exact h.jobs.begin (eraseTask_tracks taskId)
    | advance env i => exact h.advance env i
    | others db =>
      refine ⟨know, h.same ?_ (by rw [hrun]; rfl) (by rw [hrun]; rfl)⟩
      rw [hrun]
      exact h.jobs.others h.jobs.holds

/-- **Stored media in every interleaving.** Objects stand under the digest of their content and
leave only by an erasure of their digest whose task was open and whose object no row named at
some earlier point; an archived answer is the evidence of a response that was verified within
its lease and, where the policy granted that lease, within both budgets, and its object, there
once the call had begun, stands unless it was erased later; a completed erasure found its task
complete before, or its object unreferenced and without a file; and an expiry plan gives up an
object only if no row names it once the expiring row is gone. -/
theorem media_store_run (lib : Externals) (store : MediaBlobStore) (actions : List MediaAction) :
    (∀ o ∈ (mediaRun lib store actions).store.disk.objects,
      o.name = hexEncode (store.sha256 o.content)) ∧
    (∀ blob ∈ (mediaRun lib store actions).log, blob.blobRef = mediaRef blob.contentHash ∧
      Doomed lib store actions blob) ∧
    (∀ (i : Nat) lease response media, (mediaRun lib store actions).jobs[i]? =
        some (MediaJob.archive lease response (.finish (.ok (.archived media)))) →
      Archived store lease response media ∧ Kept lib store actions i media.contentHash ∧
        ∀ input, lease ∈ (observeMedia input).2 → Granted input lease media) ∧
    (∀ (i : Nat) taskId, (mediaRun lib store actions).jobs[i]? =
        some (MediaJob.erase taskId (.finish (.ok .complete))) →
      ∃ t, t.taskId = taskId ∧ Once lib store (fun w => t ∈ w.db.blobDeletionTasks) actions ∧
        (t.complete = true ∨ Doomed lib store actions t.blob ∧ Once lib store
          (fun w => w.disk.objects.lookup (hexEncode t.blob.contentHash) = none) actions)) ∧
    ∀ mediaId env blobRef contentHash db, (planMediaReferenceExpiry lib mediaId).Yields env
        (mediaRun lib store actions).store.db (.scheduleDelete blobRef contentHash) db →
      db = (mediaRun lib store actions).store.db ∧
        ∀ byteSize, liveReferences lib ⟨blobRef, contentHash, byteSize⟩
          { db with media := db.media.delete fun m => m.mediaId = mediaId } = 0 := by
  obtain ⟨know, h⟩ := mediaSound lib store actions
  refine ⟨h.named, h.removed, ?_, ?_, ?_⟩
  · intro i lease response media hi
    obtain ⟨harchived, hseen⟩ := h.jobs.keeps i _ hi media rfl
    refine ⟨harchived, ?_, fun input hlease => harchived.granted hlease⟩
    rw [harchived.2.2]
    exact (h.founded i).seen _ hseen
  · intro i taskId hi
    obtain ⟨t, htask, hid, hcause⟩ := h.jobs.keeps i _ hi rfl
    refine ⟨t, hid, (h.founded i).task t htask, ?_⟩
    rcases hcause with hdone | ⟨hcounted, hgone⟩
    · exact Or.inl hdone
    · exact Or.inr ⟨(h.founded i).unreferenced _ hcounted, (h.founded i).gone _ hgone⟩
  · intro mediaId env blobRef contentHash db hplan
    obtain ⟨rfl, hother, -⟩ := planMediaReferenceExpiry_scheduleDelete hplan
    exact ⟨rfl, fun byteSize => liveReferences_eq_zero_of_expired hother byteSize⟩

end Runs

end MediaRetention

end InstagramArchive

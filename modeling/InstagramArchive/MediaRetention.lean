import InstagramArchive.DataExportReceipt
import InstagramArchive.Service

/-!
# Retention of provider media

Bytes of a provider are only fetched under a lease that the retention policy grants, are
verified against the lease and the authorized observation, and are stored under their digest.
The store erases an object on request only if its reference, digest and length are those of the
request. As for archives, every file operation is a step of its own.
-/

namespace InstagramArchive

open Relational Relational.Tx Relational.Script

namespace MediaRetention

open DataExport (Disk DiskTx IoError LinkResult createTemporary writeAll syncFile removeTemporary
  hardLink ensurePrivateDirectory)

/-! ## Policy -/

/-- Why an observation remains metadata-only. -/
inductive MetadataOnlyReason where
  | policyNotAuthorized
  | acquisitionNotEligible
  | rightsUnknown
  | explicitActionRequired
  | httpsRequired
  | kindUnknown
  | mimeUnknown
  | urlLifetimeUnknown
  | objectSizeUnknown
  | objectBudgetExceeded
  | ownerBudgetUnknown
  | ownerBudgetExceeded
  deriving DecidableEq, Repr

/-- Immutable finite permission to begin one media fetch. -/
structure MediaFetchLease where
  maxBytes : Nat
  deriving DecidableEq, Repr

inductive MediaRetentionDecision where
  | metadataOnly (reason : MetadataOnlyReason)
  | archive (lease : MediaFetchLease)
  deriving DecidableEq, Repr

/-- Inputs required before provider-media bytes may be requested. -/
structure MediaPolicyInput where
  archiveRequested : Bool
  acquisitionEligible : Bool
  rightsConfirmed : Option Bool
  urlIsHttps : Option Bool
  kindEligible : Option Bool
  mimeEligible : Option Bool
  urlLifetimeSufficient : Option Bool
  declaredBytes : Option Nat
  maxObjectBytes : Nat
  ownerRemainingBytes : Option Nat
  explicitAction : Bool
  deriving DecidableEq, Repr

/-- The first reason against an archival that was requested. -/
def MediaPolicyInput.refused (input : MediaPolicyInput) : Option MetadataOnlyReason :=
  if !input.acquisitionEligible then some .acquisitionNotEligible
  else if !input.explicitAction then some .explicitActionRequired
  else if input.rightsConfirmed ≠ some true then some .rightsUnknown
  else if input.urlIsHttps ≠ some true then some .httpsRequired
  else if input.kindEligible ≠ some true then some .kindUnknown
  else if input.mimeEligible ≠ some true then some .mimeUnknown
  else if input.urlLifetimeSufficient ≠ some true then some .urlLifetimeUnknown
  else match input.declaredBytes with
    | none => some .objectSizeUnknown
    | some bytes =>
      if bytes = 0 ∨ bytes > input.maxObjectBytes then some .objectBudgetExceeded
      else match input.ownerRemainingBytes with
        | none => some .ownerBudgetUnknown
        | some remaining => if remaining < bytes then some .ownerBudgetExceeded else none

/-- `observe_media`, with the leases it hands to `fetch`. -/
def observeMedia (input : MediaPolicyInput) : MediaRetentionDecision × List MediaFetchLease :=
  if !input.archiveRequested then (.metadataOnly .policyNotAuthorized, [])
  else match input.refused with
    | some reason => (.metadataOnly reason, [])
    | none => match input.declaredBytes with
      | none => (.metadataOnly .objectSizeUnknown, [])
      | some maxBytes => (.archive ⟨maxBytes⟩, [⟨maxBytes⟩])

/-- What an archival needs, with the size its lease is for. -/
structure MediaPolicyInput.Admits (input : MediaPolicyInput) (lease : MediaFetchLease) : Prop where
  requested : input.archiveRequested = true
  acquisition : input.acquisitionEligible = true
  action : input.explicitAction = true
  rights : input.rightsConfirmed = some true
  https : input.urlIsHttps = some true
  kind : input.kindEligible = some true
  mime : input.mimeEligible = some true
  lifetime : input.urlLifetimeSufficient = some true
  declared : input.declaredBytes = some lease.maxBytes
  positive : 0 < lease.maxBytes
  object : lease.maxBytes ≤ input.maxObjectBytes
  owner : ∃ remaining, input.ownerRemainingBytes = some remaining ∧ lease.maxBytes ≤ remaining

theorem refuses_eq_none {p : Prop} [Decidable p] {reason : MetadataOnlyReason}
    {rest : Option MetadataOnlyReason} :
    (if p then some reason else rest) = none ↔ ¬ p ∧ rest = none := by
  by_cases hp : p
  · simp [hp]
  · simp [hp]

theorem MediaPolicyInput.refused_eq_none {input : MediaPolicyInput} :
    input.refused = none ↔ input.acquisitionEligible = true ∧ input.explicitAction = true ∧
      input.rightsConfirmed = some true ∧ input.urlIsHttps = some true ∧
      input.kindEligible = some true ∧ input.mimeEligible = some true ∧
      input.urlLifetimeSufficient = some true ∧
      ∃ bytes remaining, input.declaredBytes = some bytes ∧ 0 < bytes ∧
        bytes ≤ input.maxObjectBytes ∧ input.ownerRemainingBytes = some remaining ∧
        bytes ≤ remaining := by
  unfold MediaPolicyInput.refused
  cases hdeclared : input.declaredBytes with
  | none =>
    simp only [refuses_eq_none]
    simp
  | some bytes =>
    cases howner : input.ownerRemainingBytes with
    | none =>
      simp only [refuses_eq_none]
      simp
    | some remaining =>
      simp only [refuses_eq_none]
      simp [Nat.pos_iff_ne_zero, and_assoc]

/-- **A lease is granted on all the evidence and on nothing less**, for the declared size, which
both budgets bear. -/
theorem observeMedia_archive_iff {input : MediaPolicyInput} {lease : MediaFetchLease} :
    (observeMedia input).1 = .archive lease ↔ input.Admits lease := by
  unfold observeMedia
  cases hrequested : input.archiveRequested with
  | false => exact ⟨nofun, fun h => absurd h.requested (by simp [hrequested])⟩
  | true =>
    cases hrefused : input.refused with
    | some reason =>
      refine ⟨nofun, fun h => ?_⟩
      obtain ⟨remaining, howner, hle⟩ := h.owner
      have hnone := MediaPolicyInput.refused_eq_none.mpr ⟨h.acquisition, h.action, h.rights, h.https,
        h.kind, h.mime, h.lifetime, _, remaining, h.declared, h.positive, h.object, howner, hle⟩
      rw [hnone] at hrefused
      cases hrefused
    | none =>
      obtain ⟨hacquisition, haction, hrights, hhttps, hkind, hmime, hlifetime, bytes, remaining,
        hdeclared, hpositive, hobject, howner, hle⟩ := MediaPolicyInput.refused_eq_none.mp hrefused
      simp only [hdeclared]
      constructor
      · intro h
        cases h
        exact ⟨hrequested, hacquisition, haction, hrights, hhttps, hkind, hmime, hlifetime,
          hdeclared, hpositive, hobject, remaining, howner, hle⟩
      · intro h
        rw [Option.some.inj (hdeclared.symm.trans h.declared)]
        rfl

/-- Bytes are fetched once, under the lease that is granted, or not at all. -/
theorem observeMedia_fetches (input : MediaPolicyInput) :
    (∃ lease, observeMedia input = (.archive lease, [lease])) ∨
      ∃ reason, observeMedia input = (.metadataOnly reason, []) := by
  unfold observeMedia
  split
  · exact .inr ⟨_, rfl⟩
  · split
    · exact .inr ⟨_, rfl⟩
    · split
      · exact .inr ⟨_, rfl⟩
      · exact .inl ⟨_, rfl⟩

/-! ## Storage -/

/-- MIME values eligible for provider-media archival. -/
inductive ApprovedMediaMime where
  | imageJpeg
  | imagePng
  | videoMp4
  deriving DecidableEq, Repr

def ApprovedMediaMime.asStr : ApprovedMediaMime → String
  | .imageJpeg => "image/jpeg"
  | .imagePng => "image/png"
  | .videoMp4 => "video/mp4"

/-- One acquired response together with its immutable lease evidence. -/
structure AcquiredMedia where
  finalUrl : String
  expectedMime : ApprovedMediaMime
  observedContentType : String
  declaredBytes : Nat
  expectedDigest : List UInt8
  body : List UInt8
  deriving DecidableEq, Repr

inductive MediaVerificationReason where
  | finalUrlNotHttps
  | mimeMismatch
  | contentLengthMismatch
  | contentDigestMismatch
  | responseBudgetExceeded
  deriving DecidableEq, Repr

/-- Verified media storage evidence safe to attach to a media row. -/
structure ArchivedMedia where
  blobRef : String
  contentHash : List UInt8
  byteSize : Nat
  mediaType : String
  deriving DecidableEq, Repr

inductive MediaArchiveOutcome where
  | metadataOnly (reason : MediaVerificationReason)
  | archived (media : ArchivedMedia)
  deriving DecidableEq, Repr

inductive MediaStoreError where
  | sizeOverflow
  | storage
  | digestConflict
  deriving DecidableEq, Repr

/-- The database and the directory of the media store. -/
structure MediaWorld where
  db : Db := {}
  disk : Disk := {}

/-- The hash function and the URL parser of the libraries; `urlScheme` is the scheme of a URL
that parses. -/
structure MediaBlobStore where
  sha256 : List UInt8 → List UInt8
  urlScheme : String → Option String

/-- A removal leaves the evidence of the removed object. -/
abbrev MediaScript (ε : Type) := Script MediaWorld ε Empty Unit StoredBlob

/-- One file operation; the caller handles its failure. -/
def onMedia {ε α : Type} (x : DiskTx α) : MediaScript ε (Except IoError α) :=
  tx (Tx.attempt (Tx.zoom MediaWorld.disk (fun w disk => { w with disk }) x))

/-- A file operation whose failure ends the call with `e`. -/
def orElse {ε α : Type} (e : ε) (x : DiskTx α) : MediaScript ε α := do
  match ← onMedia x with
  | .ok a => return a
  | .error _ => fail e

/-- Reads an object. -/
def readObject (name : String) : DiskTx (List UInt8) := statement fun disk =>
  match disk.objects.lookup name with
  | none => .error .rowNotFound
  | some o => .ok (o.content, disk)

def objectExists (name : String) : DiskTx Bool := query fun disk =>
  (disk.objects.lookup name).isSome

def removeObject (name : String) : DiskTx Unit := statement fun disk =>
  if (disk.objects.lookup name).isNone then .error .rowNotFound
  else .ok ((), { disk with objects := disk.objects.delete fun o => o.name = name })

/-- Removes the object of `blob`. -/
def removing {ε : Type} (blob : StoredBlob) : MediaScript ε (Except IoError Unit) :=
  emit (Tx.attempt (Tx.zoom MediaWorld.disk (fun w disk => { w with disk })
    (removeObject (hexEncode blob.contentHash)))) fun
    | .ok () => some blob
    | .error _ => none

/-- `blob_ref` of a stored media object. -/
def mediaRef (digest : List UInt8) : String := "instagram-archive/media/sha256/" ++ hexEncode digest

/-- The first part of a content type, without white space around it. -/
def observedMime (contentType : String) : List Char :=
  Permalink.trim (contentType.toList.takeWhile (· ≠ ';'))

/-- What keeps an acquired response metadata-only. -/
def verify (store : MediaBlobStore) (lease : MediaFetchLease) (response : AcquiredMedia) :
    Option MediaVerificationReason :=
  if store.urlScheme response.finalUrl ≠ some "https" then some .finalUrlNotHttps
  else if observedMime response.observedContentType ≠ response.expectedMime.asStr.toList then
    some .mimeMismatch
  else if response.body.length > lease.maxBytes then some .responseBudgetExceeded
  else if response.body.length ≠ response.declaredBytes then some .contentLengthMismatch
  else if store.sha256 response.body ≠ response.expectedDigest then some .contentDigestMismatch
  else none

/-- A link that failed or stored nothing; the failure to remove the file is ignored. -/
def discard {α : Type} (temporary : Uuid) : MediaScript MediaStoreError α := do
  let _ ← onMedia (removeTemporary temporary)
  fail .storage

/-- Links the staging file under its digest, unless those bytes stand there already. -/
def publish (store : MediaBlobStore) (temporary : Uuid) (digest : List UInt8) :
    MediaScript MediaStoreError Unit := do
  match ← onMedia (hardLink temporary digest) with
  | .ok .linked => orElse .storage (removeTemporary temporary)
  | .ok .alreadyExists =>
    orElse .storage (removeTemporary temporary)
    let existing ← orElse .storage (readObject (hexEncode digest))
    if store.sha256 existing ≠ digest then fail .digestConflict
  | .error _ => discard temporary

/-- Writes the body to a staging file and publishes it. -/
def storeBody (store : MediaBlobStore) (body : List UInt8) : MediaScript MediaStoreError Unit := do
  orElse .storage ensurePrivateDirectory
  orElse .storage ensurePrivateDirectory
  let temporary ← orElse .storage createTemporary
  match ← onMedia (writeAll temporary body) with
  | .error _ => discard temporary
  | .ok () =>
    match ← onMedia syncFile with
    | .error _ => discard temporary
    | .ok () => publish store temporary (store.sha256 body)

/-- The evidence of a stored body. -/
def evidence (store : MediaBlobStore) (response : AcquiredMedia) : ArchivedMedia :=
  { blobRef := mediaRef (store.sha256 response.body)
    contentHash := store.sha256 response.body
    byteSize := response.body.length
    mediaType := response.expectedMime.asStr }

/-- Verifies and stores one response within its immutable fetch lease. -/
def archiveAcquiredMedia (store : MediaBlobStore) (lease : MediaFetchLease)
    (response : AcquiredMedia) : MediaScript MediaStoreError MediaArchiveOutcome := do
  match verify store lease response with
  | some reason => return .metadataOnly reason
  | none =>
    storeBody store response.body
    if response.body.length > i64Max then fail .sizeOverflow
    else return .archived (evidence store response)

/-! ## Erasure -/

/-- `delete_if_matches`: the answer is part of the result, as its caller goes on after both. -/
def deleteIfMatches {ε : Type} (store : MediaBlobStore) (blob : StoredBlob) :
    MediaScript ε (Except BlobDeletionFailure Unit) := do
  if blob.blobRef ≠ mediaRef blob.contentHash then return .error .digestMismatch
  else match ← onMedia (objectExists (hexEncode blob.contentHash)) with
    | .error _ => return .error .storageUnavailable
    | .ok false => return .ok ()
    | .ok true =>
      match ← onMedia (readObject (hexEncode blob.contentHash)) with
      | .error _ => return .error .storageUnavailable
      | .ok bytes =>
        if bytes.length ≠ blob.byteSize ∨ bytes.length > i64Max ∨
            store.sha256 bytes ≠ blob.contentHash then return .error .digestMismatch
        else match ← removing blob with
          | .error _ => return .error .storageUnavailable
          | .ok () =>
            match ← onMedia (objectExists (hexEncode blob.contentHash)) with
            | .ok false => return .ok ()
            | _ => return .error .storageUnavailable

/-- A task processed with the media store behind it. -/
def eraseTask (lib : Externals) (store : MediaBlobStore) (taskId : Uuid) :
    MediaScript SqlError BlobDeletionTaskOutcome :=
  (processBlobDeletionTask lib taskId).handle MediaWorld.db (fun w db => { w with db })
    Empty.elim (deleteIfMatches store)

/-! ## Expiry -/

/-- Reference-safe cleanup decision for one expiring media row. -/
inductive BlobCleanupPlan where
  | retainShared (liveReferences : Nat)
  | scheduleDelete (blobRef : String) (contentHash : List UInt8)
  deriving DecidableEq, Repr

/-- The rows other than the media row that name an object. -/
def otherReferences (lib : Externals) (blobRef : String) (contentHash : List UInt8)
    (mediaId : Uuid) (db : Db) : Nat :=
  (db.media.rows.countP fun m => m.mediaId ≠ mediaId &&
      m.blob.any fun b => b.blobRef = blobRef && b.contentHash = contentHash) +
    (db.rawRecords.rows.countP fun r => r.blobRef = blobRef && r.contentHash = contentHash) +
    db.exportSnapshots.rows.countP fun s =>
      (s.blob lib).blobRef = blobRef && (s.blob lib).contentHash = contentHash

/-- Plans expiry of one archived media reference without mutating durable state. -/
def planMediaReferenceExpiry (lib : Externals) (mediaId : Uuid) :
    ArchiveTx SqlError BlobCleanupPlan := do
  let media ← fetchOne .rowNotFound fun db => db.media.lookup mediaId
  match media.blob with
  | none => Tx.throw (.columnDecode "blob_ref")
  | some blob =>
    let live ← query (otherReferences lib blob.blobRef blob.contentHash mediaId)
    if live > 0 then return .retainShared live
    else return .scheduleDelete blob.blobRef blob.contentHash

/-- No row names an object but the media row itself. -/
theorem otherReferences_eq_zero {lib : Externals} {blobRef : String} {contentHash : List UInt8}
    {mediaId : Uuid} {db : Db} :
    otherReferences lib blobRef contentHash mediaId db = 0 ↔
      (∀ m ∈ db.media, m.mediaId ≠ mediaId → ∀ b ∈ m.blob, b.blobRef = blobRef →
        b.contentHash ≠ contentHash) ∧
      (∀ r ∈ db.rawRecords, r.blobRef = blobRef → r.contentHash ≠ contentHash) ∧
      ∀ s ∈ db.exportSnapshots, (s.blob lib).blobRef = blobRef →
        (s.blob lib).contentHash ≠ contentHash := by
  simp only [otherReferences, Nat.add_eq_zero_iff, List.countP_eq_zero, Table.mem_rows, and_assoc,
    Bool.and_eq_true, decide_eq_true_eq, Option.any_eq_true, not_and, not_exists, Option.mem_def,
    ne_eq]

/-- Once the expired row is gone, no row names the object. -/
theorem liveReferences_eq_zero_of_expired {lib : Externals} {blobRef : String}
    {contentHash : List UInt8} {mediaId : Uuid} {db : Db}
    (h : otherReferences lib blobRef contentHash mediaId db = 0) (byteSize : Nat) :
    liveReferences lib ⟨blobRef, contentHash, byteSize⟩
      { db with media := db.media.delete fun m => m.mediaId = mediaId } = 0 := by
  obtain ⟨hmedia, hraw, hexports⟩ := otherReferences_eq_zero.mp h
  simp only [liveReferences, Nat.add_eq_zero_iff, List.countP_eq_zero, decide_eq_true_eq]
  refine ⟨⟨fun m hm hblob => ?_, fun r hr hblob => ?_⟩, fun x hx hblob => ?_⟩
  · obtain ⟨hm, hother⟩ := (Table.mem_delete _ _ m).mp hm
    rw [decide_eq_false_iff_not] at hother
    exact hmedia m hm hother _ hblob rfl rfl
  · exact hraw r hr (congrArg StoredBlob.blobRef hblob) (congrArg StoredBlob.contentHash hblob)
  · exact hexports x hx (congrArg StoredBlob.blobRef hblob)
      (congrArg StoredBlob.contentHash hblob)

/-- **An object that another row names is never given up**: a plan writes nothing, and it gives up
the object of its media row only if no other row names it. -/
theorem planMediaReferenceExpiry_scheduleDelete {lib : Externals} {env : Env} {mediaId : Uuid}
    {db db' : Db} {blobRef : String} {contentHash : List UInt8}
    (h : (planMediaReferenceExpiry lib mediaId).Yields env db (.scheduleDelete blobRef contentHash)
      db') :
    db' = db ∧ otherReferences lib blobRef contentHash mediaId db = 0 ∧
      ∃ m blob, db.media.lookup mediaId = some m ∧ m.blob = some blob ∧ blob.blobRef = blobRef ∧
        blob.contentHash = contentHash := by
  obtain ⟨m, _, h1, h⟩ := h.bind
  obtain ⟨hm, rfl⟩ := h1.fetchOne
  cases hblob : m.blob with
  | none =>
    rw [hblob] at h
    exact h.throw.elim
  | some blob =>
    rw [hblob] at h
    obtain ⟨live, _, h1, h⟩ := h.bind
    obtain ⟨rfl, rfl⟩ := h1.query
    split at h
    · exact absurd (yields_pure.mp h).1 nofun
    · rename_i hfree
      obtain ⟨hplan, rfl⟩ := yields_pure.mp h
      cases hplan
      exact ⟨rfl, Nat.eq_zero_of_not_pos hfree, m, blob, hm, hblob, rfl, rfl⟩

end MediaRetention

end InstagramArchive

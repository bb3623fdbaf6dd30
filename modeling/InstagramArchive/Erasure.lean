import InstagramArchive.PrivacyDeletion
import Mathlib.Logic.Relation

/-!
# The statements of a deletion

A deletion is a long sequence of statements of few kinds. `Erasure` lists what one of them
does to the database, with what its foreign keys checked, and `applyTargetRows_erases` says
that a deletion is such a sequence; whatever every kind of statement keeps, every deletion
keeps.
-/

namespace InstagramArchive

open Relational Relational.Tx

/-- No reference remains to a row that a delete takes. -/
def Unreferenced {ρ : Type} (references : List (Reference Db ρ)) (rows : List ρ) (p : ρ → Bool)
    (db : Db) : Prop :=
  ∀ r ∈ references, ∀ row ∈ rows, p row = true → r.refers db row = false

/-- What one statement of a deletion does. -/
inductive Erasure (lib : Externals) (request : DeletionRequest) (db : Db) : Db → Prop
  | blobTask {task : BlobDeletionTask} {t : Table BlobDeletionTask BlobDeletionTask.taskId}
      (hoperation : task.operationId = some request.operationId) (hopen : task.complete = false)
      (hnew : ∀ old ∈ db.blobDeletionTasks,
        ¬ (old.blob.blobRef = task.blob.blobRef ∧ old.blob.contentHash = task.blob.contentHash))
      (ht : db.blobDeletionTasks.insert? task = some t) :
      Erasure lib request db { db with blobDeletionTasks := t }
  | clearMedia (mediaId : Uuid) : Erasure lib request db (clearMedia mediaId db)
  | clearAuthority (mediaId : Uuid) :
      Erasure lib request db (clearAuthority mediaId (InstagramArchive.clearMedia mediaId db))
  | clearCurrentRevision (mediaId : Uuid) :
      Erasure lib request db (clearCurrentRevision mediaId db)
  | revisions (mediaId : Uuid) :
      Erasure lib request db
        { db with mediaRevisions := db.mediaRevisions.delete fun v => v.mediaId = mediaId }
  | media (mediaId : Uuid)
      (hfree : Unreferenced mediaReferences db.media.rows (fun m => m.mediaId = mediaId) db) :
      Erasure lib request db { db with media := db.media.delete fun m => m.mediaId = mediaId }
  | raw (rawId : Uuid)
      (hfree : Unreferenced rawReferences db.rawRecords.rows (fun r => r.rawRecordId = rawId) db) :
      Erasure lib request db
        { db with rawRecords := db.rawRecords.delete fun r => r.rawRecordId = rawId }
  | removal {aggregateType : AggregateType} {aggregateId eventId : Uuid}
      {removal : SocialSourceRemoved} {db' : Db}
      (h : Appends db (removalRow aggregateType aggregateId removal eventId) db') :
      Erasure lib request db db'
  | dropEvents (aggregateType : AggregateType) (aggregateId : Uuid) :
      Erasure lib request db (dropAggregateEvents aggregateType aggregateId db)
  | localRemoval {row : LocalSourceRemoval}
      {t : Table LocalSourceRemoval LocalSourceRemoval.key}
      (hoperation : row.operationId = request.operationId)
      (ht : db.localSourceRemovals.insert? row = some t) :
      Erasure lib request db { db with localSourceRemovals := t }
  | clearCapture (captureId : Uuid) (htarget : request.target = .capture captureId) :
      Erasure lib request db (clearCapture captureId db)
  | capture (captureId : Uuid) (htarget : request.target = .capture captureId) :
      Erasure lib request db
        { db with captures := db.captures.delete fun c => c.captureId = captureId }
  | detach (mediaId : Uuid) (now : Instant) :
      Erasure lib request db (detachMedia mediaId now db)
  | syncStates (accountId : Uuid) (htarget : request.target = .connection accountId) :
      Erasure lib request db
        { db with
          syncAuthorities := db.syncAuthorities.delete fun a => a.accountId = accountId
          syncStates := db.syncStates.delete fun s => s.accountId = accountId }
  | syncItems (accountId : Uuid) (htarget : request.target = .connection accountId) :
      Erasure lib request db
        { db with syncItems := db.syncItems.delete fun i => runOfAccount accountId i.runId db }
  | syncRuns (accountId : Uuid) (htarget : request.target = .connection accountId)
      (hfree : Unreferenced runReferences db.syncRuns.rows (fun r => r.accountId = accountId) db) :
      Erasure lib request db
        { db with syncRuns := db.syncRuns.delete fun r => r.accountId = accountId }
  | clearAccount (accountId : Uuid) (htarget : request.target = .connection accountId) :
      Erasure lib request db (clearAccount accountId db)
  | account (accountId : Uuid) (htarget : request.target = .connection accountId)
      (hfree : Unreferenced accountReferences db.accounts.rows
        (fun a => a.accountId = accountId) db) :
      Erasure lib request db
        { db with accounts := db.accounts.delete fun a => a.accountId = accountId }

/-- What a sequence of statements of a deletion does. -/
abbrev Erases (lib : Externals) (request : DeletionRequest) : Db → Db → Prop :=
  Relation.ReflTransGen (Erasure lib request)

/-- What every statement of a deletion keeps, the deletion keeps. -/
theorem Erases.rel {lib : Externals} {request : DeletionRequest} {db db' : Db}
    {R : Db → Db → Prop} [IsPreorder Db R] (h : Erases lib request db db')
    (hstep : ∀ a b, Erasure lib request a b → R a b) : R db db' := by
  induction h with
  | refl => exact Std.Refl.refl db
  | tail _ hlast ih => exact IsTrans.trans _ _ _ ih (hstep _ _ hlast)

/-- An invariant of every statement of a deletion is one of the deletion. -/
theorem Erases.invariant {lib : Externals} {request : DeletionRequest} {db db' : Db}
    {P : Db → Prop} (h : Erases lib request db db')
    (hstep : ∀ a b, P a → Erasure lib request a b → P b) (hP : P db) : P db' := by
  induction h with
  | refl => exact hP
  | tail _ hlast ih => exact hstep _ _ ih hlast

section Statements

variable {lib : Externals} {request : DeletionRequest}

theorem scheduleBlobTask_erases (blob : StoredBlob) (mediaClass : MediaClass) :
    (scheduleBlobTask request.operationId blob mediaClass).Respects (Erases lib request) := by
  refine .bind .nowV7 fun taskId => ?_
  intro env db u db' h
  obtain ⟨inserted, _, h1, h⟩ := h.bind
  obtain ⟨-, rfl⟩ := yields_pure.mp h
  rcases h1.insertUnless with ⟨-, -, rfl⟩ | ⟨hconflict, -, -, t, ht, rfl⟩
  · exact .refl
  · refine .single (.blobTask rfl rfl ?_ ht)
    rintro old hold ⟨hblob, hhash⟩
    have hany := List.any_eq_false.mp hconflict old hold
    simp [hblob, hhash] at hany

theorem deleteRaw_erases (rawId : Uuid) : (deleteRaw rawId).Respects (Erases lib request) := by
  intro env db u db' h
  obtain ⟨hfree, rfl⟩ := h.deleteFrom
  exact .single (.raw rawId hfree)

theorem eraseRaw_erases (raws : List RawRecord) :
    (eraseRaw request.operationId raws).Respects (Erases lib request) := by
  induction raws with
  | nil => exact .pure 0
  | cons raw rest ih =>
    refine .bind (.query _) fun retained => ?_
    cases retained with
    | true => exact ih
    | false =>
      refine .bind (deleteRaw_erases _) fun _ => ?_
      refine .bind (scheduleBlobTask_erases _ _) fun _ => ?_
      exact .bind ih fun _ => .pure _

theorem eraseMediaRows_erases (mediaId : Uuid) :
    (eraseMediaRows mediaId).Respects (Erases lib request) := by
  refine .bind (.execute fun _ => .single (.clearCurrentRevision mediaId)) fun _ => ?_
  refine .bind ?_ fun _ => ?_
  · intro env db u db' h
    obtain ⟨-, rfl⟩ := h.deleteFrom
    exact .single (.revisions mediaId)
  · intro env db u db' h
    obtain ⟨hfree, rfl⟩ := h.deleteFrom
    exact .single (.media mediaId hfree)

theorem eraseMedia_erases (mediaId : Uuid) {clear : Db → Db}
    (hclear : ∀ db, Erases lib request db (clear db)) :
    (eraseMedia request.operationId mediaId clear).Respects (Erases lib request) := by
  refine .bind (.query _) fun blob => ?_
  refine .bind (.query _) fun raws => ?_
  refine .bind (.execute hclear) fun _ => ?_
  refine .bind (eraseMediaRows_erases mediaId) fun _ => ?_
  cases blob with
  | none => exact eraseRaw_erases _
  | some blob =>
    refine .bind (scheduleBlobTask_erases _ _) fun _ => ?_
    exact .bind (eraseRaw_erases _) fun _ => .pure _

theorem insertLocalRemoval_erases {row : LocalSourceRemoval}
    (hrow : row.operationId = request.operationId) :
    (insertLocalRemoval row).Respects (Erases lib request) := by
  intro env db u db' h
  obtain ⟨inserted, _, h1, h⟩ := h.bind
  obtain ⟨-, rfl⟩ := yields_pure.mp h
  rcases h1.insertUnless with ⟨-, -, rfl⟩ | ⟨-, -, -, t, ht, rfl⟩
  · exact .refl
  · exact .single (.localRemoval hrow ht)

theorem endCaptureSource_erases (capture : Capture) :
    (endCaptureSource lib request capture).Respects (Erases lib request) := by
  refine .bind .nowUtc fun removedAt => ?_
  refine .bind (.mapError ?_) fun _ => ?_
  · intro env db eventId db' h
    obtain ⟨_, _, -, -, happ⟩ := appendRemovalFact_yields h
    exact .single (.removal happ)
  refine .bind (.execute fun _ => .single (.dropEvents _ _)) fun _ => ?_
  exact insertLocalRemoval_erases rfl

theorem eraseCaptureRows_erases {captureId : Uuid} (htarget : request.target = .capture captureId) :
    (eraseCaptureRows captureId).Respects (Erases lib request) := by
  refine .bind (.execute fun _ => .single (.clearCapture captureId htarget)) fun _ => ?_
  intro env db u db' h
  obtain ⟨-, rfl⟩ := h.deleteFrom
  exact .single (.capture captureId htarget)

theorem eraseUnheldMedia_erases (mediaId : Option Uuid) :
    (eraseUnheldMedia request.operationId mediaId).Respects (Erases lib request) := by
  cases mediaId with
  | none => exact .pure 0
  | some mediaId =>
    refine .bind (.query _) fun independent => ?_
    cases independent with
    | true => exact .pure 0
    | false => exact eraseMedia_erases mediaId fun _ => .single (.clearMedia mediaId)

theorem applyCaptureRows_erases {captureId : Uuid} (htarget : request.target = .capture captureId) :
    (applyCaptureRows lib request captureId).Respects (Erases lib request) := by
  refine .bind (.fetchOne _ _) fun capture => ?_
  refine .bind (.query _) fun held => ?_
  have hrest : (eraseCaptureRows captureId >>= fun _ =>
      eraseUnheldMedia request.operationId capture.mediaId).Respects (Erases lib request) :=
    .bind (eraseCaptureRows_erases htarget) fun _ => eraseUnheldMedia_erases _
  cases held with
  | true => exact hrest
  | false => exact .bind (endCaptureSource_erases capture) fun _ => hrest

theorem endConnectionSource_erases (m : Media) :
    (endConnectionSource lib request m).Respects (Erases lib request) := by
  refine .bind .nowUtc fun removedAt => ?_
  refine .bind (.mapError ?_) fun _ => ?_
  · intro env db eventId db' h
    exact .single (.removal (appendSourceRemovalFact_yields h))
  refine .bind (.execute fun _ => .single (.dropEvents _ _)) fun _ => ?_
  refine .bind (insertLocalRemoval_erases rfl) fun _ => ?_
  exact eraseMedia_erases m.mediaId fun _ => .single (.clearAuthority m.mediaId)

theorem eraseConnectionMedia_erases (rows : List Media) :
    (eraseConnectionMedia lib request rows).Respects (Erases lib request) := by
  induction rows with
  | nil => exact .pure 0
  | cons m rest ih =>
    refine .bind (.query _) fun held => ?_
    cases held with
    | true =>
      refine .bind .now fun now => ?_
      exact .bind (.execute fun _ => .single (.detach m.mediaId now)) fun _ => ih
    | false =>
      refine .bind (endConnectionSource_erases m) fun pending => ?_
      exact .bind ih fun _ => .pure _

theorem eraseSyncRows_erases {accountId : Uuid} (htarget : request.target = .connection accountId) :
    (eraseSyncRows accountId).Respects (Erases lib request) := by
  refine .bind (.execute fun _ => .single (.syncStates accountId htarget)) fun _ => ?_
  refine .bind (.execute fun _ => .single (.syncItems accountId htarget)) fun _ => ?_
  intro env db u db' h
  obtain ⟨hfree, rfl⟩ := h.deleteFrom
  exact .single (.syncRuns accountId htarget hfree)

theorem eraseConnectionRaws_erases (rawIds : List Uuid) :
    (eraseConnectionRaws request.operationId rawIds).Respects (Erases lib request) := by
  induction rawIds with
  | nil => exact .pure 0
  | cons rawId rest ih =>
    refine .bind (.query _) fun found => ?_
    cases found with
    | none => exact ih
    | some raw =>
      refine .bind (deleteRaw_erases rawId) fun _ => ?_
      refine .bind (scheduleBlobTask_erases _ _) fun _ => ?_
      exact .bind ih fun _ => .pure _

theorem applyConnectionRows_erases {accountId : Uuid}
    (htarget : request.target = .connection accountId) :
    (applyConnectionRows lib request accountId).Respects (Erases lib request) := by
  refine .bind (.query _) fun rawIds => ?_
  refine .bind (.query _) fun rows => ?_
  refine .bind (eraseConnectionMedia_erases rows) fun pending => ?_
  refine .bind (eraseSyncRows_erases htarget) fun _ => ?_
  refine .bind (.execute fun _ => .single (.clearAccount accountId htarget)) fun _ => ?_
  refine .bind (eraseConnectionRaws_erases rawIds) fun more => ?_
  refine .bind ?_ fun _ => .pure _
  intro env db u db' h
  obtain ⟨hfree, rfl⟩ := h.deleteFrom
  exact .single (.account accountId htarget hfree)

/-- **A deletion is a sequence of erasing statements.** -/
theorem applyTargetRows_erases : (applyTargetRows lib request).Respects (Erases lib request) := by
  unfold applyTargetRows
  split
  · rename_i captureId htarget
    exact applyCaptureRows_erases htarget
  · rename_i accountId htarget
    exact applyConnectionRows_erases htarget

end Statements

/-! ## The request -/

/-- The audit rows of an operation are stored after those already there. -/
theorem insertEffects_yields {env : Env} {operationId : Uuid} {effects : List DeletionEffectCount}
    {db db' : Db} {u : Unit} (h : (insertEffects operationId effects).Yields env db u db') :
    ∃ t, db.deletionEffects.insertAll? (effects.map fun e => e.row operationId) = some t ∧
      db' = { db with deletionEffects := t } := by
  induction effects generalizing db with
  | nil =>
    obtain ⟨-, rfl⟩ := yields_pure.mp h
    exact ⟨db.deletionEffects, rfl, rfl⟩
  | cons e rest ih =>
    obtain ⟨_, _, h1, h⟩ := h.bind
    obtain ⟨-, t, ht, rfl⟩ := h1.insertInto
    obtain ⟨t', ht', rfl⟩ := ih h
    refine ⟨t', ?_, rfl⟩
    simp only [List.map_cons, Table.insertAll?]
    rw [ht]
    exact ht'

/-- The database once an operation and its audit are stored. -/
def Planned (request : DeletionRequest) (requestedAt : Instant)
    (operations : Table DeletionOperation DeletionOperation.operationId)
    (effects : Table DeletionEffect DeletionEffect.key) (db : Db) : Prop :=
  db.deletionOperations.insert? (plannedOperation request requestedAt) = some operations ∧
    db.deletionEffects.insertAll?
      ((buildPlan request).map fun e => e.row request.operationId) = some effects

/-- A request that is not stored yet stores its operation and its audit, erases, and finishes. -/
def Deletes (lib : Externals) (env : Env) (request : DeletionRequest) (db db' : Db) : Prop :=
  ∃ operations effects mid pending, Planned request env.now operations effects db ∧
    (applyTargetRows lib request).Yields env
      { db with deletionOperations := operations, deletionEffects := effects } pending mid ∧
    db' = finishDeletion request.operationId
      (if pending > 0 then .pendingBlobDeletion else .complete) env.now mid

theorem requireOwned_yields {env : Env} {request : DeletionRequest} {db db' : Db}
    (h : (requireOwned request).Yields env db () db') :
    targetOwner request.target db = some request.userRef ∧ db = db' := by
  obtain ⟨owner, _, h1, h⟩ := Yields.bind h
  obtain ⟨rfl, rfl⟩ := h1.query
  split at h
  · exact h.throw.elim
  · rename_i howner
    obtain ⟨-, rfl⟩ := yields_pure.mp h
    exact ⟨by simpa using howner, rfl⟩

theorem applyNewDeletion_yields {lib : Externals} {env : Env} {request : DeletionRequest}
    {db db' : Db} {result : DeletionResult}
    (h : (applyNewDeletion lib request).Yields env db result db') :
    targetOwner request.target db = some request.userRef ∧
      result = ⟨request.operationId, buildPlan request⟩ ∧ Deletes lib env request db db' := by
  obtain ⟨_, _, h1, h⟩ := Yields.bind h
  obtain ⟨howner, rfl⟩ := requireOwned_yields h1
  obtain ⟨requestedAt, _, h1, h⟩ := h.bind
  obtain ⟨rfl, rfl⟩ := h1.now
  obtain ⟨_, _, h1, h⟩ := h.bind
  obtain ⟨-, operations, hoperations, rfl⟩ := h1.insertInto
  obtain ⟨_, _, h1, h⟩ := h.bind
  obtain ⟨effects, heffects, rfl⟩ := insertEffects_yields h1
  obtain ⟨pending, mid, htarget, h⟩ := h.bind
  obtain ⟨_, _, h1, h⟩ := h.bind
  obtain rfl := h1.execute
  obtain ⟨_, _, h1, h⟩ := h.bind
  obtain rfl := h1.commit
  obtain ⟨rfl, rfl⟩ := yields_pure.mp h
  exact ⟨howner, rfl, operations, effects, mid, pending,
    ⟨hoperations, heffects⟩, htarget, rfl⟩

/-- **A preview foretells**: it writes nothing, and what it shows is what the request answers when
it is applied later for the first time. -/
theorem previewDeletion_foretells {lib : Externals} {env later : Env} {request : DeletionRequest}
    {db shown mid db' : Db} {preview result : DeletionResult}
    (hpreview : (previewDeletion request).Yields env db preview shown)
    (happlied : (applyNewDeletion lib request).Yields later mid result db') :
    shown = db ∧ result = preview := by
  obtain ⟨_, _, hrequire, hanswer⟩ := Yields.bind hpreview
  obtain ⟨-, rfl⟩ := requireOwned_yields hrequire
  obtain ⟨rfl, rfl⟩ := yields_pure.mp hanswer
  exact ⟨rfl, (applyNewDeletion_yields happlied).2.1⟩

/-- **What an applied request leaves**: a stored operation answers for itself, a new one
stores its operation and its audit, erases, and finishes. -/
theorem applyDeletion_yields {lib : Externals} {env : Env} {request : DeletionRequest} {db db' : Db}
    {result : DeletionResult} (h : (applyDeletion lib request).Yields env db result db') :
    (loadExisting request db = some (.ok result) ∧ db' = db) ∨
      (loadExisting request db = none ∧ targetOwner request.target db = some request.userRef ∧
        result = ⟨request.operationId, buildPlan request⟩ ∧
        ∃ operations effects mid pending, Planned request env.now operations effects db ∧
          (applyTargetRows lib request).Yields env
            { db with deletionOperations := operations, deletionEffects := effects } pending mid ∧
          db' = finishDeletion request.operationId
            (if pending > 0 then .pendingBlobDeletion else .complete) env.now mid) := by
  obtain ⟨existing, _, h1, h⟩ := h.bind
  obtain ⟨rfl, rfl⟩ := h1.query
  cases hload : loadExisting request db with
  | some r =>
    rw [hload] at h
    obtain ⟨rfl, rfl⟩ := h.ofExcept
    exact Or.inl ⟨rfl, rfl⟩
  | none =>
    rw [hload] at h
    obtain ⟨howner, hresult, hdeletes⟩ := applyNewDeletion_yields h
    exact Or.inr ⟨rfl, howner, hresult, hdeletes⟩

/-- What every statement of a deletion keeps of the tables other than the audit, the deletion
keeps. -/
theorem Deletes.rel {lib : Externals} {env : Env} {request : DeletionRequest} {db db' : Db}
    {R : Db → Db → Prop} [IsPreorder Db R] (h : Deletes lib env request db db')
    (haudit : ∀ a operations effects,
      R a { a with deletionOperations := operations, deletionEffects := effects })
    (hstep : ∀ a b, Erasure lib request a b → R a b) : R db db' := by
  obtain ⟨operations, effects, mid, pending, -, htarget, rfl⟩ := h
  have herased := (applyTargetRows_erases env _ _ _ htarget).rel hstep
  exact IsTrans.trans _ _ _ (IsTrans.trans _ _ _ (haudit db operations effects) herased)
    (haudit mid _ mid.deletionEffects)

end InstagramArchive

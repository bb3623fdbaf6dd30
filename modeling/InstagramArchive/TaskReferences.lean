import InstagramArchive.BlobLedger
import InstagramArchive.RawEvidence

/-!
# The reference of a raw response's task

A deletion schedules the evidence it erases under the reference of the raw record, and every raw
record is named by the plain hexadecimal text of its digest. So in every state the service
reaches the task of a raw response bears such a reference, which is none of the media store.
-/

namespace InstagramArchive

open Relational Relational.Tx

/-- The reference is the digest in hexadecimal. -/
def StoredBlob.PlainHex (blob : StoredBlob) : Prop := blob.blobRef = hexEncode blob.contentHash

/-- Raw records and the tasks of raw responses are named by their digests. -/
structure PlainTasks (db : Db) : Prop where
  records : ∀ r ∈ db.rawRecords, r.blob.PlainHex
  tasks : ∀ t ∈ db.blobDeletionTasks, t.mediaClass = .rawResponse → t.blob.PlainHex

/-- What has such tasks before has them after. -/
def KeepsPlain (db db' : Db) : Prop := PlainTasks db → PlainTasks db'

instance : IsPreorder Db KeepsPlain where
  refl _ h := h
  trans _ _ _ h h' hdb := h' (h hdb)

section Statements

variable {lib : Externals} {request : DeletionRequest} {db db' : Db}

theorem Erases.raws (h : Erases lib request db db') : ∀ r ∈ db'.rawRecords, r ∈ db.rawRecords := by
  induction h with
  | refl => exact fun _ hr => hr
  | tail _ hlast ih => exact fun r hr => ih r (hlast.raws r hr)

/-- Statements that erase and schedule nothing. -/
theorem KeepsPlain.of_same (herases : Erases lib request db db') (hsame : SameTasks db db') :
    KeepsPlain db db' := by
  refine fun h => ⟨fun r hr => h.records r (herases.raws r hr), ?_⟩
  rw [hsame]
  exact h.tasks

theorem keepsPlain_of_same (lib : Externals) (request : DeletionRequest) {α : Type}
    {x : DeletionTx α} (herases : x.Respects (Erases lib request))
    (hsame : x.Respects SameTasks) : x.Respects KeepsPlain :=
  fun env db a db' h => .of_same (herases env db a db' h) (hsame env db a db' h)

theorem scheduleBlobTask_plain {operationId : Uuid} {blob : StoredBlob} {mediaClass : MediaClass}
    (hblob : mediaClass = .rawResponse → blob.PlainHex) :
    (scheduleBlobTask operationId blob mediaClass).Respects KeepsPlain := by
  refine .bind .nowV7 fun taskId => ?_
  intro env db u db' h hdb
  obtain ⟨inserted, _, h1, h⟩ := h.bind
  obtain ⟨-, rfl⟩ := yields_pure.mp h
  rcases h1.insertUnless with ⟨-, -, rfl⟩ | ⟨-, -, -, t, ht, rfl⟩
  · exact hdb
  · refine ⟨hdb.records, fun task htask => ?_⟩
    rcases (Table.mem_of_insert? ht task).mp htask with htask | rfl
    · exact hdb.tasks task htask
    · exact hblob

theorem deleteRaw_plain (rawId : Uuid) : (deleteRaw rawId).Respects KeepsPlain := by
  intro env db u db' h hdb
  obtain ⟨-, rfl⟩ := h.deleteFrom
  exact ⟨fun r hr => hdb.records r ((Table.mem_delete _ _ r).mp hr).1, hdb.tasks⟩

theorem eraseRaw_plain {operationId : Uuid} {raws : List RawRecord}
    (hraws : ∀ r ∈ raws, r.blob.PlainHex) :
    (eraseRaw operationId raws).Respects KeepsPlain := by
  induction raws with
  | nil => exact .pure 0
  | cons raw rest ih =>
    rw [List.forall_mem_cons] at hraws
    refine .bind (.query _) fun retained => ?_
    cases retained with
    | true => exact ih hraws.2
    | false =>
      refine .bind (deleteRaw_plain _) fun _ => ?_
      refine .bind (scheduleBlobTask_plain fun _ => hraws.1) fun _ => ?_
      exact .bind (ih hraws.2) fun _ => .pure _

theorem rawBlobs_mem {mediaId : Uuid} {r : RawRecord} (h : r ∈ rawBlobs mediaId db) :
    r ∈ db.rawRecords :=
  (List.mem_filter.mp ((List.mem_insertionSort _).mp h)).1

/-- The evidence of a media row is read before the row goes. -/
theorem eraseMedia_plain (lib : Externals) (mediaId : Uuid) {clear : Db → Db}
    (herases : ∀ db, Erases lib request db (clear db)) (hclear : ∀ db, SameTasks db (clear db)) :
    (eraseMedia request.operationId mediaId clear).Respects KeepsPlain := by
  intro env db n db' h hdb
  obtain ⟨blob, _, h1, h⟩ := h.bind
  obtain ⟨-, rfl⟩ := h1.query
  obtain ⟨raws, _, h1, h⟩ := h.bind
  obtain ⟨rfl, rfl⟩ := h1.query
  have hraw : (eraseRaw request.operationId (rawBlobs mediaId db)).Respects KeepsPlain :=
    eraseRaw_plain fun r hr => hdb.records r (rawBlobs_mem hr)
  obtain ⟨_, mid, h1, h⟩ := h.bind
  obtain rfl := h1.execute
  obtain ⟨_, mid', h1, h⟩ := h.bind
  have hmid : PlainTasks (clear db) := KeepsPlain.of_same (herases db) (hclear db) hdb
  have hmid' : PlainTasks mid' :=
    keepsPlain_of_same lib request (eraseMediaRows_erases mediaId)
      (eraseMediaRows_sameTasks mediaId) env _ _ _ h1 hmid
  cases blob with
  | none => exact hraw env _ _ _ h hmid'
  | some blob =>
    have hschedule : (scheduleBlobTask request.operationId blob .providerMedia).Respects
        KeepsPlain := scheduleBlobTask_plain fun hclass => by cases hclass
    exact Tx.Respects.bind hschedule (fun _ => .bind hraw fun _ => .pure _) env _ _ _ h hmid'

theorem applyCaptureRows_plain {captureId : Uuid} (htarget : request.target = .capture captureId) :
    (applyCaptureRows lib request captureId).Respects KeepsPlain := by
  refine .bind (.fetchOne _ _) fun capture => ?_
  refine .bind (.query _) fun held => ?_
  have hrest : (eraseCaptureRows captureId >>= fun _ =>
      eraseUnheldMedia request.operationId capture.mediaId).Respects KeepsPlain := by
    refine .bind (keepsPlain_of_same lib request (eraseCaptureRows_erases htarget) ?_) fun _ => ?_
    · exact .bind (.execute fun _ => rfl) fun _ => .deleteFrom fun _ _ => rfl
    cases capture.mediaId with
    | none => exact .pure 0
    | some mediaId =>
      refine .bind (.query _) fun independent => ?_
      cases independent with
      | true => exact .pure 0
      | false =>
        exact eraseMedia_plain lib mediaId (fun _ => .single (.clearMedia mediaId))
          fun _ => rfl
  cases held with
  | true => exact hrest
  | false =>
    exact .bind (keepsPlain_of_same lib request (endCaptureSource_erases capture)
      (endCaptureSource_sameTasks capture)) fun _ => hrest

theorem endConnectionSource_plain (m : Media) :
    (endConnectionSource lib request m).Respects KeepsPlain := by
  refine .bind .nowUtc fun removedAt => ?_
  refine .bind (.mapError ?_) fun _ => ?_
  · intro env db eventId db' h hdb
    rw [(appendSourceRemovalFact_yields h).eq]
    exact ⟨hdb.records, hdb.tasks⟩
  refine .bind (.execute fun _ hdb => ⟨hdb.records, hdb.tasks⟩) fun _ => ?_
  refine .bind (keepsPlain_of_same lib request (insertLocalRemoval_erases rfl)
    (insertLocalRemoval_sameTasks _)) fun _ => ?_
  exact eraseMedia_plain lib m.mediaId (fun _ => .single (.clearAuthority m.mediaId))
    fun _ => rfl

theorem eraseConnectionMedia_plain (rows : List Media) :
    (eraseConnectionMedia lib request rows).Respects KeepsPlain := by
  induction rows with
  | nil => exact .pure 0
  | cons m rest ih =>
    refine .bind (.query _) fun held => ?_
    cases held with
    | true =>
      refine .bind .now fun now => ?_
      exact .bind (.execute fun _ hdb => ⟨hdb.records, hdb.tasks⟩) fun _ => ih
    | false =>
      refine .bind (endConnectionSource_plain m) fun pending => ?_
      exact .bind ih fun _ => .pure _

/-- The evidence of a connection is read just before it goes. -/
theorem eraseConnectionRaws_plain (operationId : Uuid) (rawIds : List Uuid) :
    (eraseConnectionRaws operationId rawIds).Respects KeepsPlain := by
  induction rawIds with
  | nil => exact .pure 0
  | cons rawId rest ih =>
    intro env db n db' h hdb
    obtain ⟨found, _, h1, h⟩ := Yields.bind h
    obtain ⟨hfound, rfl⟩ := h1.query
    cases found with
    | none => exact ih env _ _ _ h hdb
    | some raw =>
      obtain ⟨hlookup, -⟩ := Option.filter_eq_some_iff.mp hfound.symm
      have hplain := hdb.records raw (Table.lookup_eq_some.mp hlookup).1
      refine Tx.Respects.bind (deleteRaw_plain rawId) (fun _ => ?_) env _ _ _ h hdb
      refine .bind (scheduleBlobTask_plain fun _ => hplain) fun _ => ?_
      exact .bind ih fun _ => .pure _

theorem applyConnectionRows_plain {accountId : Uuid}
    (htarget : request.target = .connection accountId) :
    (applyConnectionRows lib request accountId).Respects KeepsPlain := by
  refine .bind (.query _) fun rawIds => ?_
  refine .bind (.query _) fun rows => ?_
  refine .bind (eraseConnectionMedia_plain rows) fun pending => ?_
  refine .bind (keepsPlain_of_same lib request (eraseSyncRows_erases htarget)
    (eraseSyncRows_sameTasks accountId)) fun _ => ?_
  refine .bind (.execute fun _ hdb => ⟨hdb.records, hdb.tasks⟩) fun _ => ?_
  refine .bind (eraseConnectionRaws_plain _ rawIds) fun more => ?_
  refine .bind ?_ fun _ => .pure _
  exact .deleteFrom fun _ _ hdb => ⟨hdb.records, hdb.tasks⟩

theorem applyTargetRows_plain : (applyTargetRows lib request).Respects KeepsPlain := by
  unfold applyTargetRows
  split
  · rename_i captureId htarget
    exact applyCaptureRows_plain htarget
  · rename_i accountId htarget
    exact applyConnectionRows_plain htarget

end Statements

/-! ## Runs -/

section Runs

variable {lib : Externals} {env : Env} {db db' : Db}

theorem Deletes.plain {request : DeletionRequest} (h : Deletes lib env request db db')
    (hdb : PlainTasks db) : PlainTasks db' := by
  obtain ⟨operations, effects, mid, pending, -, htarget, rfl⟩ := h
  have hmid : PlainTasks mid := applyTargetRows_plain env _ _ _ htarget ⟨hdb.records, hdb.tasks⟩
  exact ⟨hmid.records, hmid.tasks⟩

/-- What a transaction does to the tasks keeps them named so. -/
theorem DeletionChange.plain (h : DeletionChange lib env db db') (hdb : PlainTasks db) :
    ∀ t ∈ db'.blobDeletionTasks, t.mediaClass = .rawResponse → t.blob.PlainHex := by
  cases h with
  | kept _ _ htasks | tombstoned _ _ _ _ htasks =>
    rw [htasks]
    exact hdb.tasks
  | task hstep =>
    cases hstep with
    | kept operationId => exact hdb.tasks
    | finished operationId => exact hdb.tasks
    | completed taskId =>
      intro t ht
      obtain ⟨old, hold, rfl⟩ := mem_completeTask.mp ht
      split
      · exact hdb.tasks old hold
      · exact hdb.tasks old hold
  | deleted hdeletes => exact (hdeletes.plain hdb).tasks

/-- **Raw responses are scheduled under their plain digest** in every state the service reaches. -/
theorem plainTasks_run (lib : Externals) (actions : List ServiceAction) :
    PlainTasks (run (serviceStep lib) {} actions).db := by
  have hrecords : ∀ actions, ∀ r ∈ (run (serviceStep lib) {} actions).db.rawRecords,
      r.blob.PlainHex := by
    intro actions r hr
    have hmeasured := evidence_run (fun _ hr => hr.measured) (fun _ hr => hr.measured)
      (fun _ _ _ hstaged hr => hr.measured hstaged) actions r hr
    exact hmeasured.reference
  refine ⟨hrecords actions, ?_⟩
  induction actions using List.reverseRecOn with
  | nil => exact fun t ht => absurd ht List.not_mem_nil
  | append_singleton actions a ih =>
    obtain ⟨env, hchange⟩ := serviceStep_deletionChange (service_sound lib actions) a
    rw [run_concat]
    exact hchange.plain ⟨hrecords actions, ih⟩

end Runs

end InstagramArchive

import InstagramArchive.RemovalDelivery

/-!
# What the parts of a deletion do

Exact accounts of the statements a deletion is made of: which evidence and which rows of a
media source they take, what a foreign key had to say for them to go through, and what the
outbox holds once the end of a source is announced. A row is described by membership, an
outbox by its list of rows.
-/

namespace InstagramArchive

open Relational Relational.Tx Permalink

section Parts

variable {lib : Externals} {env : Env} {db db' db'' : Db} {operationId : Uuid} {n : Nat}

/-! ## Evidence -/

/-- The evidence of `rawIds` that no revision retains is gone, and nothing else named it. -/
structure RawsErased (rawIds : List Uuid) (db db' : Db) : Prop where
  frame : ∃ raws tasks, db' = { db with rawRecords := raws, blobDeletionTasks := tasks }
  raws : ∀ r, r ∈ db'.rawRecords ↔
    r ∈ db.rawRecords ∧ (r.rawRecordId ∈ rawIds → rawRetained r.rawRecordId db = true)
  free : ∀ r ∈ db.rawRecords, r.rawRecordId ∈ rawIds → rawRetained r.rawRecordId db = false →
    ∀ ref ∈ rawReferences, ref.refers db r = false

theorem scheduleBlobTask_yields {blob : StoredBlob} {mediaClass : MediaClass} {u : Unit}
    (h : (scheduleBlobTask operationId blob mediaClass).Yields env db u db') :
    ∃ tasks, db' = { db with blobDeletionTasks := tasks } := by
  obtain ⟨taskId, _, h1, h⟩ := h.bind
  obtain rfl := h1.nowV7
  obtain ⟨inserted, _, h2, h⟩ := h.bind
  obtain ⟨-, rfl⟩ := yields_pure.mp h
  rcases h2.insertUnless with ⟨-, -, rfl⟩ | ⟨-, -, -, t, -, rfl⟩
  · exact ⟨db.blobDeletionTasks, rfl⟩
  · exact ⟨t, rfl⟩

theorem rawReferences_frame {ref : Reference Db RawRecord} (href : ref ∈ rawReferences)
    (raws : Table RawRecord RawRecord.rawRecordId)
    (tasks : Table BlobDeletionTask BlobDeletionTask.taskId) (db : Db) (r : RawRecord) :
    ref.refers { db with rawRecords := raws, blobDeletionTasks := tasks } r = ref.refers db r := by
  simp only [rawReferences, List.mem_cons, List.not_mem_nil, or_false] at href
  rcases href with rfl | rfl | rfl | rfl
  all_goals rfl

theorem RawsErased.nil (db : Db) : RawsErased [] db db where
  frame := ⟨db.rawRecords, db.blobDeletionTasks, rfl⟩
  raws r := by simp
  free r _ hr := (List.not_mem_nil hr).elim

/-- A record that a revision retains, or that is gone, is passed over. -/
theorem RawsErased.kept {rawId : Uuid} {rest : List Uuid} (h : RawsErased rest db db')
    (hkept : ∀ r ∈ db.rawRecords, r.rawRecordId = rawId → rawRetained rawId db = true) :
    RawsErased (rawId :: rest) db db' where
  frame := h.frame
  raws r := by
    rw [h.raws]
    refine and_congr_right fun hr => ⟨fun hrest hmem => ?_, fun hall hmem => ?_⟩
    · rcases List.mem_cons.mp hmem with hid | hmem
      · exact hid ▸ hkept r hr hid
      · exact hrest hmem
    · exact hall (List.mem_cons_of_mem rawId hmem)
  free r hr hmem hfree := by
    rcases List.mem_cons.mp hmem with hid | hmem
    · rw [hid, hkept r hr hid] at hfree
      cases hfree
    · exact h.free r hr hmem hfree

/-- A record nothing retains is deleted, and its blob is scheduled. -/
theorem RawsErased.deleted {rawId : Uuid} {rest : List Uuid}
    {tasks : Table BlobDeletionTask BlobDeletionTask.taskId}
    (hretained : rawRetained rawId db = false)
    (hfree : ∀ ref ∈ rawReferences, ∀ row ∈ db.rawRecords,
      (decide (row.rawRecordId = rawId)) = true → ref.refers db row = false)
    (h : RawsErased rest
      { db with
        rawRecords := db.rawRecords.delete fun r => r.rawRecordId = rawId
        blobDeletionTasks := tasks } db') : RawsErased (rawId :: rest) db db' where
  frame := by
    obtain ⟨raws, tasks', rfl⟩ := h.frame
    exact ⟨raws, tasks', rfl⟩
  raws r := by
    rw [h.raws]
    simp only [Table.mem_delete, decide_eq_false_iff_not, List.mem_cons]
    constructor
    · rintro ⟨⟨hr, hne⟩, hrest⟩
      exact ⟨hr, fun hmem => hrest (hmem.resolve_left hne)⟩
    · rintro ⟨hr, hall⟩
      refine ⟨⟨hr, fun hid => ?_⟩, fun hmem => hall (Or.inr hmem)⟩
      have htrue := hall (Or.inl hid)
      rw [hid, hretained] at htrue
      cases htrue
  free r hr hmem hnone ref href := by
    by_cases hid : r.rawRecordId = rawId
    · exact hfree ref href r hr (by simp [hid])
    · have hrest := h.free r ((Table.mem_delete _ _ r).mpr ⟨hr, by simp [hid]⟩)
        ((List.mem_cons.mp hmem).resolve_left hid) hnone ref href
      rwa [rawReferences_frame href] at hrest

theorem eraseRaw_yields {raws : List RawRecord}
    (h : (eraseRaw operationId raws).Yields env db n db') :
    RawsErased (raws.map RawRecord.rawRecordId) db db' := by
  induction raws generalizing db n with
  | nil =>
    obtain ⟨-, rfl⟩ := yields_pure.mp h
    exact .nil _
  | cons raw rest ih =>
    obtain ⟨retained, _, h1, h⟩ := h.bind
    obtain ⟨hretained, rfl⟩ := h1.query
    cases retained with
    | true => exact (ih h).kept fun _ _ _ => hretained.symm
    | false =>
      obtain ⟨_, _, h2, h⟩ := Yields.bind h
      obtain ⟨hfree, rfl⟩ := h2.deleteFrom
      obtain ⟨_, _, h3, h⟩ := h.bind
      obtain ⟨tasks, rfl⟩ := scheduleBlobTask_yields h3
      obtain ⟨pending, _, h4, h⟩ := h.bind
      obtain ⟨-, rfl⟩ := yields_pure.mp h
      exact .deleted hretained.symm hfree (ih h4)

theorem eraseConnectionRaws_yields {rawIds : List Uuid}
    (h : (eraseConnectionRaws operationId rawIds).Yields env db n db') :
    RawsErased rawIds db db' := by
  induction rawIds generalizing db n with
  | nil =>
    obtain ⟨-, rfl⟩ := yields_pure.mp h
    exact .nil _
  | cons rawId rest ih =>
    obtain ⟨found, _, h1, h⟩ := h.bind
    obtain ⟨hfound, rfl⟩ := h1.query
    cases found with
    | none =>
      refine (ih h).kept fun r hr hid => ?_
      have hlookup := Table.lookup_mem hr
      rw [hid] at hlookup
      simpa [hlookup] using hfound.symm
    | some raw =>
      obtain ⟨-, hretained⟩ := Option.filter_eq_some_iff.mp hfound.symm
      obtain ⟨_, _, h2, h⟩ := Yields.bind h
      obtain ⟨hfree, rfl⟩ := h2.deleteFrom
      obtain ⟨_, _, h3, h⟩ := h.bind
      obtain ⟨tasks, rfl⟩ := scheduleBlobTask_yields h3
      obtain ⟨pending, _, h4, h⟩ := h.bind
      obtain ⟨-, rfl⟩ := yields_pure.mp h
      exact .deleted (by simpa using hretained) hfree (ih h4)

/-! ## A media source -/

/-- A revision of one of the media rows was read from the evidence. -/
def RevisedFrom (mediaIds : List Uuid) (rawRecordId : Uuid) (db : Db) : Prop :=
  ∃ v ∈ db.mediaRevisions, v.mediaId ∈ mediaIds ∧ v.rawRecordId = rawRecordId

/-- What hangs on the media rows is gone, and so is the evidence of their revisions that no
other revision retains. -/
structure ContentErased (mediaIds : List Uuid) (db db' : Db) : Prop where
  items : db'.syncItems = db.syncItems
  revisions : ∀ v, v ∈ db'.mediaRevisions ↔ v ∈ db.mediaRevisions ∧ ¬ v.mediaId ∈ mediaIds
  relations : ∀ r, r ∈ db'.mediaRelations ↔
    r ∈ db.mediaRelations ∧ ¬ r.parentMediaId ∈ mediaIds ∧ ¬ r.childMediaId ∈ mediaIds
  observations : ∀ o, o ∈ db'.availabilityObservations ↔
    o ∈ db.availabilityObservations ∧ ∀ mediaId ∈ mediaIds, o.mediaId ≠ some mediaId
  raws : ∀ r, r ∈ db'.rawRecords ↔ r ∈ db.rawRecords ∧
    (RevisedFrom mediaIds r.rawRecordId db → rawRetained r.rawRecordId db' = true)
  /-- No staged item named the evidence that went. -/
  unstaged : ∀ r ∈ db.rawRecords, RevisedFrom mediaIds r.rawRecordId db →
    rawRetained r.rawRecordId db' = false → ∀ i ∈ db.syncItems, i.rawRecordId ≠ r.rawRecordId

/-- The media row is gone with its content. -/
structure MediaErased (mediaId : Uuid) (db db' : Db) : Prop where
  frame : ∃ relations observations authorities media revisions raws tasks, db' = { db with
    mediaRelations := relations
    availabilityObservations := observations
    syncAuthorities := authorities
    media := media
    mediaRevisions := revisions
    rawRecords := raws
    blobDeletionTasks := tasks }
  media : ∀ m, m ∈ db'.media ↔ m ∈ db.media ∧ m.mediaId ≠ mediaId
  /-- Only the authority of the account the row belonged to may go. -/
  authorities : ∀ a, (db.media.lookup mediaId).bind Media.accountId ≠ some a.accountId →
    (a ∈ db'.syncAuthorities ↔ a ∈ db.syncAuthorities)
  content : ContentErased [mediaId] db db'

theorem mem_rawBlobs {mediaId : Uuid} {r : RawRecord} :
    r ∈ rawBlobs mediaId db ↔ r ∈ db.rawRecords ∧ RevisedFrom [mediaId] r.rawRecordId db := by
  unfold rawBlobs RevisedFrom
  rw [(List.perm_insertionSort _ _).mem_iff, List.mem_filter, List.any_eq_true, Table.mem_rows]
  simp [Table.mem_rows]

theorem mem_rawBlobs_ids {mediaId : Uuid} {r : RawRecord} (hr : r ∈ db.rawRecords) :
    r.rawRecordId ∈ (rawBlobs mediaId db).map RawRecord.rawRecordId ↔
      RevisedFrom [mediaId] r.rawRecordId db := by
  constructor
  · intro h
    obtain ⟨r', hr', hid⟩ := List.mem_map.mp h
    rw [← hid]
    exact (mem_rawBlobs.mp hr').2
  · intro h
    exact List.mem_map_of_mem (mem_rawBlobs.mpr ⟨hr, h⟩)

theorem rawRetained_eq_true {rawId : Uuid} :
    rawRetained rawId db = true ↔ ∃ v ∈ db.mediaRevisions, v.rawRecordId = rawId := by
  simp [rawRetained, Table.mem_rows]

theorem mem_clearCurrentRevision {mediaId : Uuid} {m : Media} (hm : m.mediaId ≠ mediaId) :
    m ∈ (clearCurrentRevision mediaId db).media ↔ m ∈ db.media := by
  rw [clearCurrentRevision, Table.mem_update_iff]
  constructor
  · rintro (⟨hmem, -⟩ | ⟨old, -, hid, rfl⟩)
    · exact hmem
    · exact (hm (of_decide_eq_true hid)).elim
  · intro hmem
    exact Or.inl ⟨hmem, by simp [hm]⟩

/-- The rows of the source, whatever `authorities` the clearing keeps. -/
theorem eraseMediaRows_yields {mediaId : Uuid} {u : Unit}
    (h : (eraseMediaRows mediaId).Yields env db u db') :
    ∃ media revisions, db' = { db with media := media, mediaRevisions := revisions } ∧
      (∀ m, m ∈ media ↔ m ∈ db.media ∧ m.mediaId ≠ mediaId) ∧
      ∀ v, v ∈ revisions ↔ v ∈ db.mediaRevisions ∧ v.mediaId ≠ mediaId := by
  obtain ⟨_, _, h1, h⟩ := h.bind
  obtain rfl := h1.execute
  obtain ⟨_, _, h2, h⟩ := h.bind
  obtain ⟨-, rfl⟩ := h2.deleteFrom
  obtain ⟨-, rfl⟩ := h.deleteFrom
  refine ⟨_, _, rfl, fun m => ?_, fun v => ?_⟩
  · rw [Table.mem_delete, decide_eq_false_iff_not]
    exact and_congr_left fun hne => mem_clearCurrentRevision hne
  · rw [Table.mem_delete, decide_eq_false_iff_not]
    rfl

/-- Clearing what hangs on a media row, and at most the authority of its account. -/
def Clears (mediaId : Uuid) (clear : Db → Db) : Prop :=
  ∀ db, ∃ authorities,
    clear db = { clearMedia mediaId db with syncAuthorities := authorities } ∧
    ∀ a, (db.media.lookup mediaId).bind Media.accountId ≠ some a.accountId →
      (a ∈ authorities ↔ a ∈ db.syncAuthorities)

theorem clearMedia_clears (mediaId : Uuid) : Clears mediaId (clearMedia mediaId) :=
  fun db => ⟨db.syncAuthorities, rfl, fun _ _ => Iff.rfl⟩

theorem clearAuthority_clears (mediaId : Uuid) :
    Clears mediaId fun db => clearAuthority mediaId (clearMedia mediaId db) := by
  intro db
  refine ⟨_, rfl, fun a ha => ?_⟩
  rw [Table.mem_delete, decide_eq_false_iff_not]
  exact and_iff_left ha

/-- **What erasing a media source does.** -/
theorem eraseMedia_yields {mediaId : Uuid} {clear : Db → Db} (hclear : Clears mediaId clear)
    (h : (eraseMedia operationId mediaId clear).Yields env db n db') : MediaErased mediaId db db' := by
  obtain ⟨blob, _, h1, h⟩ := h.bind
  obtain ⟨-, rfl⟩ := h1.query
  obtain ⟨raws, _, h2, h⟩ := h.bind
  obtain ⟨rfl, rfl⟩ := h2.query
  obtain ⟨_, _, h3, h⟩ := h.bind
  obtain rfl := h3.execute
  obtain ⟨authorities, hcleared, hauthorities⟩ := hclear db
  obtain ⟨_, _, h4, h⟩ := h.bind
  rw [hcleared] at h4
  obtain ⟨media, revisions, rfl, hmedia, hrevisions⟩ := eraseMediaRows_yields h4
  -- the blob task is written before the evidence goes
  have herased : ∃ tasks, RawsErased ((rawBlobs mediaId db).map RawRecord.rawRecordId)
      { clearMedia mediaId db with
        syncAuthorities := authorities
        media := media
        mediaRevisions := revisions
        blobDeletionTasks := tasks } db' := by
    cases blob with
    | none => exact ⟨db.blobDeletionTasks, eraseRaw_yields h⟩
    | some blob =>
      obtain ⟨_, _, h5, h⟩ := Yields.bind h
      obtain ⟨tasks, rfl⟩ := scheduleBlobTask_yields h5
      obtain ⟨pending, _, h6, h⟩ := h.bind
      obtain ⟨-, rfl⟩ := yields_pure.mp h
      exact ⟨tasks, eraseRaw_yields h6⟩
  obtain ⟨tasks, herased⟩ := herased
  obtain ⟨raws, tasks', hframe⟩ := herased.frame
  have hretained : ∀ id, rawRetained id { clearMedia mediaId db with
        syncAuthorities := authorities
        media := media
        mediaRevisions := revisions
        blobDeletionTasks := tasks } = rawRetained id db' := by
    intro id
    rw [hframe]
    rfl
  refine ⟨⟨_, _, _, _, _, _, _, hframe⟩, ?_, ?_, ?_⟩
  · rw [hframe]
    exact hmedia
  · rw [hframe]
    exact hauthorities
  constructor
  case items =>
    rw [hframe]
    rfl
  case revisions =>
    rw [hframe]
    simp only [List.mem_singleton]
    exact hrevisions
  case relations =>
    rw [hframe]
    intro r
    simp [clearMedia, Table.mem_delete]
  case observations =>
    rw [hframe]
    intro o
    simp [clearMedia, Table.mem_delete]
  case raws =>
    intro r
    rw [herased.raws, hretained]
    refine and_congr_right fun hr => ?_
    have hraw : r ∈ db.rawRecords := hr
    rw [mem_rawBlobs_ids hraw]
  case unstaged =>
    intro r hr hrevised hfree i hi hid
    have hunnamed := herased.free r hr ((mem_rawBlobs_ids hr).mpr hrevised)
      ((hretained _).trans hfree) _ (List.mem_of_getElem? (i := 3) rfl)
    simp only [List.any_eq_false, decide_eq_true_eq] at hunnamed
    exact hunnamed i hi hid

theorem rawRetained_mono {rawId : Uuid} (h : ∀ v ∈ db'.mediaRevisions, v ∈ db.mediaRevisions)
    (hretained : rawRetained rawId db' = true) : rawRetained rawId db = true := by
  obtain ⟨v, hv, hid⟩ := rawRetained_eq_true.mp hretained
  exact rawRetained_eq_true.mpr ⟨v, h v hv, hid⟩

theorem ContentErased.of_eq (hitems : db'.syncItems = db.syncItems)
    (hrevisions : db'.mediaRevisions = db.mediaRevisions)
    (hrelations : db'.mediaRelations = db.mediaRelations)
    (hobservations : db'.availabilityObservations = db.availabilityObservations)
    (hraws : db'.rawRecords = db.rawRecords) : ContentErased [] db db' := by
  have hnone : ∀ id, ¬ RevisedFrom [] id db := by simp [RevisedFrom]
  constructor
  case items => exact hitems
  case revisions => simp [hrevisions]
  case relations => simp [hrelations]
  case observations => simp [hobservations]
  case raws => simp [hraws, hnone]
  case unstaged => exact fun r _ hrevised => (hnone _ hrevised).elim

/-- A revision that is gone after both steps went with the first or hung on a row of the second. -/
theorem ContentErased.revised {first second : List Uuid} {rawId : Uuid}
    (h : ContentErased first db db') (hrevised : RevisedFrom (first ++ second) rawId db) :
    RevisedFrom first rawId db ∨ RevisedFrom second rawId db' := by
  obtain ⟨v, hv, hmem, hid⟩ := hrevised
  by_cases hfirst : v.mediaId ∈ first
  · exact Or.inl ⟨v, hv, hfirst, hid⟩
  · exact Or.inr ⟨v, (h.revisions v).mpr ⟨hv, hfirst⟩,
      (List.mem_append.mp hmem).resolve_left hfirst, hid⟩

/-- Evidence retained after the first step and not after the second is named by the second. -/
theorem ContentErased.lost {second : List Uuid} {rawId : Uuid} (h : ContentErased second db' db'')
    (hretained : rawRetained rawId db' = true) (hgone : rawRetained rawId db'' = false) :
    RevisedFrom second rawId db' := by
  obtain ⟨v, hv, hid⟩ := rawRetained_eq_true.mp hretained
  by_cases hmem : v.mediaId ∈ second
  · exact ⟨v, hv, hmem, hid⟩
  · have hkept : rawRetained rawId db'' = true :=
      rawRetained_eq_true.mpr ⟨v, (h.revisions v).mpr ⟨hv, hmem⟩, hid⟩
    rw [hgone] at hkept
    cases hkept

/-- **Two erasures one after the other.** -/
theorem ContentErased.trans {first second : List Uuid} (h : ContentErased first db db')
    (h' : ContentErased second db' db'') : ContentErased (first ++ second) db db'' := by
  have hshrinks : ∀ v ∈ db''.mediaRevisions, v ∈ db'.mediaRevisions := fun v hv =>
    ((h'.revisions v).mp hv).1
  constructor
  case items => exact h'.items.trans h.items
  case revisions =>
    intro v
    rw [h'.revisions, h.revisions, List.mem_append, not_or, and_assoc]
  case relations =>
    intro r
    rw [h'.relations, h.relations]
    simp only [List.mem_append, not_or]
    tauto
  case observations =>
    intro o
    rw [h'.observations, h.observations]
    simp only [List.mem_append]
    grind
  case raws =>
    intro r
    rw [h'.raws, h.raws, and_assoc]
    refine and_congr_right fun hr => ⟨?_, ?_⟩
    · rintro ⟨hfirst, hsecond⟩ hrevised
      by_contra hgone
      have hgone := Bool.eq_false_of_not_eq_true hgone
      rcases h.revised hrevised with hrevised | hrevised
      · have hlost := h'.lost (hfirst hrevised) hgone
        rw [hsecond hlost] at hgone
        cases hgone
      · rw [hsecond hrevised] at hgone
        cases hgone
    · intro hall
      constructor
      · rintro ⟨v, hv, hmem, hid⟩
        exact rawRetained_mono hshrinks (hall ⟨v, hv, List.mem_append_left _ hmem, hid⟩)
      · rintro ⟨v, hv, hmem, hid⟩
        exact hall ⟨v, ((h.revisions v).mp hv).1, List.mem_append_right _ hmem, hid⟩
  case unstaged =>
    intro r hr hrevised hgone
    rw [← h.items]
    by_cases hmid : r ∈ db'.rawRecords
    · rcases h.revised hrevised with hfirst | hsecond
      · have hretained := ((h.raws r).mp hmid).2 hfirst
        exact h'.unstaged r hmid (h'.lost hretained hgone) hgone
      · exact h'.unstaged r hmid hsecond hgone
    · have hnot := (not_congr (h.raws r)).mp hmid
      simp only [not_and, Classical.not_imp, Bool.not_eq_true] at hnot
      obtain ⟨hfirst, hfree⟩ := hnot hr
      rw [h.items]
      exact h.unstaged r hr hfirst hfree

/-! ## The end of a source -/

/-- A source that ends: the aggregate of its outbox rows, and who loses what. -/
structure SourceEnd where
  aggregateType : AggregateType
  aggregateId : Uuid
  owner : Uuid
  sourceId : Uuid
  deriving DecidableEq

/-- The row outlives a deletion that ends the aggregates. -/
def OutboxEvent.outlives (ends : List SourceEnd) (e : OutboxEvent) : Bool :=
  e.unanswered || ends.all fun x =>
    !(x.aggregateType = e.aggregateType && x.aggregateId = e.aggregateId)

/-- The row is the removal that announces the end. -/
def SourceEnd.AnnouncedBy (x : SourceEnd) (e : OutboxEvent) : Prop :=
  ∃ eventId removedAt, e = removalRow x.aggregateType x.aggregateId
    { socialSourceId := x.sourceId, owner := x.owner, reason := .userRequested, removedAt } eventId

/-- The outbox holds one removal for each end, in order, after the rows that outlive them. -/
def Announced (ends : List SourceEnd) (db db' : Db) : Prop :=
  ∃ events, List.Forall₂ SourceEnd.AnnouncedBy ends events ∧
    db'.outboxEvents.rows = db.outboxEvents.rows.filter (OutboxEvent.outlives ends) ++ events

theorem Announced.of_eq (h : db'.outboxEvents = db.outboxEvents) : Announced [] db db' := by
  refine ⟨[], .nil, ?_⟩
  rw [h, List.append_nil, List.filter_eq_self.mpr]
  simp [OutboxEvent.outlives]

theorem outlives_append (first second : List SourceEnd) (e : OutboxEvent) :
    e.outlives (first ++ second) = (e.outlives first && e.outlives second) := by
  unfold OutboxEvent.outlives
  rw [List.all_append]
  cases e.unanswered with
  | true => rfl
  | false => simp

theorem SourceEnd.AnnouncedBy.outlives {x : SourceEnd} {e : OutboxEvent} (h : x.AnnouncedBy e)
    (ends : List SourceEnd) : e.outlives ends = true := by
  obtain ⟨eventId, removedAt, rfl⟩ := h
  rfl

theorem outlives_of_announced {ends second : List SourceEnd} {events : List OutboxEvent}
    (h : List.Forall₂ SourceEnd.AnnouncedBy ends events) :
    events.filter (OutboxEvent.outlives second) = events := by
  induction h with
  | nil => rfl
  | cons hx _ ih => rw [List.filter_cons_of_pos (hx.outlives second), ih]

/-- **Two announcements one after the other.** -/
theorem Announced.trans {first second : List SourceEnd} (h : Announced first db db')
    (h' : Announced second db' db'') : Announced (first ++ second) db db'' := by
  obtain ⟨events, hall, hrows⟩ := h
  obtain ⟨events', hall', hrows'⟩ := h'
  refine ⟨events ++ events', List.rel_append hall hall', ?_⟩
  rw [hrows', hrows, List.filter_append, outlives_of_announced hall, List.filter_filter,
    List.append_assoc]
  congr 2
  funext e
  rw [outlives_append, Bool.and_comm]

theorem dropAggregateEvents_outlives {aggregateType : AggregateType} {aggregateId : Uuid}
    {x : SourceEnd} (htype : x.aggregateType = aggregateType) (hid : x.aggregateId = aggregateId) :
    (dropAggregateEvents aggregateType aggregateId db).outboxEvents.rows =
      db.outboxEvents.rows.filter (OutboxEvent.outlives [x]) := by
  subst htype hid
  rw [dropAggregateEvents, Table.rows_delete]
  congr 1
  funext e
  unfold OutboxEvent.outlives OutboxEvent.unanswered
  by_cases htype : e.aggregateType = x.aggregateType
  · by_cases hid : e.aggregateId = x.aggregateId
    · simp [htype, hid]
    · simp [htype, hid, Ne.symm hid]
  · simp [htype, Ne.symm htype]

/-- The end of a source is announced, the other rows of its aggregate go, and it is marked. -/
structure SourceEnded (x : SourceEnd) (marker : Uuid) (db db' : Db) : Prop where
  frame : ∃ outbox removals, db' =
    { db with outboxEvents := outbox, localSourceRemovals := removals }
  announced : Announced [x] db db'
  marked : (db'.localSourceRemovals.lookup (x.owner, marker)).isSome
  kept : ∀ row ∈ db.localSourceRemovals, row ∈ db'.localSourceRemovals

theorem insertLocalRemoval_yields {row : LocalSourceRemoval} {u : Unit}
    (h : (insertLocalRemoval row).Yields env db u db') :
    ∃ removals, db' = { db with localSourceRemovals := removals } ∧
      (removals.lookup (row.userRef, row.socialSourceId)).isSome ∧
      ∀ old ∈ db.localSourceRemovals, old ∈ removals := by
  obtain ⟨inserted, _, h1, h⟩ := h.bind
  obtain ⟨-, rfl⟩ := yields_pure.mp h
  rcases h1.insertUnless with ⟨hknown, -, rfl⟩ | ⟨-, -, -, t, ht, rfl⟩
  · exact ⟨db.localSourceRemovals, rfl, hknown, fun _ hold => hold⟩
  · refine ⟨t, rfl, ?_, fun old hold => ?_⟩
    · have hkey : LocalSourceRemoval.key row = (row.userRef, row.socialSourceId) := rfl
      rw [Table.lookup_of_insert? ht, if_pos hkey]
      rfl
    · exact (Table.mem_of_insert? ht old).mpr (Or.inl hold)

theorem SourceEnded.of_parts {aggregateType : AggregateType}
    {aggregateId owner sourceId eventId : Uuid} {removedAt : Instant} {row : LocalSourceRemoval}
    {u : Unit} {mid : Db}
    (happ : Appends db (removalRow aggregateType aggregateId
      { socialSourceId := sourceId, owner, reason := .userRequested, removedAt } eventId) mid)
    (hrow : row.userRef = owner)
    (h : (insertLocalRemoval row).Yields env
      (dropAggregateEvents aggregateType aggregateId mid) u db') :
    SourceEnded ⟨aggregateType, aggregateId, owner, sourceId⟩ row.socialSourceId db db' := by
  obtain ⟨removals, rfl, hmarked, hkept⟩ := insertLocalRemoval_yields h
  have hby : SourceEnd.AnnouncedBy ⟨aggregateType, aggregateId, owner, sourceId⟩
      (removalRow aggregateType aggregateId
        { socialSourceId := sourceId, owner, reason := .userRequested, removedAt } eventId) :=
    ⟨eventId, removedAt, rfl⟩
  refine ⟨?_, ⟨[_], .cons hby .nil, ?_⟩, ?_, ?_⟩
  · rw [happ.eq]
    exact ⟨_, _, rfl⟩
  · change (dropAggregateEvents aggregateType aggregateId mid).outboxEvents.rows = _
    rw [dropAggregateEvents_outlives (x := ⟨aggregateType, aggregateId, owner, sourceId⟩) rfl rfl,
      happ.rows, List.filter_append]
    rw [List.filter_cons_of_pos (hby.outlives _), List.filter_nil]
  · rw [← hrow]
    exact hmarked
  · rw [happ.eq] at hkept
    exact hkept

/-- The end of a capture's source. -/
def captureEnd (lib : Externals) (capture : Capture) (permalink : CanonicalPermalink) : SourceEnd :=
  { aggregateType := .capture
    aggregateId := capture.captureId
    owner := capture.userRef
    sourceId := sourceIdentity lib capture.userRef permalink.url }

theorem endCaptureSource_yields {request : DeletionRequest} {capture : Capture} {u : Unit}
    (hcapture : db.captures.lookup capture.captureId = some capture)
    (h : (endCaptureSource lib request capture).Yields env db u db') :
    ∃ permalink, canonicalize capture.canonicalUrl = .ok permalink ∧
      SourceEnded (captureEnd lib capture permalink)
        (sourceIdentity lib capture.userRef capture.canonicalUrl) db db' := by
  obtain ⟨removedAt, _, h1, h⟩ := h.bind
  obtain rfl := h1.nowUtc
  obtain ⟨eventId, mid, h2, h⟩ := h.bind
  obtain ⟨stored, permalink, hstored, hpermalink, happ⟩ := appendRemovalFact_yields h2.mapError
  rw [hcapture] at hstored
  obtain rfl := Option.some.inj hstored
  obtain ⟨_, _, h3, h⟩ := h.bind
  obtain rfl := h3.execute
  have hended : SourceEnded (captureEnd lib capture permalink)
      (sourceIdentity lib capture.userRef capture.canonicalUrl) db db' :=
    SourceEnded.of_parts happ rfl h
  exact ⟨permalink, hpermalink, hended⟩

/-- The end of a media row an account brought in. -/
def connectionEnd (lib : Externals) (owner : Uuid) (m : Media) : SourceEnd :=
  { aggregateType := .media
    aggregateId := m.mediaId
    owner
    sourceId := connectionSource lib owner m }

theorem endConnectionSource_yields {request : DeletionRequest} {m : Media}
    (h : (endConnectionSource lib request m).Yields env db n db') :
    ∃ mid, SourceEnded (connectionEnd lib request.userRef m)
        (connectionSource lib request.userRef m) db mid ∧ MediaErased m.mediaId mid db' := by
  obtain ⟨removedAt, _, h1, h⟩ := h.bind
  obtain rfl := h1.nowUtc
  obtain ⟨eventId, appended, h2, h⟩ := h.bind
  have happ := appendSourceRemovalFact_yields h2.mapError
  obtain ⟨_, _, h3, h⟩ := h.bind
  obtain rfl := h3.execute
  obtain ⟨_, mid, h4, h⟩ := h.bind
  have hended : SourceEnded (connectionEnd lib request.userRef m)
      (connectionSource lib request.userRef m) db mid := SourceEnded.of_parts happ rfl h4
  exact ⟨mid, hended, eraseMedia_yields (clearAuthority_clears m.mediaId) h⟩

/-! ## The sources of a connection -/

/-- A media row after the sources of a connection are settled: gone, detached or untouched. -/
def settledMedia (now : Instant) (held ended : List Uuid) (m : Media) : Option Media :=
  if m.mediaId ∈ ended then none
  else if m.mediaId ∈ held then some { m with accountId := none, updatedAt := now }
  else some m

/-- The sources in `ended` ended, and the rows in `held` were detached from their account. -/
structure SourcesSettled (lib : Externals) (owner : Uuid) (now : Instant)
    (held ended : List Media) (db db' : Db) : Prop where
  frame : ∃ relations observations authorities media revisions raws tasks outbox removals, db' =
    { db with
      mediaRelations := relations
      availabilityObservations := observations
      syncAuthorities := authorities
      media := media
      mediaRevisions := revisions
      rawRecords := raws
      blobDeletionTasks := tasks
      outboxEvents := outbox
      localSourceRemovals := removals }
  media : ∀ m, m ∈ db'.media ↔ ∃ old ∈ db.media,
    settledMedia now (held.map Media.mediaId) (ended.map Media.mediaId) old = some m
  authorities : ∀ a, (∀ m ∈ db.media, m.mediaId ∈ ended.map Media.mediaId →
      m.accountId ≠ some a.accountId) → (a ∈ db'.syncAuthorities ↔ a ∈ db.syncAuthorities)
  content : ContentErased (ended.map Media.mediaId) db db'
  announced : Announced (ended.map (connectionEnd lib owner)) db db'
  marked : ∀ m ∈ ended,
    (db'.localSourceRemovals.lookup (owner, connectionSource lib owner m)).isSome
  kept : ∀ row ∈ db.localSourceRemovals, row ∈ db'.localSourceRemovals

variable {request : DeletionRequest} {owner : Uuid} {m : Media} {held ended : List Media}
  {rows : List Media}

theorem settledMedia_nil (now : Instant) (m : Media) : settledMedia now [] [] m = some m := by
  simp [settledMedia]

theorem settledMedia_bind (now : Instant) (held ended held' ended' : List Uuid) (m : Media) :
    (settledMedia now held ended m).bind (settledMedia now held' ended') =
      settledMedia now (held ++ held') (ended ++ ended') m := by
  unfold settledMedia
  by_cases h1 : m.mediaId ∈ ended <;> by_cases h2 : m.mediaId ∈ held <;>
    by_cases h3 : m.mediaId ∈ ended' <;> by_cases h4 : m.mediaId ∈ held' <;>
    simp [h1, h2, h3, h4]

theorem settledMedia_eq_some {now : Instant} {held ended : List Uuid} {old : Media}
    (h : settledMedia now held ended old = some m) :
    m.mediaId = old.mediaId ∧ (m.accountId = old.accountId ∨ m.accountId = none) := by
  unfold settledMedia at h
  split at h
  · cases h
  · split at h <;> cases h
    · exact ⟨rfl, Or.inr rfl⟩
    · exact ⟨rfl, Or.inl rfl⟩

theorem SourcesSettled.nil (lib : Externals) (owner : Uuid) (now : Instant) (db : Db) :
    SourcesSettled lib owner now [] [] db db where
  frame := ⟨_, _, _, _, _, _, _, _, _, rfl⟩
  media m := by simp [settledMedia_nil]
  authorities _ _ := Iff.rfl
  content := .of_eq rfl rfl rfl rfl rfl
  announced := .of_eq rfl
  marked m hm := (List.not_mem_nil hm).elim
  kept _ hrow := hrow

theorem SourcesSettled.trans {now : Instant} {held' ended' : List Media}
    (h : SourcesSettled lib owner now held ended db db')
    (h' : SourcesSettled lib owner now held' ended' db' db'') :
    SourcesSettled lib owner now (held ++ held') (ended ++ ended') db db'' where
  frame := by
    obtain ⟨_, _, _, _, _, _, _, _, _, rfl⟩ := h.frame
    obtain ⟨_, _, _, _, _, _, _, _, _, hframe⟩ := h'.frame
    exact ⟨_, _, _, _, _, _, _, _, _, hframe⟩
  media m := by
    rw [h'.media, List.map_append, List.map_append]
    simp only [← settledMedia_bind, Option.bind_eq_some_iff, h.media]
    constructor
    · rintro ⟨mid, ⟨old, hold, hmid⟩, hm⟩
      exact ⟨old, hold, mid, hmid, hm⟩
    · rintro ⟨old, hold, mid, hmid, hm⟩
      exact ⟨mid, ⟨old, hold, hmid⟩, hm⟩
  authorities a ha := by
    rw [h'.authorities, h.authorities]
    · intro m hm hmem
      exact ha m hm (by simpa using Or.inl (List.mem_map.mp hmem))
    · intro m hm hmem
      obtain ⟨old, hold, hsettled⟩ := (h.media m).mp hm
      obtain ⟨hid, haccount⟩ := settledMedia_eq_some hsettled
      rw [hid] at hmem
      rcases haccount with haccount | haccount <;> rw [haccount]
      · exact ha old hold (by simpa using Or.inr (List.mem_map.mp hmem))
      · simp
  content := by
    rw [List.map_append]
    exact h.content.trans h'.content
  announced := by
    rw [List.map_append]
    exact h.announced.trans h'.announced
  marked m hm := by
    rcases List.mem_append.mp hm with hm | hm
    · obtain ⟨row, hrow⟩ := Option.isSome_iff_exists.mp (h.marked m hm)
      obtain ⟨hmem, hkey⟩ := Table.lookup_eq_some.mp hrow
      rw [← hkey, Table.lookup_mem (h'.kept row hmem)]
      rfl
    · exact h'.marked m hm
  kept row hrow := h'.kept row (h.kept row hrow)

/-- A row that a capture is linked to is detached. -/
theorem SourcesSettled.detach (lib : Externals) (owner : Uuid) (now : Instant) (m : Media)
    (db : Db) : SourcesSettled lib owner now [m] [] db (detachMedia m.mediaId now db) where
  frame := ⟨_, _, _, _, _, _, _, _, _, rfl⟩
  media m' := by
    rw [detachMedia, Table.mem_update_iff]
    simp only [settledMedia, List.map_cons, List.map_nil, List.not_mem_nil, if_false,
      List.mem_singleton]
    constructor
    · rintro (⟨hm, hid⟩ | ⟨old, hold, hid, rfl⟩)
      · exact ⟨m', hm, if_neg (of_decide_eq_false hid)⟩
      · exact ⟨old, hold, if_pos (of_decide_eq_true hid)⟩
    · rintro ⟨old, hold, hsettled⟩
      by_cases hid : old.mediaId = m.mediaId
      · rw [if_pos hid] at hsettled
        cases hsettled
        exact Or.inr ⟨old, hold, by simpa using hid, rfl⟩
      · rw [if_neg hid] at hsettled
        cases hsettled
        exact Or.inl ⟨hold, by simpa using hid⟩
  authorities _ _ := Iff.rfl
  content := .of_eq rfl rfl rfl rfl rfl
  announced := .of_eq rfl
  marked m hm := (List.not_mem_nil hm).elim
  kept _ hrow := hrow

/-- A row that no capture is linked to ends. -/
theorem SourcesSettled.end (now : Instant)
    (h : (endConnectionSource lib request m).Yields env db n db') :
    SourcesSettled lib request.userRef now [] [m] db db' := by
  obtain ⟨mid, hended, herased⟩ := endConnectionSource_yields h
  obtain ⟨outbox, removals, rfl⟩ := hended.frame
  obtain ⟨relations, observations, authorities, media, revisions, raws, tasks, hframe⟩ :=
    herased.frame
  have hcontent := herased.content
  constructor
  case frame => exact ⟨_, _, _, _, _, _, _, _, _, hframe⟩
  case media =>
    intro m'
    rw [herased.media]
    simp only [settledMedia, List.map_cons, List.map_nil, List.not_mem_nil, if_false,
      List.mem_singleton]
    constructor
    · rintro ⟨hm, hid⟩
      exact ⟨m', hm, by simp [hid]⟩
    · rintro ⟨old, hold, hsettled⟩
      split at hsettled <;> cases hsettled
      exact ⟨hold, ‹_›⟩
  case authorities =>
    intro a ha
    rw [herased.authorities]
    intro hbind
    obtain ⟨row, hrow, haccount⟩ := Option.bind_eq_some_iff.mp hbind
    obtain ⟨hmem, hid⟩ := Table.lookup_eq_some.mp hrow
    exact ha row hmem (by simp [hid]) haccount
  case content =>
    constructor
    case items => exact hcontent.items
    case revisions => exact hcontent.revisions
    case relations => exact hcontent.relations
    case observations => exact hcontent.observations
    case raws => exact hcontent.raws
    case unstaged => exact hcontent.unstaged
  case announced =>
    obtain ⟨events, hall, hrows⟩ := hended.announced
    refine ⟨events, hall, ?_⟩
    rw [hframe]
    exact hrows
  case marked =>
    intro m' hm'
    rw [List.mem_singleton.mp hm', hframe]
    exact hended.marked
  case kept =>
    intro row hrow
    rw [hframe]
    exact hended.kept row hrow

/-- Nothing the loop touches decides whether a capture is linked to a row. -/
theorem SourcesSettled.captureHolding {now : Instant}
    (h : SourcesSettled lib owner now held ended db db') (mediaId : Uuid) :
    captureHolding mediaId db' = captureHolding mediaId db := by
  obtain ⟨_, _, _, _, _, _, _, _, _, rfl⟩ := h.frame
  rfl

/-- **The sources of a connection.** -/
theorem eraseConnectionMedia_yields
    (h : (eraseConnectionMedia lib request rows).Yields env db n db') :
    SourcesSettled lib request.userRef env.now
      (rows.filter fun m => captureHolding m.mediaId db)
      (rows.filter fun m => !captureHolding m.mediaId db) db db' := by
  induction rows generalizing db n with
  | nil =>
    obtain ⟨-, rfl⟩ := yields_pure.mp h
    exact .nil _ _ _ _
  | cons m rest ih =>
    obtain ⟨holding, _, h1, h⟩ := h.bind
    obtain ⟨rfl, rfl⟩ := h1.query
    cases hholding : InstagramArchive.captureHolding m.mediaId db with
    | true =>
      rw [hholding] at h
      obtain ⟨now, _, h2, h⟩ := Yields.bind h
      obtain ⟨rfl, rfl⟩ := h2.now
      obtain ⟨_, _, h3, h⟩ := h.bind
      obtain rfl := h3.execute
      have hrest := SourcesSettled.trans (.detach lib request.userRef env.now m db) (ih h)
      have hsame : ∀ mediaId, InstagramArchive.captureHolding mediaId
          (detachMedia m.mediaId env.now db) = InstagramArchive.captureHolding mediaId db :=
        fun _ => rfl
      simp only [hsame] at hrest
      simpa [hholding] using hrest
    | false =>
      rw [hholding] at h
      obtain ⟨pending, mid, h2, h⟩ := Yields.bind h
      obtain ⟨more, _, h3, h⟩ := h.bind
      obtain ⟨-, rfl⟩ := yields_pure.mp h
      have hended := SourcesSettled.end env.now h2
      have hrest := hended.trans (ih h3)
      simp only [hended.captureHolding] at hrest
      simpa [hholding] using hrest

/-! ## A capture -/

/-- The rows of a capture, dropped. -/
def clearCaptureRows (captureId : Uuid) (db : Db) : Db :=
  { clearCapture captureId db with
    captures := db.captures.delete fun c => c.captureId = captureId }

theorem eraseCaptureRows_yields {captureId : Uuid} {u : Unit}
    (h : (eraseCaptureRows captureId).Yields env db u db') :
    db' = clearCaptureRows captureId db := by
  obtain ⟨_, _, h1, h⟩ := h.bind
  obtain rfl := h1.execute
  obtain ⟨-, rfl⟩ := h.deleteFrom
  rfl

/-- The end of the capture's source, unless the owner holds it through another capture. -/
inductive CaptureSourceEnded (lib : Externals) (capture : Capture) (db db' : Db) : Prop where
  | held (holds : ownerHoldsSource capture db = true) (same : db' = db)
  | ended (last : ownerHoldsSource capture db = false) (permalink : CanonicalPermalink)
      (canonical : canonicalize capture.canonicalUrl = .ok permalink)
      (source : SourceEnded (captureEnd lib capture permalink)
        (sourceIdentity lib capture.userRef capture.canonicalUrl) db db')

/-- The media row of the capture, erased unless something else relies on it. -/
inductive UnheldMediaErased (mediaId : Option Uuid) (db db' : Db) : Prop where
  | kept (holding : ∀ id ∈ mediaId, independentHolding id db = true) (same : db' = db)
  | erased (id : Uuid) (linked : mediaId = some id) (unheld : independentHolding id db = false)
      (erases : MediaErased id db db')

theorem eraseUnheldMedia_yields {mediaId : Option Uuid}
    (h : (eraseUnheldMedia operationId mediaId).Yields env db n db') :
    UnheldMediaErased mediaId db db' := by
  cases mediaId with
  | none =>
    obtain ⟨-, rfl⟩ := yields_pure.mp h
    exact .kept (fun id hid => by cases hid) rfl
  | some mediaId =>
    obtain ⟨independent, _, h1, h⟩ := h.bind
    obtain ⟨rfl, rfl⟩ := h1.query
    split at h
    · rename_i hholding
      obtain ⟨-, rfl⟩ := yields_pure.mp h
      refine .kept (fun id hid => ?_) rfl
      cases hid
      exact hholding
    · rename_i hunheld
      exact .erased mediaId rfl (Bool.eq_false_of_not_eq_true hunheld)
        (eraseMedia_yields (clearMedia_clears mediaId) h)

/-- **The rows of a capture**: its source ends, its rows go, and its media row is settled. -/
theorem applyCaptureRows_yields {captureId : Uuid}
    (h : (applyCaptureRows lib request captureId).Yields env db n db') :
    ∃ capture mid, db.captures.lookup captureId = some capture ∧
      CaptureSourceEnded lib capture db mid ∧
      UnheldMediaErased capture.mediaId (clearCaptureRows captureId mid) db' := by
  obtain ⟨capture, _, h1, h⟩ := h.bind
  obtain ⟨hcapture, rfl⟩ := h1.fetchOne
  obtain ⟨held, _, h2, h⟩ := h.bind
  obtain ⟨rfl, rfl⟩ := h2.query
  obtain ⟨_, hid⟩ := Table.lookup_eq_some.mp hcapture
  cases hheld : ownerHoldsSource capture db with
  | true =>
    rw [hheld] at h
    obtain ⟨_, _, h4, h⟩ := Yields.bind h
    obtain rfl := eraseCaptureRows_yields h4
    exact ⟨capture, db, hcapture, .held hheld rfl, eraseUnheldMedia_yields h⟩
  | false =>
    rw [hheld] at h
    obtain ⟨_, mid, h3, h⟩ := h.bind
    obtain ⟨permalink, hpermalink, hended⟩ := endCaptureSource_yields (hid ▸ hcapture) h3
    obtain ⟨_, _, h4, h⟩ := h.bind
    obtain rfl := eraseCaptureRows_yields h4
    exact ⟨capture, mid, hcapture, .ended hheld permalink hpermalink hended,
      eraseUnheldMedia_yields h⟩

end Parts

end InstagramArchive

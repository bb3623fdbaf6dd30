import InstagramArchive.DeletionSteps
import InstagramArchive.OwnMediaPublication

/-!
# Deleting a connection

A committed deletion of a connection leaves no row that names the account, ends the sources
no capture holds, detaches the others, and takes the evidence that no revision retains. The
media rows go before the staged items do, so a deletion is refused as long as a staged item
names evidence that only rows without a capture were read from: the foreign key of the
staged item stops the statement that deletes the evidence.
-/

namespace InstagramArchive

open Relational Relational.Tx

/-! ## The rows of the account -/

/-- No row of any table that refers to accounts names the account. -/
def Unnamed (accountId : Uuid) (db : Db) : Prop :=
  ∀ ref ∈ accountReferences, ∀ a : Account, a.accountId = accountId → ref.refers db a = false

/-- The synchronization of an account, dropped. -/
def clearSync (accountId : Uuid) (db : Db) : Db :=
  { db with
    syncAuthorities := db.syncAuthorities.delete fun a => a.accountId = accountId
    syncStates := db.syncStates.delete fun s => s.accountId = accountId
    syncItems := db.syncItems.delete fun i => runOfAccount accountId i.runId db
    syncRuns := db.syncRuns.delete fun r => r.accountId = accountId }

theorem eraseSyncRows_yields {env : Env} {accountId : Uuid} {db db' : Db} {u : Unit}
    (h : (eraseSyncRows accountId).Yields env db u db') : db' = clearSync accountId db := by
  obtain ⟨_, _, h1, h⟩ := h.bind
  obtain rfl := h1.execute
  obtain ⟨_, _, h2, h⟩ := h.bind
  obtain rfl := h2.execute
  obtain ⟨-, rfl⟩ := h.deleteFrom
  rfl

/-- The media rows of a connection that a capture is linked to. -/
def heldRows (accountId : Uuid) (db : Db) : List Media :=
  (connectionMedia accountId db).filter fun m => captureHolding m.mediaId db

/-- The media rows of a connection that no capture is linked to. -/
def endedRows (accountId : Uuid) (db : Db) : List Media :=
  (connectionMedia accountId db).filter fun m => !captureHolding m.mediaId db

theorem mem_connectionMedia {accountId : Uuid} {db : Db} {m : Media} :
    m ∈ connectionMedia accountId db ↔ m ∈ db.media ∧ m.accountId = some accountId := by
  rw [connectionMedia, (List.perm_insertionSort _ _).mem_iff, List.mem_filter,
    decide_eq_true_eq, Table.mem_rows]

theorem mem_heldRows {accountId : Uuid} {db : Db} {m : Media} :
    m ∈ heldRows accountId db ↔
      m ∈ db.media ∧ m.accountId = some accountId ∧ captureHolding m.mediaId db = true := by
  rw [heldRows, List.mem_filter, mem_connectionMedia, and_assoc]

theorem mem_endedRows {accountId : Uuid} {db : Db} {m : Media} :
    m ∈ endedRows accountId db ↔
      m ∈ db.media ∧ m.accountId = some accountId ∧ captureHolding m.mediaId db = false := by
  rw [endedRows, List.mem_filter, mem_connectionMedia, and_assoc, Bool.not_eq_true']

/-- What a connection deletion goes through: the sources are settled, the rows of the
account are cleared, its evidence is erased, and then nothing refers to it. -/
structure ConnectionErased (lib : Externals) (owner accountId : Uuid) (now : Instant)
    (db db' : Db) : Prop where
  steps : ∃ settled raws,
    SourcesSettled lib owner now (heldRows accountId db) (endedRows accountId db) db settled ∧
    RawsErased (connectionRawIds accountId db)
      (clearAccount accountId (clearSync accountId settled)) raws ∧
    (∀ ref ∈ accountReferences, ∀ a ∈ raws.accounts, a.accountId = accountId →
      ref.refers raws a = false) ∧
    db' = { raws with accounts := raws.accounts.delete fun a => a.accountId = accountId }

section Rows

variable {lib : Externals} {env : Env} {request : DeletionRequest} {accountId : Uuid} {n : Nat}
  {db db' : Db}

theorem applyConnectionRows_yields
    (h : (applyConnectionRows lib request accountId).Yields env db n db') :
    ConnectionErased lib request.userRef accountId env.now db db' := by
  obtain ⟨rawIds, _, h1, h⟩ := h.bind
  obtain ⟨rfl, rfl⟩ := h1.query
  obtain ⟨rows, _, h2, h⟩ := h.bind
  obtain ⟨rfl, rfl⟩ := h2.query
  obtain ⟨pending, settled, h3, h⟩ := h.bind
  have hsettled := eraseConnectionMedia_yields h3
  obtain ⟨_, _, h4, h⟩ := h.bind
  obtain rfl := eraseSyncRows_yields h4
  obtain ⟨_, _, h5, h⟩ := h.bind
  obtain rfl := h5.execute
  obtain ⟨more, raws, h6, h⟩ := h.bind
  have hraws := eraseConnectionRaws_yields h6
  obtain ⟨_, _, h7, h⟩ := h.bind
  obtain ⟨hfree, rfl⟩ := h7.deleteFrom
  obtain ⟨-, rfl⟩ := yields_pure.mp h
  exact ⟨settled, raws, hsettled, hraws, fun ref href a ha hid => hfree ref href a ha (by simp [hid]),
    rfl⟩

end Rows

/-! ## The state it leaves -/

/-- The evidence a connection deletion looks at. -/
def ConnectionEvidence (accountId rawRecordId : Uuid) (db : Db) : Prop :=
  RevisedFrom ((endedRows accountId db).map Media.mediaId) rawRecordId db ∨
    rawRecordId ∈ connectionRawIds accountId db

/-- What a committed connection deletion leaves. -/
structure ConnectionGone (accountId : Uuid) (db db' : Db) : Prop where
  /-- Besides the tables of the media rows, exactly the rows of the account are cleared. -/
  frame : ∃ operations effects relations observations authorities media revisions raws tasks outbox
    removals, db' =
    { clearAccount accountId (clearSync accountId db) with
      deletionOperations := operations
      deletionEffects := effects
      accounts := db.accounts.delete fun a => a.accountId = accountId
      mediaRelations := relations
      availabilityObservations := observations
      syncAuthorities := authorities
      media := media
      mediaRevisions := revisions
      rawRecords := raws
      blobDeletionTasks := tasks
      outboxEvents := outbox
      localSourceRemovals := removals }
  authorities : ∀ a, a ∈ db'.syncAuthorities ↔ a ∈ db.syncAuthorities ∧ a.accountId ≠ accountId
  unnamed : Unnamed accountId db'
  evidence : ∀ r, r ∈ db'.rawRecords ↔ r ∈ db.rawRecords ∧
    (ConnectionEvidence accountId r.rawRecordId db → rawRetained r.rawRecordId db' = true)

/-- What a committed connection deletion does to the media rows and to the outbox. -/
structure ConnectionSettled (lib : Externals) (owner accountId : Uuid) (now : Instant)
    (db db' : Db) : Prop where
  media : ∀ m, m ∈ db'.media ↔ ∃ old ∈ db.media,
    settledMedia now ((heldRows accountId db).map Media.mediaId)
      ((endedRows accountId db).map Media.mediaId) old = some m
  revisions : ∀ v, v ∈ db'.mediaRevisions ↔
    v ∈ db.mediaRevisions ∧ ¬ v.mediaId ∈ (endedRows accountId db).map Media.mediaId
  relations : ∀ r, r ∈ db'.mediaRelations ↔ r ∈ db.mediaRelations ∧
    ¬ r.parentMediaId ∈ (endedRows accountId db).map Media.mediaId ∧
    ¬ r.childMediaId ∈ (endedRows accountId db).map Media.mediaId
  announced : Announced ((endedRows accountId db).map (connectionEnd lib owner)) db db'
  marked : ∀ m ∈ endedRows accountId db,
    (db'.localSourceRemovals.lookup (owner, connectionSource lib owner m)).isSome

section Gone

variable {lib : Externals} {owner accountId : Uuid} {now : Instant} {db db' : Db}

/-- Whether a row refers to an account depends on the id of the account alone. -/
theorem accountReferences_congr {ref : Reference Db Account} (href : ref ∈ accountReferences)
    {a b : Account} (hid : a.accountId = b.accountId) (db : Db) :
    ref.refers db a = ref.refers db b := by
  simp only [accountReferences, List.mem_cons, List.not_mem_nil, or_false] at href
  rcases href with rfl | rfl | rfl | rfl | rfl | rfl | rfl | rfl | rfl | rfl | rfl
  all_goals
    dsimp only
    rw [hid]

/-- No row of the accounts or of the operations refers to an account. -/
theorem accountReferences_frame {ref : Reference Db Account} (href : ref ∈ accountReferences)
    (accounts : Table Account Account.accountId)
    (operations : Table DeletionOperation DeletionOperation.operationId) (db : Db) (a : Account) :
    ref.refers { db with accounts := accounts, deletionOperations := operations } a =
      ref.refers db a := by
  simp only [accountReferences, List.mem_cons, List.not_mem_nil, or_false] at href
  rcases href with rfl | rfl | rfl | rfl | rfl | rfl | rfl | rfl | rfl | rfl | rfl
  all_goals rfl

theorem mem_endedRows_ids {m : Media} (hm : m ∈ db.media) :
    m.mediaId ∈ (endedRows accountId db).map Media.mediaId ↔
      m.accountId = some accountId ∧ captureHolding m.mediaId db = false := by
  constructor
  · intro hmem
    obtain ⟨m', hm', hid⟩ := List.mem_map.mp hmem
    obtain ⟨hrow, haccount, hfree⟩ := mem_endedRows.mp hm'
    rw [← Table.eq_of_key_eq hrow hm hid]
    exact ⟨haccount, hfree⟩
  · rintro ⟨haccount, hfree⟩
    exact List.mem_map_of_mem (mem_endedRows.mpr ⟨hm, haccount, hfree⟩)

theorem ConnectionErased.gone (h : ConnectionErased lib owner accountId now db db')
    (haccount : ∃ a ∈ db.accounts, a.accountId = accountId) : ConnectionGone accountId db db' := by
  obtain ⟨settled, raws, hs, hr, hfree, rfl⟩ := h.steps
  obtain ⟨_, _, authorities, _, _, _, _, _, _, hsframe⟩ := hs.frame
  obtain ⟨rawTable, tasks, rfl⟩ := hr.frame
  constructor
  case frame =>
    rw [hsframe]
    exact ⟨_, _, _, _, _, _, _, _, _, _, _, rfl⟩
  case authorities =>
    intro a
    change a ∈ settled.syncAuthorities.delete _ ↔ _
    rw [Table.mem_delete, decide_eq_false_iff_not]
    refine and_congr_left fun hne => hs.authorities a fun m hm hmem => ?_
    rw [((mem_endedRows_ids hm).mp hmem).1]
    exact fun hid => hne (Option.some.inj hid).symm
  case unnamed =>
    intro ref href a hid
    obtain ⟨row, hrow, hrowid⟩ := haccount
    have hrow' : row ∈ settled.accounts := by
      rw [hsframe]
      exact hrow
    have hnone := hfree ref href row hrow' hrowid
    rw [accountReferences_congr href (hrowid.trans hid.symm)] at hnone
    exact (accountReferences_frame href _ settled.deletionOperations _ a).trans hnone
  case evidence =>
    intro r
    have hraw := hr.raws r
    have hret : ∀ id, rawRetained id (clearAccount accountId (clearSync accountId settled)) =
        rawRetained id settled := fun _ => rfl
    rw [hret] at hraw
    refine hraw.trans ?_
    change (r ∈ settled.rawRecords ∧ _) ↔ _
    rw [hs.content.raws, and_assoc]
    refine and_congr_right fun _ => ?_
    exact or_imp.symm

theorem ConnectionErased.settled (h : ConnectionErased lib owner accountId now db db') :
    ConnectionSettled lib owner accountId now db db' := by
  obtain ⟨settled, raws, hs, hr, -, rfl⟩ := h.steps
  obtain ⟨rawTable, tasks, rfl⟩ := hr.frame
  constructor
  case media => exact hs.media
  case revisions => exact hs.content.revisions
  case relations => exact hs.content.relations
  case announced => exact hs.announced
  case marked => exact hs.marked

/-- What a new connection deletion that commits went through. -/
theorem applyDeletion_connection {env : Env} {request : DeletionRequest} {result : DeletionResult}
    (htarget : request.target = .connection accountId) (hload : loadExisting request db = none)
    (h : (applyDeletion lib request).Yields env db result db') :
    (∃ a ∈ db.accounts, a.accountId = accountId) ∧ ∃ operations effects mid state,
      ConnectionErased lib request.userRef accountId env.now
        { db with deletionOperations := operations, deletionEffects := effects } mid ∧
      db' = finishDeletion request.operationId state env.now mid := by
  rcases applyDeletion_yields h with ⟨hstored, -⟩ |
    ⟨-, howner, -, operations, effects, mid, pending, -, ht, rfl⟩
  · rw [hload] at hstored
    cases hstored
  unfold applyTargetRows at ht
  rw [htarget] at ht howner
  obtain ⟨a, ha, -⟩ := Option.map_eq_some_iff.mp howner
  exact ⟨⟨a, Table.lookup_eq_some.mp ha⟩, operations, effects, mid, _,
    applyConnectionRows_yields ht, rfl⟩

/-- **A committed connection deletion**: no row names the account, exactly its rows are
cleared, and the evidence it looks at is gone unless a revision retains it. -/
theorem connection_erased (lib : Externals) (env : Env) (request : DeletionRequest)
    (accountId : Uuid) (result : DeletionResult) (db db' : Db)
    (htarget : request.target = .connection accountId)
    (hload : loadExisting request db = none)
    (h : (applyDeletion lib request).Yields env db result db') :
    ConnectionGone accountId db db' := by
  obtain ⟨haccount, operations, effects, mid, state, herased, rfl⟩ :=
    applyDeletion_connection htarget hload h
  have hgone := herased.gone haccount
  obtain ⟨_, _, _, _, _, _, _, _, _, _, _, hframe⟩ := hgone.frame
  constructor
  case frame =>
    rw [hframe]
    exact ⟨_, _, _, _, _, _, _, _, _, _, _, rfl⟩
  case authorities => exact hgone.authorities
  case unnamed =>
    intro ref href a hid
    exact (accountReferences_frame href mid.accounts _ mid a).trans (hgone.unnamed ref href a hid)
  case evidence => exact hgone.evidence

end Gone

/-- The owner of the connected account deletes it. -/
def connectionDeletion : DeletionRequest := ⟨8, 9, .connection 1⟩

/-- The page of one post, staged. -/
def stagedPost : SyncItem :=
  { runId := 30, providerMediaId := "a", ownerProviderAccountId := "p", mediaType := .image,
    permalink := "https://www.instagram.com/p/a/", caption := none, publishedAt := 0,
    mediaUrl := none, thumbnailUrl := none, rawRecordId := 31, observedAt := 0 }

def heldPost (mediaId : Uuid) (name : String) (accountId : Uuid) : Media :=
  { mediaId, accountId := some accountId, providerMediaId := some name,
    permalink := "https://www.instagram.com/p/" ++ name ++ "/", mediaType := .image,
    caption := none, acquisitionMethod := .officialApi,
    savedAuthority := .authoritativePlatformState, upstreamStatus := .available,
    createdAt := 0, updatedAt := 0 }

def storedAnswer (rawRecordId : Uuid) : RawRecord :=
  { rawRecordId, recordKind := .apiResponse, blobRef := "", contentHash := [], byteSize := 2,
    body := "[]", observedAt := 0 }

def revisionOf (revisionId mediaId rawRecordId : Uuid) : MediaRevision :=
  { revisionId, mediaId, rawRecordId, parserVersion := ownMediaParserVersion, resolvedAt := 0 }

/-- Two connected accounts with own media, evidence and synchronization. The first has a post that
a capture is linked to, one that none is, and a run that staged a third; the second has a post and
a staged one. -/
def twoAccountsDb : Db :=
  { connectedDb with
    accounts := ⟨[connectedAccount, { connectedAccount with accountId := 2 }], by decide⟩
    media := ⟨[heldPost 60 "x" 1, heldPost 61 "y" 1, heldPost 62 "z" 2], by decide⟩
    captures := ⟨[{ captureId := 50, userRef := 7, mediaId := some 61,
                    canonicalUrl := "https://www.instagram.com/p/y/",
                    acquisitionMethod := .shareExtension,
                    savedAuthority := .explicitUserCapture, clientSource := .iosShareExtension,
                    status := .resolved, note := none, clientIdempotencyKey := none,
                    capturedAt := 0, createdAt := 0 }], by decide⟩
    rawRecords := ⟨[31, 41, 42, 43, 44].map storedAnswer, by decide⟩
    mediaRevisions := ⟨[revisionOf 51 60 41, revisionOf 52 61 42, revisionOf 53 62 43], by decide⟩
    syncRuns := ⟨[{ runId := 30, accountId := 1, userRef := 9, capabilityGenerationId := 5,
                    status := .running, startedAt := 0, updatedAt := 0 },
                  { runId := 32, accountId := 2, userRef := 9, capabilityGenerationId := 5,
                    status := .running, startedAt := 0, updatedAt := 0 }], by decide⟩
    syncItems := ⟨[stagedPost, { stagedPost with runId := 32, rawRecordId := 44 }], by decide⟩
    syncStates := ⟨[⟨1, none, 60, some 30, none, 0⟩, ⟨2, none, 60, some 32, none, 0⟩], by decide⟩ }

/-- The state once the first account is deleted. -/
def remainingDb : Db :=
  ((applyDeletion reference connectionDeletion).exec (quietEnv 20 200) twoAccountsDb).2

theorem connection_erased_twoAccountsDb :
    remainingDb.accounts.rows.map Account.accountId = [2] ∧
      remainingDb.media.rows.map (fun m => (m.mediaId, m.accountId)) =
        [(61, none), (62, some 2)] ∧
      remainingDb.rawRecords.rows.map RawRecord.rawRecordId = [42, 43, 44] ∧
      remainingDb.syncRuns.rows.map SyncRun.runId = [32] ∧
      ConnectionGone 1 twoAccountsDb remainingDb := by
  have hresult : ((applyDeletion reference connectionDeletion).exec (quietEnv 20 200)
      twoAccountsDb).1 = .ok ⟨8, buildPlan connectionDeletion⟩ := by
    decide +kernel
  have hgone := connection_erased reference (quietEnv 20 200) connectionDeletion 1
    ⟨8, buildPlan connectionDeletion⟩ twoAccountsDb remainingDb rfl rfl (exec_yields hresult)
  have hleft : remainingDb.accounts.rows.map Account.accountId = [2] ∧
      remainingDb.media.rows.map (fun m => (m.mediaId, m.accountId)) =
        [(61, none), (62, some 2)] ∧
      remainingDb.rawRecords.rows.map RawRecord.rawRecordId = [42, 43, 44] ∧
      remainingDb.syncRuns.rows.map SyncRun.runId = [32] := by
    decide +kernel
  exact ⟨hleft.1, hleft.2.1, hleft.2.2.1, hleft.2.2.2, hgone⟩

/-! ## Evidence that stops a deletion -/

/-- A staged item names stored evidence that was read for media rows of the account only, and
no capture is linked to any of them. -/
def Pinned (accountId : Uuid) (db : Db) : Prop :=
  ∃ i ∈ db.syncItems, (∃ raw ∈ db.rawRecords, raw.rawRecordId = i.rawRecordId) ∧
    (∃ v ∈ db.mediaRevisions, v.rawRecordId = i.rawRecordId) ∧
    ∀ v ∈ db.mediaRevisions, v.rawRecordId = i.rawRecordId → ∃ m ∈ db.media,
      m.mediaId = v.mediaId ∧ m.accountId = some accountId ∧ captureHolding m.mediaId db = false

section Refused

variable {lib : Externals} {accountId : Uuid} {db db' : Db}

/-- The evidence of a pinned account cannot go: the staged item still names it. -/
theorem ConnectionErased.unpinned {owner : Uuid} {now : Instant}
    (h : ConnectionErased lib owner accountId now db db') : ¬ Pinned accountId db := by
  rintro ⟨i, hi, ⟨raw, hraw, hrawid⟩, ⟨v, hv, hvraw⟩, hall⟩
  obtain ⟨settled, raws, hs, -, -, -⟩ := h.steps
  have hended : ∀ v ∈ db.mediaRevisions, v.rawRecordId = i.rawRecordId →
      v.mediaId ∈ (endedRows accountId db).map Media.mediaId := by
    intro v hv hid
    obtain ⟨m, hm, hmid, haccount, hfree⟩ := hall v hv hid
    rw [← hmid]
    exact (mem_endedRows_ids hm).mpr ⟨haccount, hfree⟩
  have hrevised : RevisedFrom ((endedRows accountId db).map Media.mediaId) raw.rawRecordId db :=
    ⟨v, hv, hended v hv hvraw, hvraw.trans hrawid.symm⟩
  have hgone : rawRetained raw.rawRecordId settled = false := by
    rw [Bool.eq_false_iff, ne_eq, rawRetained_eq_true]
    rintro ⟨v', hv', hid⟩
    obtain ⟨hold, hnot⟩ := (hs.content.revisions v').mp hv'
    exact hnot (hended v' hold (hid.trans hrawid))
  exact hs.content.unstaged raw hraw hrevised hgone i hi hrawid.symm

theorem Pinned.refused (hp : Pinned accountId db) (env : Env) (request : DeletionRequest)
    (htarget : request.target = .connection accountId) (hload : loadExisting request db = none) :
    ∃ e, (applyDeletion lib request).exec env db = (.error e, db) := by
  rcases exec_cases (applyDeletion lib request) env db with ⟨result, db', hexec, h⟩ | ⟨e, hexec⟩
  · obtain ⟨-, operations, effects, mid, state, herased, -⟩ :=
      applyDeletion_connection htarget hload h
    exact (herased.unpinned hp).elim
  · exact ⟨e, hexec⟩

/-- The revisions a completion appends: one for each item, read from the evidence of the item
and hanging on a row of the account that has the identity of the item. -/
structure Revised (accountId : Uuid) (items : List SyncItem) (db db' : Db) : Prop where
  origin : ∀ v ∈ db'.mediaRevisions, v ∈ db.mediaRevisions ∨
    ∃ i ∈ items, v.rawRecordId = i.rawRecordId ∧ ∃ m ∈ db'.media, m.mediaId = v.mediaId ∧
      m.accountId = some accountId ∧ m.providerMediaId = some i.providerMediaId
  appended : ∀ i ∈ items, ∃ v ∈ db'.mediaRevisions, v.rawRecordId = i.rawRecordId
  kept : ∀ v ∈ db.mediaRevisions, v ∈ db'.mediaRevisions
  /-- A row of the account keeps its id, its account and its identity. -/
  rows : ∀ m ∈ db.media, m.accountId = some accountId → ∃ m' ∈ db'.media,
    m'.mediaId = m.mediaId ∧ m'.accountId = some accountId ∧
      m'.providerMediaId = m.providerMediaId

theorem ClaimedBy.rows {env : Env} {now : Instant} {item : SyncItem} {base : Media}
    {revisionId : Uuid} (h : ClaimedBy env accountId now item base revisionId db db') {m : Media}
    (hm : m ∈ db.media) (haccount : m.accountId = some accountId) : ∃ m' ∈ db'.media,
      m'.mediaId = m.mediaId ∧ m'.accountId = some accountId ∧
        m'.providerMediaId = m.providerMediaId := by
  obtain ⟨m', hm', hid, hprovider⟩ := h.kept hm
  refine ⟨m', hm', hid, ?_, hprovider⟩
  rcases (h.media m').mp hm' with ⟨hold, -⟩ | rfl
  · rw [Table.eq_of_key_eq hold hm hid]
    exact haccount
  · rfl

theorem applyStagedItems_revised {env : Env} {now : Instant} {items : List SyncItem} {u : Unit}
    (h : (applyStagedItems accountId now items).Yields env db u db') :
    Revised accountId items db db' := by
  induction items generalizing db with
  | nil =>
    obtain ⟨-, rfl⟩ := yields_pure.mp h
    exact ⟨fun v hv => Or.inl hv, by simp, fun v hv => hv, fun m hm ha => ⟨m, hm, rfl, ha, rfl⟩⟩
  | cons item rest ih =>
    obtain ⟨_, mid, h1, h⟩ := h.bind
    obtain ⟨base, revisionId, hitem⟩ := applyStagedItem_yields h1
    have hrest := ih h
    have hmem : ∀ v, v ∈ mid.mediaRevisions ↔ v ∈ db.mediaRevisions ∨
        v = { revisionId, mediaId := base.mediaId, rawRecordId := item.rawRecordId,
              parserVersion := ownMediaParserVersion, resolvedAt := now } := by
      intro v
      rw [Table.mem_rows, hitem.revisions, List.mem_append, List.mem_singleton, Table.mem_rows]
    constructor
    case origin =>
      intro v hv
      rcases hrest.origin v hv with hv | ⟨i, hi, hraw, hrow⟩
      · rcases (hmem v).mp hv with hv | rfl
        · exact Or.inl hv
        · obtain ⟨m, hm, hid, haccount, hprovider⟩ :=
            hrest.rows _ ((hitem.media _).mpr (Or.inr rfl)) rfl
          exact Or.inr ⟨item, List.mem_cons_self, rfl, m, hm, hid, haccount,
            hprovider.trans hitem.provider⟩
      · exact Or.inr ⟨i, List.mem_cons_of_mem item hi, hraw, hrow⟩
    case appended =>
      intro i hi
      rcases List.mem_cons.mp hi with rfl | hi
      · exact ⟨_, hrest.kept _ ((hmem _).mpr (Or.inr rfl)), rfl⟩
      · exact hrest.appended i hi
    case kept => exact fun v hv => hrest.kept v ((hmem v).mpr (Or.inl hv))
    case rows =>
      intro m hm haccount
      obtain ⟨m1, hm1, hid1, haccount1, hprovider1⟩ := hitem.rows hm haccount
      obtain ⟨m2, hm2, hid2, haccount2, hprovider2⟩ := hrest.rows m1 hm1 haccount1
      exact ⟨m2, hm2, hid2.trans hid1, haccount2, hprovider2.trans hprovider1⟩

/-- **A completed run stops the deletion of its connection**: in the state it leaves, the evidence
of its items is named by the staged items and by their revisions alone, and if no capture is
linked to the rows there, no request deletes the connection. -/
theorem completed_run_stops_deletion (lib : Externals) (env : Env) (config : OwnMediaSyncConfig)
    (ctx : SyncContext) (runId : Uuid) (candidate : Option String) (now : Instant) (db db' : Db)
    (i : SyncItem) (hcompleted : (finalizeRun lib config ctx runId candidate now).Yields env db true db')
    (hitem : i ∈ stagedItems runId db)
    (hstored : ∃ raw ∈ db.rawRecords, raw.rawRecordId = i.rawRecordId)
    (hfresh : ∀ v ∈ db.mediaRevisions, v.rawRecordId ≠ i.rawRecordId)
    (hfree : ∀ j ∈ stagedItems runId db, j.rawRecordId = i.rawRecordId → ∀ m ∈ db'.media,
      m.providerMediaId = some j.providerMediaId → ∀ c ∈ db'.captures, c.mediaId ≠ some m.mediaId)
    (env' : Env) (request : DeletionRequest)
    (htarget : request.target = .connection ctx.accountId)
    (hload : loadExisting request db' = none) :
    ∃ e, (applyDeletion lib request).exec env' db' = (.error e, db') := by
  refine Pinned.refused ?_ env' request htarget hload
  rcases finalizeRun_yields hcompleted with ⟨hfalse, -, -⟩ |
    ⟨-, -, applied, published, n, happly, hpublish, rfl⟩
  · cases hfalse
  have hrevised := applyStagedItems_revised happly
  obtain ⟨media, revisions, hmedia⟩ := applyStagedItems_onlyMedia _ _ _ _ _ _ _ happly
  obtain ⟨outbox, houtbox⟩ := appendOwnMediaFacts_onlyOutbox runId ctx.userRef candidate now
    _ _ _ _ hpublish
  have hrevisions : published.mediaRevisions = applied.mediaRevisions := by rw [houtbox]
  have hrows : published.media = applied.media := by rw [houtbox]
  refine ⟨i, ?_, ?_, ?_, ?_⟩
  · change i ∈ published.syncItems
    rw [houtbox, hmedia]
    exact (mem_stagedItems.mp hitem).1
  · change ∃ raw ∈ published.rawRecords, _
    rw [houtbox, hmedia]
    exact hstored
  · change ∃ v ∈ published.mediaRevisions, _
    rw [hrevisions]
    exact hrevised.appended i hitem
  · change ∀ v ∈ published.mediaRevisions, _ → ∃ m ∈ published.media, _
    rw [hrevisions, hrows]
    intro v hv hraw
    rcases hrevised.origin v hv with hold | ⟨j, hj, hjraw, m, hm, hid, haccount, hprovider⟩
    · exact (hfresh v hold hraw).elim
    · refine ⟨m, hm, hid, haccount, ?_⟩
      have hnone := hfree j hj (hjraw.symm.trans hraw) m (by rw [← hrows] at hm; exact hm) hprovider
      simpa [captureHolding, Table.mem_rows] using hnone

end Refused

/-- The connected account with a run that staged the page. -/
def stagedDb : Db :=
  { connectedDb with
    syncRuns := ⟨[{ runId := 30, accountId := 1, userRef := 9, capabilityGenerationId := 5,
                    status := .running, startedAt := 0, updatedAt := 0 }], by decide⟩
    rawRecords := ⟨[storedAnswer 31], by decide⟩
    syncItems := ⟨[stagedPost], by decide⟩ }

/-- The database once the run completed. -/
def completedDb : Db :=
  ((finalizeRun reference (pageByPage 1) ⟨1, 9, 5, "p"⟩ 30 (some "a") 0).exec (quietEnv 10 100)
    stagedDb).2

theorem completed_run_stops_deletion_stagedDb :
    ∃ e, (applyDeletion reference connectionDeletion).exec (quietEnv 20 200) completedDb =
      (.error e, completedDb) := by
  have hcompleted : (finalizeRun reference (pageByPage 1) ⟨1, 9, 5, "p"⟩ 30 (some "a") 0).Yields
      (quietEnv 10 100) stagedDb true completedDb :=
    exec_yields (by decide +kernel)
  exact completed_run_stops_deletion reference (quietEnv 10 100) (pageByPage 1) ⟨1, 9, 5, "p"⟩ 30
    (some "a") 0 stagedDb completedDb stagedPost hcompleted (by decide +kernel) (by decide +kernel)
    (by decide +kernel) (by decide +kernel) (quietEnv 20 200) connectionDeletion rfl
    (by decide +kernel)

end InstagramArchive

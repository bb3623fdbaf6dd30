import InstagramArchive.ConnectionDeletion
import InstagramArchive.DeletionReplay

/-!
# What a deletion leaves to others

A media row may be held by captures of several owners, by one account and by an export. A
deletion erases it when the target was the last that held it, and leaves every other row as
it is, up to the account a deleted connection is detached from. The sources it ends are
announced in the outbox, one removal each, and no other source is.
-/

namespace InstagramArchive

open Relational Relational.Tx Permalink

/-! ## Holdings -/

/-- The target is the last that relies on a media row. A capture is asked against the account of the
row and against an export; a connection against captures only, so that an observation from an
export does not keep its row. -/
def LastHolding (target : DeletionTarget) (mediaId : Uuid) (db : Db) : Prop :=
  match target with
  | .capture captureId =>
    (∃ c ∈ db.captures, c.captureId = captureId ∧ c.mediaId = some mediaId) ∧
      (∀ c ∈ db.captures, c.mediaId = some mediaId → c.captureId = captureId) ∧
      ∀ m ∈ db.media, m.mediaId = mediaId →
        m.accountId = none ∧ m.acquisitionMethod ≠ .dataExport
  | .connection accountId =>
    (∃ m ∈ db.media, m.mediaId = mediaId ∧ m.accountId = some accountId) ∧
      ∀ c ∈ db.captures, c.mediaId ≠ some mediaId

/-- A media row that outlives the deletion of a target: detached from a deleted account. -/
def Media.released (target : DeletionTarget) (now : Instant) (m : Media) : Media :=
  match target with
  | .capture _ => m
  | .connection accountId =>
    if m.accountId = some accountId then { m with accountId := none, updatedAt := now } else m

/-- A deletion takes what the target held alone and leaves every other row. -/
structure HoldingsKept (target : DeletionTarget) (now : Instant) (db db' : Db) : Prop where
  media : ∀ m', m' ∈ db'.media ↔
    ∃ m ∈ db.media, ¬ LastHolding target m.mediaId db ∧ m' = m.released target now
  revisions : ∀ v, v ∈ db'.mediaRevisions ↔
    v ∈ db.mediaRevisions ∧ ¬ LastHolding target v.mediaId db
  relations : ∀ r, r ∈ db'.mediaRelations ↔ r ∈ db.mediaRelations ∧
    ¬ LastHolding target r.parentMediaId db ∧ ¬ LastHolding target r.childMediaId db
  /-- The evidence of every revision that is left is left. -/
  evidence : ∀ v ∈ db'.mediaRevisions, ∀ r ∈ db.rawRecords, r.rawRecordId = v.rawRecordId →
    r ∈ db'.rawRecords
  observations : ∀ o, o ∈ db'.availabilityObservations ↔ o ∈ db.availabilityObservations ∧
    (∀ id ∈ o.captureId, target ≠ .capture id) ∧ ∀ id ∈ o.mediaId, ¬ LastHolding target id db
  captures : ∀ c, c ∈ db'.captures ↔ c ∈ db.captures ∧ target ≠ .capture c.captureId
  operations : ∀ o, o ∈ db'.captureOperations ↔
    o ∈ db.captureOperations ∧ target ≠ .capture o.captureId
  notes : ∀ n, n ∈ db'.captureNotes ↔ n ∈ db.captureNotes ∧ target ≠ .capture n.captureId
  links : ∀ l, l ∈ db'.captureAnalysisLinks ↔
    l ∈ db.captureAnalysisLinks ∧ target ≠ .capture l.captureId
  accounts : ∀ a, a ∈ db'.accounts ↔ a ∈ db.accounts ∧ target ≠ .connection a.accountId

/-! ## A connection -/

section Connection

variable {lib : Externals} {owner accountId : Uuid} {now : Instant} {db db' : Db}

theorem captureHolding_eq_false {mediaId : Uuid} :
    captureHolding mediaId db = false ↔ ∀ c ∈ db.captures, c.mediaId ≠ some mediaId := by
  simp [captureHolding, Table.mem_rows, -Bool.not_eq_true]

theorem lastHolding_connection {mediaId : Uuid} :
    mediaId ∈ (endedRows accountId db).map Media.mediaId ↔
      LastHolding (.connection accountId) mediaId db := by
  rw [LastHolding, ← captureHolding_eq_false]
  constructor
  · intro hmem
    obtain ⟨m, hm, rfl⟩ := List.mem_map.mp hmem
    obtain ⟨hrow, haccount, hfree⟩ := mem_endedRows.mp hm
    exact ⟨⟨m, hrow, rfl, haccount⟩, hfree⟩
  · rintro ⟨⟨m, hm, rfl, haccount⟩, hfree⟩
    exact (mem_endedRows_ids hm).mpr ⟨haccount, hfree⟩

/-- A row that the connection did not hold alone is released. -/
theorem settledMedia_released {m : Media} (hm : m ∈ db.media)
    (hheld : ¬ LastHolding (.connection accountId) m.mediaId db) :
    settledMedia now ((heldRows accountId db).map Media.mediaId)
      ((endedRows accountId db).map Media.mediaId) m =
      some (m.released (.connection accountId) now) := by
  have hnot := mt lastHolding_connection.mp hheld
  rw [settledMedia, if_neg hnot]
  by_cases haccount : m.accountId = some accountId
  · have hmem : m.mediaId ∈ (heldRows accountId db).map Media.mediaId := by
      refine List.mem_map_of_mem (mem_heldRows.mpr ⟨hm, haccount, ?_⟩)
      by_contra hfree
      exact hnot ((mem_endedRows_ids hm).mpr ⟨haccount, Bool.eq_false_of_not_eq_true hfree⟩)
    rw [if_pos hmem, Media.released, if_pos haccount]
  · have hmem : ¬ m.mediaId ∈ (heldRows accountId db).map Media.mediaId := by
      intro hmem
      obtain ⟨m', hm', hid⟩ := List.mem_map.mp hmem
      obtain ⟨hrow, haccount', -⟩ := mem_heldRows.mp hm'
      rw [Table.eq_of_key_eq hrow hm hid] at haccount'
      exact haccount haccount'
    rw [if_neg hmem, Media.released, if_neg haccount]

theorem settledMedia_iff {m' : Media} :
    (∃ old ∈ db.media, settledMedia now ((heldRows accountId db).map Media.mediaId)
        ((endedRows accountId db).map Media.mediaId) old = some m') ↔
      ∃ m ∈ db.media, ¬ LastHolding (.connection accountId) m.mediaId db ∧
        m' = m.released (.connection accountId) now := by
  constructor
  · rintro ⟨m, hm, hsettled⟩
    by_cases hlast : LastHolding (.connection accountId) m.mediaId db
    · rw [settledMedia, if_pos (lastHolding_connection.mpr hlast)] at hsettled
      cases hsettled
    · rw [settledMedia_released hm hlast] at hsettled
      exact ⟨m, hm, hlast, (Option.some.inj hsettled).symm⟩
  · rintro ⟨m, hm, hlast, rfl⟩
    exact ⟨m, hm, settledMedia_released hm hlast⟩

theorem ConnectionErased.kept (h : ConnectionErased lib owner accountId now db db') :
    HoldingsKept (.connection accountId) now db db' := by
  obtain ⟨settled, raws, hs, hr, -, rfl⟩ := h.steps
  obtain ⟨rawTable, tasks, rfl⟩ := hr.frame
  have hframe := hs.frame
  obtain ⟨_, _, _, _, _, _, _, _, _, hframe⟩ := hframe
  have hcontent := hs.content
  constructor
  case media => exact fun m' => (hs.media m').trans settledMedia_iff
  case revisions =>
    exact fun v => (hcontent.revisions v).trans (and_congr_right fun _ =>
      not_congr lastHolding_connection)
  case relations =>
    exact fun r => (hcontent.relations r).trans (and_congr_right fun _ =>
      and_congr (not_congr lastHolding_connection) (not_congr lastHolding_connection))
  case evidence =>
    intro v hv r hraw hid
    have hretained : rawRetained r.rawRecordId settled = true :=
      rawRetained_eq_true.mpr ⟨v, hv, hid.symm⟩
    exact (hr.raws r).mpr ⟨(hcontent.raws r).mpr ⟨hraw, fun _ => hretained⟩, fun _ => hretained⟩
  case observations =>
    intro o
    refine (hcontent.observations o).trans (and_congr_right fun _ => ?_)
    simp only [lastHolding_connection]
    constructor
    · intro hall
      exact ⟨fun _ _ => by simp, fun id hid hlast => hall id hlast hid⟩
    · rintro ⟨-, hall⟩ id hlast hid
      exact hall id hid hlast
  case captures =>
    intro c
    change c ∈ settled.captures ↔ _
    rw [hframe]
    simp
  case operations =>
    intro o
    change o ∈ settled.captureOperations ↔ _
    rw [hframe]
    simp
  case notes =>
    intro n
    change n ∈ settled.captureNotes ↔ _
    rw [hframe]
    simp
  case links =>
    intro l
    change l ∈ settled.captureAnalysisLinks ↔ _
    rw [hframe]
    simp
  case accounts =>
    intro a
    change a ∈ settled.accounts.delete _ ↔ _
    rw [Table.mem_delete, hframe]
    simp [eq_comm]

end Connection

/-! ## A capture -/

section Capture

variable {lib : Externals} {captureId : Uuid} {capture : Capture} {now : Instant} {db mid db' : Db}

/-- The end of a source leaves the tables of the holdings alone. -/
theorem CaptureSourceEnded.frame (h : CaptureSourceEnded lib capture db mid) :
    ∃ outbox removals, mid = { db with outboxEvents := outbox, localSourceRemovals := removals } := by
  cases h with
  | held _ same =>
    subst same
    exact ⟨_, _, rfl⟩
  | ended _ permalink _ source => exact source.frame

/-- What decides whether the media row of an erased capture goes. -/
theorem lastHolding_capture (hcapture : db.captures.lookup captureId = some capture)
    (hended : CaptureSourceEnded lib capture db mid) {mediaId : Uuid} :
    LastHolding (.capture captureId) mediaId db ↔ capture.mediaId = some mediaId ∧
      independentHolding mediaId (clearCaptureRows captureId mid) = false := by
  obtain ⟨hmem, hid⟩ := Table.lookup_eq_some.mp hcapture
  obtain ⟨outbox, removals, rfl⟩ := hended.frame
  have hholding : independentHolding mediaId (clearCaptureRows captureId
        { db with outboxEvents := outbox, localSourceRemovals := removals }) = false ↔
      (∀ c ∈ db.captures, c.mediaId = some mediaId → c.captureId = captureId) ∧
        ∀ m ∈ db.media, m.mediaId = mediaId →
          m.accountId = none ∧ m.acquisitionMethod ≠ .dataExport := by
    rw [independentHolding, Bool.or_eq_false_iff]
    refine and_congr ?_ ?_
    · simp only [List.any_eq_false, decide_eq_true_eq, ← Table.mem_rows]
      constructor
      · intro hnone c hc hlinked
        by_contra hne
        exact hnone c ((Table.mem_delete ..).mpr ⟨hc, by simp [hne]⟩) hlinked
      · intro hall c hc hlinked
        obtain ⟨hc, hne⟩ := (Table.mem_delete ..).mp hc
        exact of_decide_eq_false hne (hall c hc hlinked)
    · change (db.media.lookup mediaId).any _ = false ↔ _
      cases hlookup : db.media.lookup mediaId with
      | none =>
        refine iff_of_true rfl fun m hm hmid => ?_
        exact (Table.lookup_eq_none.mp hlookup m hm hmid).elim
      | some row =>
        obtain ⟨hrow, hrowid⟩ := Table.lookup_eq_some.mp hlookup
        simp only [Option.any_some, Bool.or_eq_false_iff, Option.isSome_eq_false_iff,
          Option.isNone_iff_eq_none, decide_eq_false_iff_not]
        constructor
        · rintro hunheld m hm hmid
          rwa [Table.eq_of_key_eq hm hrow (hmid.trans hrowid.symm)]
        · exact fun hall => hall row hrow hrowid
  rw [LastHolding, hholding]
  refine and_congr_left fun _ => ⟨?_, fun hlinked => ⟨capture, hmem, hid, hlinked⟩⟩
  rintro ⟨c, hc, hcid, hlinked⟩
  rwa [Table.eq_of_key_eq hc hmem (hcid.trans hid.symm)] at hlinked

/-- What the clearing of a capture and the erasure of its media row leave. -/
theorem UnheldMediaErased.holdings (hcapture : db.captures.lookup captureId = some capture)
    (hended : CaptureSourceEnded lib capture db mid)
    (h : UnheldMediaErased capture.mediaId (clearCaptureRows captureId mid) db') :
    HoldingsKept (.capture captureId) now db db' := by
  have hlast := @lastHolding_capture lib captureId capture db mid hcapture hended
  obtain ⟨outbox, removals, rfl⟩ := hended.frame
  generalize hcleared : clearCaptureRows captureId
    { db with outboxEvents := outbox, localSourceRemovals := removals } = cleared at h hlast
  have hnames : ∀ id, DeletionTarget.capture captureId ≠ .capture id ↔ id ≠ captureId := by
    intro id
    rw [ne_eq, DeletionTarget.capture.injEq]
    exact not_congr eq_comm
  -- the rows that name the capture go whether or not its media row does
  have hobservations : ∀ o, o ∈ cleared.availabilityObservations ↔
      o ∈ db.availabilityObservations ∧ ∀ id ∈ o.captureId, DeletionTarget.capture captureId ≠ .capture id := by
    intro o
    rw [← hcleared]
    refine (Table.mem_delete ..).trans (and_congr_right fun _ => ?_)
    rw [decide_eq_false_iff_not]
    simp only [hnames, Option.mem_def]
    constructor
    · rintro hne id hid rfl
      exact hne hid
    · exact fun hall hid => hall captureId hid rfl
  have hrows : (∀ c, c ∈ cleared.captures ↔
        c ∈ db.captures ∧ DeletionTarget.capture captureId ≠ .capture c.captureId) ∧
      (∀ o, o ∈ cleared.captureOperations ↔
        o ∈ db.captureOperations ∧ DeletionTarget.capture captureId ≠ .capture o.captureId) ∧
      (∀ n, n ∈ cleared.captureNotes ↔
        n ∈ db.captureNotes ∧ DeletionTarget.capture captureId ≠ .capture n.captureId) ∧
      (∀ l, l ∈ cleared.captureAnalysisLinks ↔
        l ∈ db.captureAnalysisLinks ∧ DeletionTarget.capture captureId ≠ .capture l.captureId) ∧
      ∀ a, a ∈ cleared.accounts ↔
        a ∈ db.accounts ∧ DeletionTarget.capture captureId ≠ .connection a.accountId := by
    rw [← hcleared]
    simp only [hnames, clearCaptureRows, clearCapture, Table.mem_delete, decide_eq_false_iff_not]
    simp
  obtain ⟨hcaptures, hoperations, hnotes, hlinks, haccounts⟩ := hrows
  have hmedia : cleared.media = db.media := by rw [← hcleared]; rfl
  have hrevisions : cleared.mediaRevisions = db.mediaRevisions := by rw [← hcleared]; rfl
  have hrelations : cleared.mediaRelations = db.mediaRelations := by rw [← hcleared]; rfl
  have hraws : cleared.rawRecords = db.rawRecords := by rw [← hcleared]; rfl
  cases h with
  | kept hholding hsame =>
    subst hsame
    have hnone : ∀ id, ¬ LastHolding (.capture captureId) id db := by
      intro id hid
      obtain ⟨hlinked, hfree⟩ := hlast.mp hid
      rw [hholding id hlinked] at hfree
      cases hfree
    constructor
    case media => simp [hmedia, hnone, Media.released]
    case revisions => simp [hrevisions, hnone]
    case relations => simp [hrelations, hnone]
    case evidence => exact fun v _ r hr _ => hraws ▸ hr
    case observations => simpa [hnone] using hobservations
    case captures => exact hcaptures
    case operations => exact hoperations
    case notes => exact hnotes
    case links => exact hlinks
    case accounts => exact haccounts
  | erased mediaId hlinked hunheld herases =>
    have hiff : ∀ id, LastHolding (.capture captureId) id db ↔ id = mediaId := by
      intro id
      rw [hlast, hlinked]
      constructor
      · rintro ⟨hid, -⟩
        exact (Option.some.inj hid).symm
      · rintro rfl
        exact ⟨rfl, hunheld⟩
    obtain ⟨_, _, _, _, _, _, _, hframe⟩ := herases.frame
    have hcontent := herases.content
    constructor
    case media =>
      intro m'
      rw [herases.media, hmedia]
      simp only [hiff, Media.released]
      constructor
      · exact fun hm => ⟨m', hm.1, hm.2, rfl⟩
      · rintro ⟨m, hm, hne, rfl⟩
        exact ⟨hm, hne⟩
    case revisions =>
      intro v
      rw [hcontent.revisions, hrevisions, hiff, List.mem_singleton]
    case relations =>
      intro r
      rw [hcontent.relations, hrelations, hiff, hiff, List.mem_singleton, List.mem_singleton]
    case evidence =>
      intro v hv r hr hid
      exact (hcontent.raws r).mpr ⟨hraws ▸ hr, fun _ =>
        rawRetained_eq_true.mpr ⟨v, hv, hid.symm⟩⟩
    case observations =>
      intro o
      rw [hcontent.observations, hobservations, and_assoc]
      simp only [hiff, List.mem_singleton, forall_eq]
      refine and_congr_right fun _ => and_congr_right fun _ => ?_
      constructor
      · rintro hne id hid rfl
        exact hne hid
      · exact fun hall hid => hall mediaId hid rfl
    case captures =>
      rw [hframe]
      exact hcaptures
    case operations =>
      rw [hframe]
      exact hoperations
    case notes =>
      rw [hframe]
      exact hnotes
    case links =>
      rw [hframe]
      exact hlinks
    case accounts =>
      rw [hframe]
      exact haccounts

end Capture

/-! ## A deletion -/

section Deletion

variable {lib : Externals} {env : Env} {request : DeletionRequest} {result : DeletionResult}
  {db db' : Db}

/-- A new deletion that commits clears the rows of its target between the storing of its
operation and its end. -/
theorem applyDeletion_rows (hload : loadExisting request db = none)
    (h : (applyDeletion lib request).Yields env db result db') :
    ∃ operations effects mid pending state, (applyTargetRows lib request).Yields env
        { db with deletionOperations := operations, deletionEffects := effects } pending mid ∧
      db' = finishDeletion request.operationId state env.now mid := by
  rcases applyDeletion_yields h with ⟨hstored, -⟩ |
    ⟨-, -, -, operations, effects, mid, pending, -, ht, rfl⟩
  · rw [hload] at hstored
    cases hstored
  · exact ⟨operations, effects, mid, pending, _, ht, rfl⟩

theorem applyTargetRows_kept {n : Nat} (h : (applyTargetRows lib request).Yields env db n db') :
    HoldingsKept request.target env.now db db' := by
  unfold applyTargetRows at h
  cases htarget : request.target with
  | capture captureId =>
    rw [htarget] at h
    obtain ⟨capture, mid, hcapture, hended, hmedia⟩ := applyCaptureRows_yields h
    exact hmedia.holdings hcapture hended
  | connection accountId =>
    rw [htarget] at h
    exact (applyConnectionRows_yields h).kept

/-- **A deletion takes what its target held alone, and nothing else**: a media row goes with
its revisions and relations when the target was its last holding, every other row stays as it
is up to the account it is detached from, and the evidence of every revision left is left. -/
theorem deletion_keeps_holdings (lib : Externals) (env : Env) (request : DeletionRequest)
    (result : DeletionResult) (db db' : Db) (hload : loadExisting request db = none)
    (h : (applyDeletion lib request).Yields env db result db') :
    HoldingsKept request.target env.now db db' := by
  obtain ⟨operations, effects, mid, pending, state, ht, rfl⟩ := applyDeletion_rows hload h
  have hkept := applyTargetRows_kept ht
  constructor
  case media => exact hkept.media
  case revisions => exact hkept.revisions
  case relations => exact hkept.relations
  case evidence => exact hkept.evidence
  case observations => exact hkept.observations
  case captures => exact hkept.captures
  case operations => exact hkept.operations
  case notes => exact hkept.notes
  case links => exact hkept.links
  case accounts => exact hkept.accounts

/-- A post of the connected account that another owner captured. -/
def sharedPost : Media :=
  { mediaId := 60, providerMediaId := some "a", permalink := "https://www.instagram.com/p/a/",
    mediaType := .image, caption := none, acquisitionMethod := .officialApi,
    savedAuthority := .authoritativePlatformState, upstreamStatus := .available,
    accountId := some 1, createdAt := 0, updatedAt := 0 }

/-- The account and the other owner hold the post. -/
def sharedDb : Db :=
  { connectedDb with
    media := ⟨[sharedPost], by decide⟩
    captures := ⟨[{ captureId := 50, userRef := 7, mediaId := some 60,
                    canonicalUrl := "https://www.instagram.com/p/a/",
                    acquisitionMethod := .shareExtension,
                    savedAuthority := .explicitUserCapture, clientSource := .iosShareExtension,
                    status := .resolved, note := none, clientIdempotencyKey := none,
                    capturedAt := 0, createdAt := 0 }], by decide⟩ }

/-- The account is deleted and its post stays with the capture. -/
theorem deletion_keeps_holdings_sharedDb :
    HoldingsKept (.connection 1) 20 sharedDb
      ((applyDeletion reference connectionDeletion).exec (quietEnv 20 200) sharedDb).2 := by
  have hresult : ((applyDeletion reference connectionDeletion).exec (quietEnv 20 200)
      sharedDb).1 = .ok ⟨8, buildPlan connectionDeletion⟩ := by
    decide +kernel
  exact deletion_keeps_holdings reference (quietEnv 20 200) connectionDeletion
    ⟨8, buildPlan connectionDeletion⟩ sharedDb _ rfl (exec_yields hresult)

/-! ## Announcements -/

/-- The sources a deletion ends, in the order their removals are appended. -/
def endedSources (lib : Externals) (request : DeletionRequest) (db : Db) : List SourceEnd :=
  match request.target with
  | .capture captureId =>
    match db.captures.lookup captureId with
    | none => []
    | some capture =>
      if ownerHoldsSource capture db then []
      else match canonicalize capture.canonicalUrl with
        | .ok permalink => [captureEnd lib capture permalink]
        | .error _ => []
  | .connection accountId => (endedRows accountId db).map (connectionEnd lib request.userRef)

theorem UnheldMediaErased.outbox {mediaId : Option Uuid} (h : UnheldMediaErased mediaId db db') :
    db'.outboxEvents = db.outboxEvents := by
  cases h with
  | kept _ same => rw [same]
  | erased id _ _ erases =>
    obtain ⟨_, _, _, _, _, _, _, hframe⟩ := erases.frame
    rw [hframe]

theorem applyTargetRows_announced {n : Nat}
    (h : (applyTargetRows lib request).Yields env db n db') :
    Announced (endedSources lib request db) db db' := by
  unfold applyTargetRows at h
  unfold endedSources
  cases htarget : request.target with
  | capture captureId =>
    rw [htarget] at h
    obtain ⟨capture, mid, hcapture, hended, hmedia⟩ := applyCaptureRows_yields h
    have hsame : db'.outboxEvents = mid.outboxEvents := hmedia.outbox
    simp only [hcapture]
    cases hended with
    | held hholds hmid =>
      subst hmid
      rw [if_pos hholds]
      exact .of_eq hsame
    | ended hlast permalink hpermalink hsource =>
      simp only [hlast, hpermalink, Bool.false_eq_true, if_false]
      obtain ⟨events, hall, hrows⟩ := hsource.announced
      exact ⟨events, hall, hsame ▸ hrows⟩
  | connection accountId =>
    rw [htarget] at h
    exact (applyConnectionRows_yields h).settled.announced

/-- **A deletion announces the sources it ends, and no other**: after it the outbox holds the
rows it held, without those of an ended aggregate that are not removals still to be
acknowledged, and then one removal for each ended source. -/
theorem deletion_announces (lib : Externals) (env : Env) (request : DeletionRequest)
    (result : DeletionResult) (db db' : Db) (hload : loadExisting request db = none)
    (h : (applyDeletion lib request).Yields env db result db') :
    ∃ removals, List.Forall₂ SourceEnd.AnnouncedBy (endedSources lib request db) removals ∧
      db'.outboxEvents.rows =
        db.outboxEvents.rows.filter (OutboxEvent.outlives (endedSources lib request db)) ++
          removals := by
  obtain ⟨operations, effects, mid, pending, state, ht, rfl⟩ := applyDeletion_rows hload h
  obtain ⟨removals, hall, hrows⟩ := applyTargetRows_announced ht
  exact ⟨removals, hall, hrows⟩

/-- Two captures of one owner are resolved and published, and the first is removed: its removal is
published and has no answer. -/
def removedCapture : List ServiceAction :=
  [.submit (quietEnv 10 100)
      ⟨1, "https://www.instagram.com/p/A/", 5, .iosShareExtension, none, none⟩,
    .submit (quietEnv 12 150)
      ⟨1, "https://www.instagram.com/p/B/", 5, .iosShareExtension, none, none⟩,
    .beginFetch (quietEnv 20 200) 100 20, .applyFetch (quietEnv 30 300) 0 (titledPayload "X"),
    .beginFetch (quietEnv 40 400) 150 40, .applyFetch (quietEnv 50 500) 0 (titledPayload "Y"),
    .tombstone (quietEnv 60 600) 100 .userRequested 60,
    .beginPass (quietEnv 70 700) 10 .default, .deliver 0 (.ok ()), .book (quietEnv 80 800) 0,
    .deliver 0 (.ok ()), .book (quietEnv 85 850) 0, .deliver 0 (.ok ()),
    .book (quietEnv 86 860) 0].map .archive

def removedDb : Db := (run (serviceStep reference) {} removedCapture).db

/-- The removed capture is deleted: its fact goes, the removal without an answer and the fact of
the other capture stay, and a removal is appended. -/
theorem deletion_announces_removedCapture :
    removedDb.outboxEvents.rows.map (fun e => (e.eventId, e.aggregateId, e.eventType,
        e.publishedAt.isSome)) =
      [(315, 100, .sourceCaptured, true), (515, 150, .sourceCaptured, true),
        (604, 100, .sourceRemoved, true)] ∧
      removedDb.outboxEvents.rows.filter
          (OutboxEvent.outlives (endedSources reference captureDeletion removedDb)) =
        removedDb.outboxEvents.rows.drop 1 ∧
      ∃ removals, List.Forall₂ SourceEnd.AnnouncedBy
          (endedSources reference captureDeletion removedDb) removals ∧
        ((applyDeletion reference captureDeletion).exec (quietEnv 120 900)
            removedDb).2.outboxEvents.rows = removedDb.outboxEvents.rows.drop 1 ++ removals := by
  have hresult : ((applyDeletion reference captureDeletion).exec (quietEnv 120 900)
      removedDb).1 = .ok ⟨8, buildPlan captureDeletion⟩ := by
    decide +kernel
  have hkept : removedDb.outboxEvents.rows.filter
      (OutboxEvent.outlives (endedSources reference captureDeletion removedDb)) =
        removedDb.outboxEvents.rows.drop 1 := by
    decide +kernel
  obtain ⟨removals, hall, hrows⟩ := deletion_announces reference (quietEnv 120 900)
    captureDeletion ⟨8, buildPlan captureDeletion⟩ removedDb _ (by decide +kernel)
    (exec_yields hresult)
  exact ⟨by decide +kernel, hkept, removals, hall, by rw [hrows, hkept]⟩

end Deletion

end InstagramArchive

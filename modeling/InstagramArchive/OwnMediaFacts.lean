import InstagramArchive.Publishing
import Mathlib.Data.List.Sort
import Mathlib.Data.String.Basic

/-!
# Official own-media facts

`appendOwnMediaFacts` publishes what a completing run staged, inside the caller's open
transaction. An item whose content digest already occurs in the outbox history of its
media row is passed over; any other is published as the first fact of the row or as an
update of it.
-/

namespace InstagramArchive

open Relational Relational.Tx

/-- The items a run has staged, in the order of their provider identities. -/
def stagedItems (runId : Uuid) (db : Db) : List SyncItem :=
  (db.syncItems.rows.filter fun i => i.runId = runId).insertionSort
    fun a b => a.providerMediaId ≤ b.providerMediaId

/-- The media row of a provider identity. -/
def mediaByProvider (providerMediaId : String) (db : Db) : Option Media :=
  db.media.rows.find? fun m => m.providerMediaId = some providerMediaId

/-- A staged item with the media row and the evidence it is published from. -/
structure OwnMediaPublishRow where
  mediaId : Uuid
  content : OwnMediaContent
  blobRef : String
  byteSize : Nat

def SyncItem.content (item : SyncItem) : OwnMediaContent :=
  { providerMediaId := item.providerMediaId
    permalink := item.permalink
    caption := item.caption
    publishedAt := item.publishedAt }

/-- The join of the staged items with their media rows and raw records. -/
def ownMediaPublishRows (runId : Uuid) (db : Db) : List OwnMediaPublishRow :=
  (stagedItems runId db).filterMap fun item => do
    let media ← mediaByProvider item.providerMediaId db
    let raw ← db.rawRecords.lookup item.rawRecordId
    return { mediaId := media.mediaId, content := item.content, blobRef := raw.blobRef,
             byteSize := raw.byteSize }

/-- `payload #>> '{payload,source,content_digest,hex}'`. -/
def EventPayload.digestHex? : EventPayload → Option String
  | .captured source | .updated source => some source.contentDigest.hex
  | _ => none

/-- The outbox rows of one media aggregate. -/
def mediaEvents (mediaId : Uuid) (db : Db) : List OutboxEvent :=
  db.outboxEvents.rows.filter fun e => e.aggregateType = .media && e.aggregateId = mediaId

def ownMediaContentDigest (lib : Externals) (content : OwnMediaContent) :
    Except PublishError ContentDigest :=
  match lib.digestOwnMedia content with
  | some digest => .ok digest
  | none => .error (.contractViolation 0 "publication time refused")

def ownMediaText (lib : Externals) (mediaId : Uuid) : Option String →
    Except PublishError (Option String)
  | none => .ok none
  | some text =>
    if text.isEmpty then .ok none
    else match lib.parsePostText text with
      | some text => .ok (some text)
      | none => .error (.contractViolation mediaId "post text refused")

def ownMediaSnapshot (lib : Externals) (owner : Uuid) (checkpoint : Option String)
    (capturedAt : Instant) (row : OwnMediaPublishRow) (digest : ContentDigest)
    (text : Option String) : SocialSourceSnapshot :=
  { socialSourceId := ownMediaSourceIdentity lib owner row.content.providerMediaId
    platform := socialPlatform
    externalPostId := row.content.providerMediaId
    permalink := some row.content.permalink
    owner
    publishedAt := some row.content.publishedAt
    capturedAt
    text
    media := []
    contentDigest := digest
    rawBlob := some ⟨row.blobRef, "application/json", row.byteSize⟩
    acquisition := .officialApi
    savedAuthority := .authoritativePlatformState
    upstreamAvailability := .available
    checkpoint
    warnings := [mediaWarning] }

/-- The outbox row of a fact about a media row. -/
def mediaAggregateRow (kind : FactKind) (mediaId : Uuid) (snapshot : SocialSourceSnapshot)
    (eventId : Uuid) (occurredAt : Instant) : OutboxEvent :=
  { factRow kind mediaId snapshot eventId occurredAt with aggregateType := .media }

/-- A primary key taken, or `outbox_events_own_media_content_key`: the aggregate already has
a row of that type and digest. -/
def mediaFactConflict (row : OutboxEvent) (db : Db) : Bool :=
  (db.outboxEvents.lookup row.eventId).isSome ||
    (mediaEvents row.aggregateId db).any fun e =>
      e.eventType = row.eventType && e.payload.payload.digestHex?.isSome &&
        e.payload.payload.digestHex? = row.payload.payload.digestHex?

/-- `insert into outbox_events .. on conflict do nothing`. -/
def insertMediaFact (row : OutboxEvent) : ArchiveTx PublishError Bool :=
  insertUnless "outbox_events_pkey" Db.outboxEvents (fun db t => { db with outboxEvents := t })
    (fun _ => none) (mediaFactConflict row) row

/-- Whether the item's fact was appended. -/
def appendOwnMediaFact (lib : Externals) (owner : Uuid) (checkpoint : Option String)
    (capturedAt : Instant) (row : OwnMediaPublishRow) : ArchiveTx PublishError Bool := do
  let digest ← ofExcept (ownMediaContentDigest lib row.content)
  let prior ← query (mediaEvents row.mediaId)
  if prior.any fun e => e.payload.payload.digestHex? = some digest.hex then return false
  else
    let kind : FactKind := if prior.isEmpty then .captured else .updated
    let text ← ofExcept (ownMediaText lib row.mediaId row.content.caption)
    let snapshot := ownMediaSnapshot lib owner checkpoint capturedAt row digest text
    ofExcept (accepted lib row.mediaId (kind.payload snapshot))
    let eventId ← nowV7
    insertMediaFact (mediaAggregateRow kind row.mediaId snapshot eventId capturedAt)

def appendEachOwnMediaFact (lib : Externals) (owner : Uuid) (checkpoint : Option String)
    (capturedAt : Instant) : List OwnMediaPublishRow → ArchiveTx PublishError Nat
  | [] => return 0
  | row :: rest => do
    let appended ← appendOwnMediaFact lib owner checkpoint capturedAt row
    let more ← appendEachOwnMediaFact lib owner checkpoint capturedAt rest
    return more + if appended then 1 else 0

/-- Appends changed official own-media snapshots from one completing run. -/
def appendOwnMediaFacts (lib : Externals) (runId owner : Uuid) (checkpoint : Option String)
    (capturedAt : Instant) : ArchiveTx PublishError Nat := do
  let rows ← query (ownMediaPublishRows runId)
  appendEachOwnMediaFact lib owner checkpoint capturedAt rows

end InstagramArchive

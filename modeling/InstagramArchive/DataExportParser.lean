import InstagramArchive.DataExport
import InstagramArchive.Reference

/-!
# The saved-post parser

`parse_saved_posts` reads one JSON section of an inspected archive. An entry of the saved
array becomes a normalized record or is retained as unknown; every other field of the section
and every other entry of the archive is retained too. The parser sorts what it returns, so
that its output does not depend on the order of the input.

Each staged value goes into the import run under an evidence key. The keys of unknown records
carry an ordinal, those of sections a path that the archive holds once; the key of a
normalized record is made of its content alone.
-/

namespace InstagramArchive.DataExport

open Relational Permalink

/-! ## Archives -/

/-- One validated regular-file ZIP entry. -/
structure InspectedEntry where
  path : String
  compressedSize : Nat
  decompressedSize : Nat
  deriving DecidableEq, Repr

/-- The largest configurable `max_entry_decompressed_bytes`. -/
def maxEntryDecompressedBytes : Nat := 1024 * 1024 * 1024

/-- What `inspect_archive` accepts: entries by path, each path once, none above the limit. -/
structure ArchiveInventory where
  entries : List InspectedEntry
  sorted : entries.Pairwise fun a b => a.path < b.path
  bounded : ∀ e ∈ entries, e.decompressedSize ≤ maxEntryDecompressedBytes

/-! ## Entries of the saved array -/

/-- The fields of a struct under `deny_unknown_fields`, from an object or a sequence. -/
def structFields (names : List String) : Json → Option (List Json)
  | .obj members =>
    if members.all fun m => names.contains m.1 then
      names.mapM fun name => (members.find? fun m => m.1 = name).map Prod.snd
    else none
  | .arr values => if values.length = names.length then some values else none
  | _ => none

def jsonText? : Json → Option String
  | .str s => some s
  | _ => none

/-- An integer that fits an `i64`. -/
def jsonI64? : Json → Option Int
  | .int n => if -(2 ^ 63) ≤ n ∧ n < 2 ^ 63 then some n else none
  | _ => none

structure SavedMedia where
  title : String
  href : String
  timestamp : Int
  deriving DecidableEq, Repr

def savedMedia? (value : Json) : Option SavedMedia := do
  let [title, stringMap] ← structFields ["title", "string_map_data"] value | none
  let [savedOn] ← structFields ["Saved on"] stringMap | none
  let [href, timestamp] ← structFields ["href", "timestamp"] savedOn | none
  return ⟨← jsonText? title, ← jsonText? href, ← jsonI64? timestamp⟩

/-- `OffsetDateTime::from_unix_timestamp`: the years from -9999 to 9999. -/
def validTimestamp (t : Int) : Bool := -377705116800 ≤ t && t ≤ 253402300799

def boundedDisplayAuthor (value : String) : Option String :=
  let trimmed := trim value.toList
  if !trimmed.isEmpty && (String.ofList trimmed).utf8ByteSize ≤ 256 && !trimmed.any isControl then
    some (String.ofList trimmed)
  else none

/-- What an accepted entry states. -/
structure SavedObservation where
  shortcode : String
  canonicalUrl : String
  displayAuthor : Option String
  observedAtUnix : Int
  deriving DecidableEq, Repr

/-- The text the digest of a record is computed over. -/
def SavedObservation.semanticJson (o : SavedObservation) : String :=
  jsonObject
    [("shortcode", jsonString o.shortcode), ("canonical_url", jsonString o.canonicalUrl),
      ("display_author", jsonOption o.displayAuthor),
      ("observed_at_unix", toString o.observedAtUnix),
      ("acquisition_method", jsonString "data_export"),
      ("saved_authority", jsonString "export_observation")]

/-- What an entry states, or why it is retained as unknown. -/
def readSaved (value : Json) : Except String SavedObservation :=
  match savedMedia? value with
  | none => .error "unknown_saved_record"
  | some wire =>
    match canonicalize wire.href with
    | .error _ => .error "invalid_saved_permalink"
    | .ok canonical =>
      if !validTimestamp wire.timestamp then .error "invalid_observation_timestamp"
      else .ok
        { shortcode := canonical.shortcode
          canonicalUrl := canonical.url
          displayAuthor := boundedDisplayAuthor wire.title
          observedAtUnix := wire.timestamp }

/-- What the accepted entries of a saved array state, in its order. -/
def observations (saved : List Json) : List SavedObservation :=
  saved.filterMap fun value => (readSaved value).toOption

/-- The refused entries with their codes. -/
def refusedEntries (saved : List Json) : List (String × Json) :=
  saved.filterMap fun value => match readSaved value with
    | .ok _ => none
    | .error code => some (code, value)

/-! ## The parser -/

def digestJson (lib : Externals) (text : String) : String := hexEncode (lib.sha256 text)

def SavedObservation.record (lib : Externals) (o : SavedObservation) : ParsedExportRecord :=
  { shortcode := o.shortcode
    canonicalUrl := o.canonicalUrl
    displayAuthor := o.displayAuthor
    observedAtUnix := o.observedAtUnix
    semanticDigest := digestJson lib o.semanticJson }

/-- The other fields of the section, each as an object of its own. -/
def unknownFields (members : List (String × Json)) : List (String × Json) :=
  members.map fun m => ("unknown_saved_section_field", .obj [m])

/-- The retained values in the order of their digests. -/
def retained (lib : Externals) (pending : List (String × Json)) : List (String × String × Json) :=
  (pending.map fun p => (p.1, digestJson lib p.2.render, p.2)).insertionSort
    fun a b => a.2.1 ≤ b.2.1

def unknownKey (digest : String) (ordinal : Nat) : String :=
  "unknown_record:" ++ digest ++ ":" ++ toString ordinal

def unknownRecords (lib : Externals) (pending : List (String × Json)) :
    List (String × UnknownExportRecord) :=
  (retained lib pending).zipIdx.map fun p =>
    (p.1.1, { evidenceKey := unknownKey p.1.2.1 p.2, semanticDigest := p.1.2.1, raw := p.1.2.2 })

/-- `str::rsplit_once('.')`: what follows the last dot. -/
def extension? (path : List Char) : Option (List Char) :=
  if path.contains '.' then some (path.reverse.takeWhile (· ≠ '.')).reverse else none

def mediaReferencePath (path : String) : Bool :=
  "media/".toList.isPrefixOf path.toList &&
    (extension? path.toList).any fun e =>
      ["jpg", "jpeg", "png", "webp", "gif", "mp4", "mov"].contains
        (String.ofList (e.map Char.toLower))

def unknownEntry (e : InspectedEntry) : UnknownExportEntry :=
  { path := e.path
    compressedSize := e.compressedSize
    decompressedSize := e.decompressedSize
    mediaReference := mediaReferencePath e.path
    byteStatus :=
      if mediaReferencePath e.path then "not_archived_separately" else "not_applicable" }

def unknownEntries (inventory : ArchiveInventory) : List UnknownExportEntry :=
  (inventory.entries.filter fun e => e.path ≠ savedPostsPath).map unknownEntry

def entryKey (e : UnknownExportEntry) : String := "entry:" ++ e.path

def parserWarnings (unknown : List (String × UnknownExportRecord))
    (entries : List UnknownExportEntry) : List ParserWarning :=
  (unknown.map (fun u => ParserWarning.mk u.1 u.2.evidenceKey) ++
    entries.map (fun e => ParserWarning.mk "unknown_archive_section" (entryKey e)) ++
    (entries.filter UnknownExportEntry.mediaReference).map
      fun e => ParserWarning.mk "media_bytes_reference_only" (entryKey e))
    |>.insertionSort fun a b => toLex (a.code, a.evidenceKey) ≤ toLex (b.code, b.evidenceKey)

def parsedRecords (lib : Externals) (saved : List Json) : List ParsedExportRecord :=
  ((observations saved).map (SavedObservation.record lib)).insertionSort
    fun a b => toLex (a.shortcode, a.semanticDigest) ≤ toLex (b.shortcode, b.semanticDigest)

/-- Parses the saved-post section, as far as it is JSON. -/
def parseSavedPosts (lib : Externals) (section? : Option Json) (inventory : ArchiveInventory) :
    Except ParserError ParsedExport :=
  match section? with
  | some (.obj root) =>
    match Json.removeMember "saved_saved_media" root with
    | none => .error .unsupportedLayout
    | some (.arr saved, rest) =>
      let unknown := unknownRecords lib (refusedEntries saved ++ unknownFields rest)
      let entries := unknownEntries inventory
      .ok
        { records := parsedRecords lib saved
          unknownEntries := entries
          unknownRecords := unknown.map Prod.snd
          warnings := parserWarnings unknown entries }
    | some _ => .error .invalidJson
  | _ => .error .invalidJson

/-! ## Evidence -/

/-- The evidence keys of a parsed archive, in the order they are staged. -/
def evidenceKeys (parsed : ParsedExport) : List String :=
  parsed.records.map normalizedKey ++ (parsed.unknownEntries.map unknownSectionKey ++
    (parsed.unknownRecords.map UnknownExportRecord.evidenceKey ++ parsed.warnings.map warningKey))

/-- The entries of the saved array of a section. -/
def savedArray : Option Json → List Json
  | some (.obj root) =>
    match Json.removeMember "saved_saved_media" root with
    | some (.arr saved, _) => saved
    | _ => []
  | _ => []

end InstagramArchive.DataExport

import InstagramArchive.ArchivePreflight
import InstagramArchive.DataExportParser

/-!
# Inspection of an archive and reads of its entries

`inspectReader` admits an archive by the metadata of its entries: what the ZIP reader reports
of them is arbitrary. `readInspectedEntry` reads one admitted entry: what the decompressor
emits is arbitrary too, and is counted as it comes.

An admitted inventory is safe (`SafePath`, `WithinLimits`) and its totals are exact; it is one
the parser takes.
-/

namespace InstagramArchive.DataExport

/-! ## Paths -/

def decodeUtf8 (raw : List UInt8) : Option String := String.fromUTF8? raw.toByteArray

def isAsciiAlphabetic (b : UInt8) : Bool := (65 ≤ b && b ≤ 90) || (97 ≤ b && b ≤ 122)

def windowsDrivePrefix : List UInt8 → Bool
  | first :: second :: third :: _ => isAsciiAlphabetic first && second = 58 && third = 47
  | _ => false

/-- A component of a path as the file system sees it. -/
inductive PathComponent where
  | rootDir
  | curDir
  | parentDir
  | normal (name : List Char)
  deriving DecidableEq, Repr

def PathComponent.isNormal : PathComponent → Bool
  | .normal _ => true
  | _ => false

/-- `Path::components`: empty components and inner dots are skipped. -/
def pathComponents (path : List Char) : List PathComponent :=
  let parts := path.splitOn '/'
  (if path.head? = some '/' then [.rootDir]
    else if parts.head? = some ['.'] then [.curDir] else []) ++
  parts.filterMap fun part =>
    if part = [] ∨ part = ['.'] then none
    else if part = ['.', '.'] then some .parentDir else some (.normal part)

/-- Whether a component is empty or one of the dots. -/
def dotComponent (part : List Char) : Bool := part = [] || part = ['.'] || part = ['.', '.']

def unsafePath (rule : String) : ArchiveError := ⟨.unsafePath, rule⟩

def validatePath (raw : List UInt8) (limits : ArchiveLimits) : Except ArchiveError String := do
  require (raw ≠ [] && raw.length ≤ limits.maxEntryPathBytes && !raw.contains 0 && !raw.contains 92)
    (unsafePath "path_bytes")
  let path ← orElse (decodeUtf8 raw) (unsafePath "path_utf8")
  let parts := path.toList.splitOn '/'
  require (parts.head? ≠ some [] && path.toList.head? ≠ some '/' && !windowsDrivePrefix raw &&
      !parts.any dotComponent && (pathComponents path.toList).all PathComponent.isNormal)
    (unsafePath "path_components")
  require (parts.length ≤ limits.maxPathDepth) (resource "path_depth")
  return path

/-! ## Entries -/

inductive CompressionMethod where
  | stored
  | deflated
  | other
  deriving DecidableEq, Repr

/-- What the ZIP reader reports of an entry. -/
structure EntryMetadata where
  encrypted : Bool
  compression : CompressionMethod
  isFile : Bool
  unixMode : Option Nat
  nameRaw : List UInt8
  size : Nat
  compressedSize : Nat
  deriving DecidableEq, Repr

/-- A file type other than none and a regular file. -/
def specialUnixType (mode : Option Nat) : Bool :=
  mode.any fun mode =>
    let fileType := mode &&& 0o170000
    fileType ≠ 0 && fileType ≠ 0o100000

/-- `saturating_mul` keeps the product below its type. -/
def exceedsRatio (decompressed compressed maximum : Nat) : Bool :=
  0 < decompressed && (compressed = 0 || min (compressed * maximum) (2 ^ 64 - 1) < decompressed)

def checkedTotal (total value : Nat) (rule : String) : Except ArchiveError Nat :=
  if total + value < 2 ^ 64 then .ok (total + value) else .error (resource rule)

/-- Complete metadata inventory accepted before parsing, as it grows and when it is done. -/
structure InspectedInventory where
  entries : List InspectedEntry := []
  totalCompressedBytes : Nat := 0
  totalDecompressedBytes : Nat := 0
  deriving DecidableEq, Repr

def inspectEntry (limits : ArchiveLimits) (inventory : InspectedInventory)
    (found : Option EntryMetadata) : Except ArchiveError InspectedInventory := do
  let file ← orElse found (malformed "entry_header")
  require (!file.encrypted) ⟨.unsupportedEncoding, "encrypted_entry"⟩
  require (file.compression = .stored || file.compression = .deflated)
    ⟨.unsupportedEncoding, "compression_method"⟩
  require (file.isFile && !specialUnixType file.unixMode) ⟨.unsupportedEntryType, "regular_files_only"⟩
  let path ← validatePath file.nameRaw limits
  require (!(inventory.entries.map InspectedEntry.path).contains path)
    ⟨.duplicateEntry, "duplicate_path"⟩
  require (file.size ≤ limits.maxEntryDecompressedBytes) (resource "entry_decompressed_bytes")
  require (!exceedsRatio file.size file.compressedSize limits.maxCompressionRatio)
    (resource "compression_ratio")
  let totalCompressedBytes ← checkedTotal inventory.totalCompressedBytes file.compressedSize
    "total_compressed_bytes"
  let totalDecompressedBytes ← checkedTotal inventory.totalDecompressedBytes file.size
    "total_decompressed_bytes"
  require (totalCompressedBytes ≤ limits.maxTotalCompressedBytes) (resource "total_compressed_bytes")
  require (totalDecompressedBytes ≤ limits.maxTotalDecompressedBytes)
    (resource "total_decompressed_bytes")
  return { entries := inventory.entries ++ [⟨path, file.compressedSize, file.size⟩],
           totalCompressedBytes, totalDecompressedBytes }

def inspectEntries (limits : ArchiveLimits) :
    InspectedInventory → List (Option EntryMetadata) → Except ArchiveError InspectedInventory
  | inventory, [] => .ok inventory
  | inventory, found :: rest => do
    inspectEntries limits (← inspectEntry limits inventory found) rest

/-- `entries.sort_by` path. -/
def InspectedInventory.sorted (inventory : InspectedInventory) : InspectedInventory :=
  { inventory with entries := inventory.entries.insertionSort fun a b => a.path ≤ b.path }

/-- Inspects ZIP metadata before any parser reads entry bytes; `archive` is what the ZIP reader
makes of the file. -/
def inspectReader (file : FileBytes) (archive : Option (List (Option EntryMetadata)))
    (limits : ArchiveLimits) : Except ArchiveError InspectedInventory := do
  let declaredEntries ← preflightHeaders file limits
  let files ← orElse archive (malformed "zip_structure")
  require (files.length = declaredEntries) ⟨.duplicateEntry, "central_directory_duplicate"⟩
  require (files.length ≤ limits.maxEntries) (resource "entry_count")
  let inventory ← inspectEntries limits {} files
  return inventory.sorted

/-! ## Reads -/

/-- One call of `read`: an error, or the bytes it filled the buffer with. -/
abbrev ReadResult := Option (List UInt8)

def bufferSize : Nat := 16384

/-- The counted loop over what the decompressor emits; no bytes are the end of the entry. -/
def readChunks (limits : ArchiveLimits) (inspected : InspectedEntry) :
    List ReadResult → Nat → List UInt8 → Except ArchiveError (Nat × List UInt8)
  | [], actual, output => .ok (actual, output)
  | none :: _, _, _ => .error (malformed "entry_read")
  | some chunk :: rest, actual, output =>
    if chunk = [] then .ok (actual, output)
    else do
      let actual ← checkedTotal actual chunk.length "actual_entry_bytes"
      require (actual ≤ limits.maxEntryDecompressedBytes) (resource "actual_entry_decompressed_bytes")
      require (actual ≤ limits.maxTotalDecompressedBytes) (resource "actual_total_decompressed_bytes")
      require (!exceedsRatio actual inspected.compressedSize limits.maxCompressionRatio)
        (resource "actual_compression_ratio")
      require (chunk.length ≤ bufferSize) (malformed "entry_buffer")
      readChunks limits inspected rest actual (output ++ chunk)

/-- Reads one already-inspected entry; `opened` is what the ZIP reader opens under its name. -/
def readInspectedEntry (inventory : InspectedInventory) (opened : Option (List ReadResult))
    (entryPath : String) (limits : ArchiveLimits) : Except ArchiveError (List UInt8) := do
  let inspected ← orElse (inventory.entries.find? fun e => e.path = entryPath)
    (malformed "entry_missing")
  let chunks ← orElse opened (malformed "entry_open")
  let (actual, output) ← readChunks limits inspected chunks 0 []
  require (actual = inspected.decompressedSize) (malformed "declared_actual_size_mismatch")
  return output

/-! ## Safe paths -/

/-- One component joined to a directory, as a file system resolves it. -/
def joinComponent (directory : List (List Char)) (part : List Char) : List (List Char) :=
  if part = [] ∨ part = ['.'] then directory
  else if part = ['.', '.'] then directory.dropLast else directory ++ [part]

/-- A relative path joined to a root. -/
def joinPath (root : List (List Char)) (path : String) : List (List Char) :=
  (path.toList.splitOn '/').foldl joinComponent root

/-- A path that names a place below any directory. -/
structure SafePath (limits : ArchiveLimits) (path : String) : Prop where
  nonempty : path ≠ ""
  bytes : path.utf8ByteSize ≤ limits.maxEntryPathBytes
  depth : (path.toList.splitOn '/').length ≤ limits.maxPathDepth
  nul : Char.ofNat 0 ∉ path.toList
  backslash : '\\' ∉ path.toList
  relative : path.toList.head? ≠ some '/'
  drive : ∀ letter rest, path.toList = letter :: ':' :: '/' :: rest → letter.isAlpha = false
  components : ∀ part ∈ path.toList.splitOn '/', part ≠ [] ∧ part ≠ ['.'] ∧ part ≠ ['.', '.']

theorem foldl_joinComponent {parts root : List (List Char)}
    (h : ∀ part ∈ parts, part ≠ [] ∧ part ≠ ['.'] ∧ part ≠ ['.', '.']) :
    parts.foldl joinComponent root = root ++ parts := by
  induction parts generalizing root with
  | nil => simp
  | cons part rest ih =>
    obtain ⟨hempty, hdot, hdots⟩ := h part (by simp)
    have hstep : joinComponent root part = root ++ [part] := by
      simp [joinComponent, hempty, hdot, hdots]
    rw [List.foldl_cons, hstep, ih fun other hother => h other (by simp [hother])]
    simp

/-- A safe path stays below every root. -/
theorem SafePath.joinPath_eq {limits : ArchiveLimits} {path : String} (h : SafePath limits path)
    (root : List (List Char)) :
    joinPath root path = root ++ path.toList.splitOn '/' ∧ path.toList.splitOn '/' ≠ [] :=
  ⟨foldl_joinComponent h.components, List.splitOn_ne_nil _ _⟩

/-- The bytes of a decoded path are those of its characters. -/
theorem decodeUtf8_bytes {raw : List UInt8} {path : String} (h : decodeUtf8 raw = some path) :
    raw = path.toList.flatMap String.utf8EncodeChar ∧ path.utf8ByteSize = raw.length := by
  unfold decodeUtf8 String.fromUTF8? at h
  split at h
  · next hvalid =>
    cases h
    have hencode := String.utf8Encode_toList (b := String.fromUTF8 raw.toByteArray hvalid)
    have hbytes : (String.fromUTF8 raw.toByteArray hvalid).toByteArray = raw.toByteArray := rfl
    rw [hbytes, List.utf8Encode] at hencode
    constructor
    · have hlists := congrArg (fun bytes => bytes.data.toList) hencode
      simp only [List.data_toByteArray, List.toList_toArray] at hlists
      exact hlists.symm
    · simp [String.utf8ByteSize, String.fromUTF8]
  · cases h

theorem utf8EncodeChar_alpha {letter : Char} (h : letter.isAlpha = true) :
    ∃ b, String.utf8EncodeChar letter = [b] ∧ isAsciiAlphabetic b = true := by
  delta Char.isAlpha Char.isUpper Char.isLower at h
  simp only [Bool.or_eq_true, Bool.and_eq_true, decide_eq_true_eq, UInt32.le_iff_toNat_le] at h
  have hupper : 'A'.val.toNat = 65 ∧ 'Z'.val.toNat = 90 := by decide
  have hlower : 'a'.val.toNat = 97 ∧ 'z'.val.toNat = 122 := by decide
  have hsize : letter.utf8Size = 1 := by
    rw [Char.utf8Size_eq_one_iff, UInt32.le_iff_toNat_le]
    have : (127 : UInt32).toNat = 127 := by decide
    omega
  refine ⟨_, String.utf8EncodeChar_eq_singleton hsize, ?_⟩
  have hnat : letter.val.toUInt8.toNat = letter.val.toNat := by
    rw [UInt32.toNat_toUInt8]
    omega
  simp only [isAsciiAlphabetic, Bool.or_eq_true, Bool.and_eq_true, decide_eq_true_eq,
    UInt8.le_iff_toNat_le, hnat]
  have hbytes : (65 : UInt8).toNat = 65 ∧ (90 : UInt8).toNat = 90 ∧ (97 : UInt8).toNat = 97 ∧
      (122 : UInt8).toNat = 122 := by decide
  omega

theorem parts_of_any_dotComponent {parts : List (List Char)} (h : parts.any dotComponent = false) :
    ∀ part ∈ parts, part ≠ [] ∧ part ≠ ['.'] ∧ part ≠ ['.', '.'] := by
  intro part hmem
  have hpart := List.any_eq_false.mp h part hmem
  simp only [dotComponent, Bool.or_eq_true, decide_eq_true_eq, not_or] at hpart
  exact ⟨hpart.1.1, hpart.1.2, hpart.2⟩

/-- `validatePath` accepts safe paths only. -/
theorem validatePath_safe {raw : List UInt8} {limits : ArchiveLimits} {path : String}
    (h : validatePath raw limits = .ok path) : SafePath limits path := by
  obtain ⟨_, hbytes, h⟩ := bind_eq_ok.mp h
  obtain ⟨decoded, hdecode, h⟩ := bind_eq_ok.mp h
  obtain ⟨_, hparts, h⟩ := bind_eq_ok.mp h
  obtain ⟨_, hdepth, h⟩ := bind_eq_ok.mp h
  cases h
  rw [require_eq_ok] at hbytes hparts hdepth
  rw [orElse_eq_ok] at hdecode
  simp only [Bool.and_eq_true, Bool.not_eq_true', decide_eq_true_eq] at hbytes hparts hdepth
  obtain ⟨⟨⟨hnonempty, hlength⟩, hnul⟩, hbackslash⟩ := hbytes
  obtain ⟨⟨⟨⟨-, hrelative⟩, hdrive⟩, hdots⟩, -⟩ := hparts
  obtain ⟨hraw, hsize⟩ := decodeUtf8_bytes hdecode
  -- A refused byte would be there if its character were.
  have hchar (b : UInt8) (c : Char) (hc : String.utf8EncodeChar c = [b])
      (hb : raw.contains b = false) : c ∉ path.toList := by
    intro hmem
    have hin : b ∈ raw := by
      rw [hraw]
      exact List.mem_flatMap.mpr ⟨c, hmem, by simp [hc]⟩
    rw [List.contains_eq_mem, decide_eq_false_iff_not] at hb
    exact hb hin
  constructor
  case nonempty =>
    rintro rfl
    exact hnonempty hraw
  case bytes => omega
  case depth => exact hdepth
  case nul => exact hchar 0 _ (by decide) hnul
  case backslash => exact hchar 92 _ (by decide) hbackslash
  case relative => exact hrelative
  case drive =>
    intro letter rest hpath
    by_contra halpha
    obtain ⟨b, hencode, hb⟩ := utf8EncodeChar_alpha (eq_true_of_ne_false halpha)
    have hcolon : String.utf8EncodeChar ':' = [58] := by decide
    have hslash : String.utf8EncodeChar '/' = [47] := by decide
    rw [hraw, hpath] at hdrive
    simp [windowsDrivePrefix, hencode, hcolon, hslash, hb] at hdrive
  case components => exact parts_of_any_dotComponent hdots

/-! ## The accepted inventory -/

/-- The bounds of one entry, in exact arithmetic. -/
structure WithinLimits (limits : ArchiveLimits) (e : InspectedEntry) : Prop where
  size : e.decompressedSize ≤ limits.maxEntryDecompressedBytes
  ratio : e.decompressedSize ≤ e.compressedSize * limits.maxCompressionRatio
  empty : e.compressedSize = 0 → e.decompressedSize = 0

/-- What the entries found so far satisfy, in the order of the archive. -/
structure Gathered (limits : ArchiveLimits) (inventory : InspectedInventory) : Prop where
  distinct : (inventory.entries.map InspectedEntry.path).Nodup
  safe : ∀ e ∈ inventory.entries, SafePath limits e.path
  within : ∀ e ∈ inventory.entries, WithinLimits limits e
  compressed : inventory.totalCompressedBytes = (inventory.entries.map InspectedEntry.compressedSize).sum
  compressedBound : inventory.totalCompressedBytes ≤ limits.maxTotalCompressedBytes
  decompressed :
    inventory.totalDecompressedBytes = (inventory.entries.map InspectedEntry.decompressedSize).sum
  decompressedBound : inventory.totalDecompressedBytes ≤ limits.maxTotalDecompressedBytes

/-- An accepted inventory. -/
structure Admitted (limits : ArchiveLimits) (inventory : InspectedInventory) : Prop
    extends Gathered limits inventory where
  sorted : inventory.entries.Pairwise fun a b => a.path < b.path
  count : inventory.entries.length ≤ limits.maxEntries

theorem le_mul_of_exceedsRatio {decompressed compressed maximum : Nat}
    (h : exceedsRatio decompressed compressed maximum = false) :
    decompressed ≤ compressed * maximum := by
  simp only [exceedsRatio, Bool.and_eq_false_iff, Bool.or_eq_false_iff, decide_eq_false_iff_not]
    at h
  rcases h with h | ⟨-, h⟩
  · omega
  · have hmin : min (compressed * maximum) (2 ^ 64 - 1) ≤ compressed * maximum := Nat.min_le_left _ _
    omega

theorem checkedTotal_eq_ok {total value sum : Nat} {rule : String}
    (h : checkedTotal total value rule = .ok sum) : sum = total + value := by
  unfold checkedTotal at h
  split at h
  · cases h
    rfl
  · cases h

/-- One entry more keeps the inventory within the limits. -/
theorem Gathered.inspectEntry {limits : ArchiveLimits} {inventory after : InspectedInventory}
    {found : Option EntryMetadata} (hg : Gathered limits inventory)
    (h : inspectEntry limits inventory found = .ok after) :
    Gathered limits after ∧ after.entries.length = inventory.entries.length + 1 := by
  obtain ⟨file, -, h⟩ := bind_eq_ok.mp h
  obtain ⟨_, -, h⟩ := bind_eq_ok.mp h
  obtain ⟨_, -, h⟩ := bind_eq_ok.mp h
  obtain ⟨_, -, h⟩ := bind_eq_ok.mp h
  obtain ⟨path, hpath, h⟩ := bind_eq_ok.mp h
  obtain ⟨_, hfresh, h⟩ := bind_eq_ok.mp h
  obtain ⟨_, hsize, h⟩ := bind_eq_ok.mp h
  obtain ⟨_, hratio, h⟩ := bind_eq_ok.mp h
  obtain ⟨compressed, hcompressed, h⟩ := bind_eq_ok.mp h
  obtain ⟨decompressed, hdecompressed, h⟩ := bind_eq_ok.mp h
  obtain ⟨_, hcompressedBound, h⟩ := bind_eq_ok.mp h
  obtain ⟨_, hdecompressedBound, h⟩ := bind_eq_ok.mp h
  cases h
  rw [require_eq_ok] at hfresh hsize hratio hcompressedBound hdecompressedBound
  rw [decide_eq_true_eq] at hsize hcompressedBound hdecompressedBound
  rw [Bool.not_eq_true', List.contains_eq_mem, decide_eq_false_iff_not] at hfresh
  have hmul := le_mul_of_exceedsRatio (Bool.not_eq_true' _ ▸ hratio)
  have hwithin : WithinLimits limits ⟨path, file.compressedSize, file.size⟩ := by
    refine ⟨hsize, hmul, fun hzero => ?_⟩
    have hproduct : file.compressedSize * limits.maxCompressionRatio = 0 := by
      rw [show file.compressedSize = 0 from hzero, Nat.zero_mul]
    show file.size = 0
    omega
  have hsafe := validatePath_safe hpath
  constructor
  · constructor
    case distinct =>
      rw [List.map_append, List.nodup_append]
      refine ⟨hg.distinct, by simp, ?_⟩
      rintro a ha b hb rfl
      have hnew : a = path := List.mem_singleton.mp hb
      exact hfresh (hnew ▸ ha)
    case safe =>
      intro e he
      rcases List.mem_append.mp he with he | he
      · exact hg.safe e he
      · cases List.mem_singleton.mp he
        exact hsafe
    case within =>
      intro e he
      rcases List.mem_append.mp he with he | he
      · exact hg.within e he
      · cases List.mem_singleton.mp he
        exact hwithin
    case compressed =>
      rw [checkedTotal_eq_ok hcompressed, hg.compressed, List.map_append, List.sum_append]
      rfl
    case compressedBound => exact hcompressedBound
    case decompressed =>
      rw [checkedTotal_eq_ok hdecompressed, hg.decompressed, List.map_append, List.sum_append]
      rfl
    case decompressedBound => exact hdecompressedBound
  · simp

theorem Gathered.inspectEntries {limits : ArchiveLimits} {files : List (Option EntryMetadata)}
    {inventory after : InspectedInventory} (hg : Gathered limits inventory)
    (h : inspectEntries limits inventory files = .ok after) :
    Gathered limits after ∧ after.entries.length = inventory.entries.length + files.length := by
  induction files generalizing inventory with
  | nil =>
    cases h
    exact ⟨hg, rfl⟩
  | cons found rest ih =>
    obtain ⟨next, hnext, h⟩ := bind_eq_ok.mp h
    obtain ⟨hg', hlength⟩ := hg.inspectEntry hnext
    obtain ⟨hafter, hlength'⟩ := ih hg' h
    refine ⟨hafter, ?_⟩
    rw [hlength', hlength, List.length_cons]
    omega

theorem InspectedInventory.sorted_perm (inventory : InspectedInventory) :
    inventory.sorted.entries.Perm inventory.entries := List.perm_insertionSort _ _

/-- Sorting changes the order only, and distinct paths make it strict. -/
theorem Gathered.sorted {limits : ArchiveLimits} {inventory : InspectedInventory}
    (hg : Gathered limits inventory) (hcount : inventory.entries.length ≤ limits.maxEntries) :
    Admitted limits inventory.sorted := by
  have hperm := inventory.sorted_perm
  have hdistinct : (inventory.sorted.entries.map InspectedEntry.path).Nodup :=
    (hperm.map InspectedEntry.path).nodup_iff.mpr hg.distinct
  constructor
  case toGathered =>
    constructor
    case distinct => exact hdistinct
    case safe => exact fun e he => hg.safe e (hperm.mem_iff.mp he)
    case within => exact fun e he => hg.within e (hperm.mem_iff.mp he)
    case compressed =>
      rw [(hperm.map InspectedEntry.compressedSize).sum_nat]
      exact hg.compressed
    case compressedBound => exact hg.compressedBound
    case decompressed =>
      rw [(hperm.map InspectedEntry.decompressedSize).sum_nat]
      exact hg.decompressed
    case decompressedBound => exact hg.decompressedBound
  case sorted =>
    have hle : inventory.sorted.entries.Pairwise fun a b => a.path ≤ b.path :=
      List.pairwise_insertionSort (fun a b : InspectedEntry => a.path ≤ b.path) inventory.entries
    refine (hle.and (List.pairwise_map.mp hdistinct)).imp ?_
    rintro a b ⟨hab, hne⟩
    exact lt_of_le_of_ne hab hne
  case count => exact hperm.length_eq ▸ hcount

theorem inspectReader_admitted {file : FileBytes} {archive : Option (List (Option EntryMetadata))}
    {limits : ArchiveLimits} {inventory : InspectedInventory}
    (h : inspectReader file archive limits = .ok inventory) : Admitted limits inventory := by
  obtain ⟨_, -, h⟩ := bind_eq_ok.mp h
  obtain ⟨files, -, h⟩ := bind_eq_ok.mp h
  obtain ⟨_, -, h⟩ := bind_eq_ok.mp h
  obtain ⟨_, hcount, h⟩ := bind_eq_ok.mp h
  obtain ⟨gathered, hgathered, h⟩ := bind_eq_ok.mp h
  cases h
  have hempty : Gathered limits {} := by constructor <;> simp
  obtain ⟨hg, hlength⟩ := hempty.inspectEntries hgathered
  rw [require_eq_ok, decide_eq_true_eq] at hcount
  apply hg.sorted
  rw [hlength, List.length_nil, Nat.zero_add]
  exact hcount

/-- What the parser is given: the limits are configured within its own. -/
def Admitted.archiveInventory {limits : ArchiveLimits} {inventory : InspectedInventory}
    (h : Admitted limits inventory)
    (hlimits : limits.maxEntryDecompressedBytes ≤ maxEntryDecompressedBytes) : ArchiveInventory where
  entries := inventory.entries
  sorted := h.sorted
  bounded := fun e he => (h.within e he).size.trans hlimits

/-! ## The read of one entry -/

/-- Bytes of an entry that may be buffered. -/
structure Buffered (limits : ArchiveLimits) (inspected : InspectedEntry) (count : Nat) : Prop where
  entry : count ≤ limits.maxEntryDecompressedBytes
  total : count ≤ limits.maxTotalDecompressedBytes
  ratio : count ≤ inspected.compressedSize * limits.maxCompressionRatio

/-- The chunks `read` came, the entry ended there, and the output was within the limits after
each of them. -/
structure ReadOf (limits : ArchiveLimits) (inspected : InspectedEntry) (start : List UInt8)
    (chunks : List ReadResult) (output : List UInt8) (read : List (List UInt8)) : Prop where
  ended : ∃ tail, chunks = read.map some ++ tail ∧ (tail = [] ∨ tail.head? = some (some []))
  filled : ∀ chunk ∈ read, chunk ≠ [] ∧ chunk.length ≤ bufferSize
  output : output = start ++ read.flatten
  buffered : ∀ n ≤ read.length, Buffered limits inspected (start ++ (read.take n).flatten).length

theorem readChunks_readOf {limits : ArchiveLimits} {inspected : InspectedEntry}
    {chunks : List ReadResult} {start output : List UInt8} {actual : Nat}
    (hstart : Buffered limits inspected start.length)
    (h : readChunks limits inspected chunks start.length start = .ok (actual, output)) :
    actual = output.length ∧ ∃ read, ReadOf limits inspected start chunks output read := by
  induction chunks generalizing start with
  | nil =>
    cases h
    exact ⟨rfl, [], ⟨[], rfl, .inl rfl⟩, by simp, by simp, by simpa using hstart⟩
  | cons first rest ih =>
    cases first with
    | none => cases h
    | some chunk =>
      rw [readChunks] at h
      split at h
      · next hend =>
        cases h
        exact ⟨rfl, [], ⟨_, rfl, .inr (by simp [hend])⟩, by simp, by simp, by simpa using hstart⟩
      · next hfilled =>
        obtain ⟨total, htotal, h⟩ := bind_eq_ok.mp h
        obtain ⟨_, hentry, h⟩ := bind_eq_ok.mp h
        obtain ⟨_, hlimit, h⟩ := bind_eq_ok.mp h
        obtain ⟨_, hratio, h⟩ := bind_eq_ok.mp h
        obtain ⟨_, hbuffer, h⟩ := bind_eq_ok.mp h
        rw [require_eq_ok, decide_eq_true_eq] at hentry hlimit hbuffer
        rw [require_eq_ok, Bool.not_eq_true'] at hratio
        have hlength : total = (start ++ chunk).length := by
          rw [checkedTotal_eq_ok htotal, List.length_append]
        subst hlength
        have hnext : Buffered limits inspected (start ++ chunk).length :=
          ⟨hentry, hlimit, le_mul_of_exceedsRatio hratio⟩
        obtain ⟨hactual, read, ⟨tail, htail, hstop⟩, hchunks, houtput, hbuffered⟩ := ih hnext h
        refine ⟨hactual, chunk :: read, ⟨tail, ?_, hstop⟩, ?_, ?_, ?_⟩
        · rw [htail]
          rfl
        · intro other hmem
          rcases List.mem_cons.mp hmem with rfl | hmem
          · exact ⟨hfilled, hbuffer⟩
          · exact hchunks other hmem
        · rw [houtput, List.flatten_cons, List.append_assoc]
        · intro n hn
          cases n with
          | zero => simpa using hstart
          | succ n =>
            rw [List.take_succ_cons, List.flatten_cons, ← List.append_assoc]
            exact hbuffered n (Nat.le_of_succ_le_succ hn)

theorem readInspectedEntry_readOf {inventory : InspectedInventory}
    {opened : Option (List ReadResult)} {entryPath : String} {limits : ArchiveLimits}
    {output : List UInt8} (h : readInspectedEntry inventory opened entryPath limits = .ok output) :
    ∃ inspected ∈ inventory.entries, ∃ chunks read, inspected.path = entryPath ∧
      opened = some chunks ∧ ReadOf limits inspected [] chunks output read ∧
      output.length = inspected.decompressedSize := by
  obtain ⟨inspected, hfind, h⟩ := bind_eq_ok.mp h
  obtain ⟨chunks, hopened, h⟩ := bind_eq_ok.mp h
  obtain ⟨⟨actual, bytes⟩, hread, h⟩ := bind_eq_ok.mp h
  obtain ⟨_, hsize, h⟩ := bind_eq_ok.mp h
  cases h
  rw [orElse_eq_ok] at hfind hopened
  rw [require_eq_ok, decide_eq_true_eq] at hsize
  have hpath : inspected.path = entryPath := by simpa using List.find?_some hfind
  have hnothing : Buffered limits inspected ([] : List UInt8).length := by
    constructor <;> exact Nat.zero_le _
  obtain ⟨hactual, read, hreads⟩ := readChunks_readOf hnothing hread
  exact ⟨inspected, List.mem_of_find?_eq_some hfind, chunks, read, hpath, hopened, hreads,
    hactual ▸ hsize⟩

/-- **An accepted inventory is safe and exact, the parser takes it, and reads of its entries
respect it.** -/
theorem archive_inspection_safe (limits : ArchiveLimits) :
    (∀ file archive inventory, inspectReader file archive limits = .ok inventory →
      Admitted limits inventory ∧
        (∀ e ∈ inventory.entries, ∀ root,
          joinPath root e.path = root ++ e.path.toList.splitOn '/' ∧
            e.path.toList.splitOn '/' ≠ []) ∧
        (limits.maxEntryDecompressedBytes ≤ maxEntryDecompressedBytes →
          ∃ taken : ArchiveInventory, taken.entries = inventory.entries)) ∧
    ∀ inventory opened entryPath output,
      readInspectedEntry inventory opened entryPath limits = .ok output →
      ∃ inspected ∈ inventory.entries, ∃ chunks read, inspected.path = entryPath ∧
        opened = some chunks ∧ ReadOf limits inspected [] chunks output read ∧
        output.length = inspected.decompressedSize := by
  constructor
  · intro file archive inventory h
    have hadmitted := inspectReader_admitted h
    refine ⟨hadmitted, fun e he root => (hadmitted.safe e he).joinPath_eq root, fun hlimits => ?_⟩
    exact ⟨hadmitted.archiveInventory hlimits, rfl⟩
  · exact fun _ _ _ _ h => readInspectedEntry_readOf h

/-- The local header of an entry with its data, and its central header. -/
def localEntry (method compressed decompressed : UInt8) (name data : List UInt8) : List UInt8 :=
  localSignature ++ [20, 0, 0, 0, method, 0] ++ List.replicate 8 0 ++
    [compressed, 0, 0, 0, decompressed, 0, 0, 0, name.length.toUInt8, 0, 0, 0] ++ name ++ data

def centralEntry (method compressed decompressed : UInt8) (name : List UInt8) (offset : UInt8) :
    List UInt8 :=
  centralSignature ++ [20, 0, 20, 0, 0, 0, method, 0] ++ List.replicate 8 0 ++
    [compressed, 0, 0, 0, decompressed, 0, 0, 0, name.length.toUInt8, 0, 0, 0, 0, 0] ++
    List.replicate 8 0 ++ [offset, 0, 0, 0] ++ name

/-- An archive of the stored entry `s/b` and then the deflated entry `a`. -/
def twoEntryArchive : FileBytes :=
  ⟨localEntry 0 3 3 [115, 47, 98] [1, 2, 3] ++ localEntry 8 4 10 [97] [4, 5, 6, 7] ++
      (centralEntry 0 3 3 [115, 47, 98] 0 ++ centralEntry 8 4 10 [97] 36) ++
      (eocdSignature ++ [0, 0, 0, 0, 2, 0, 2, 0, 96, 0, 0, 0, 71, 0, 0, 0, 0, 0]), by decide +kernel⟩

/-- What the ZIP reader reports of its entries. -/
def twoEntryMetadata : List EntryMetadata :=
  [{ encrypted := false, compression := .stored, isFile := true, unixMode := some 0o100644,
     nameRaw := [115, 47, 98], size := 3, compressedSize := 3 },
   { encrypted := false, compression := .deflated, isFile := true, unixMode := none,
     nameRaw := [97], size := 10, compressedSize := 4 }]

def twoEntryInventory : InspectedInventory := ⟨[⟨"a", 4, 10⟩, ⟨"s/b", 3, 3⟩], 7, 13⟩

theorem archive_inspection_safe_of_two_entries :
    Admitted {} twoEntryInventory ∧
      (∃ taken : ArchiveInventory, taken.entries = twoEntryInventory.entries) ∧
      ∃ inspected ∈ twoEntryInventory.entries, ∃ chunks read, inspected.path = "a" ∧
        some [some [4, 5, 6], some [4, 5, 6, 4, 5, 6, 7], some []] = some chunks ∧
        ReadOf {} inspected [] chunks [4, 5, 6, 4, 5, 6, 4, 5, 6, 7] read ∧
        10 = inspected.decompressedSize := by
  obtain ⟨hinspect, hread⟩ := archive_inspection_safe {}
  obtain ⟨hadmitted, -, htaken⟩ := hinspect twoEntryArchive (some (twoEntryMetadata.map some))
    twoEntryInventory (by decide +kernel)
  exact ⟨hadmitted, htaken (by decide), hread twoEntryInventory
    (some [some [4, 5, 6], some [4, 5, 6, 4, 5, 6, 7], some []]) "a" _ (by decide +kernel)⟩

end InstagramArchive.DataExport

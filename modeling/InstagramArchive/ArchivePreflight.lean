import InstagramArchive.DataExport

/-!
# The preflight of an archive

`preflightHeaders` reads the end record, the central directory and the local headers of a ZIP
file before anything else does. Every offset and every length it follows comes from the file,
so each read is checked against the file and each sum against its machine type.

The reader is a string of bytes and a position: a read succeeds when the file holds the bytes,
and a seek may leave the file. `SpansDirectory` says which files are accepted.
-/

namespace InstagramArchive.DataExport

/-! ## Bytes -/

/-- A string of bytes a reader can hold: its length is a file offset. -/
structure FileBytes where
  bytes : List UInt8
  addressable : bytes.length < 2 ^ 63

/-- The `count` bytes at a position, where the string holds them. -/
def slice (bytes : List UInt8) (position count : Nat) : Option (List UInt8) :=
  if position + count ≤ bytes.length then some ((bytes.drop position).take count) else none

def leU16 : List UInt8 → Option Nat
  | [a, b] => some (a.toNat + 256 * b.toNat)
  | _ => none

def leU32 : List UInt8 → Option Nat
  | [a, b, c, d] => some (a.toNat + 256 * (b.toNat + 256 * (c.toNat + 256 * d.toNat)))
  | _ => none

def u16At (bytes : List UInt8) (position : Nat) : Option Nat := (slice bytes position 2).bind leU16

def u32At (bytes : List UInt8) (position : Nat) : Option Nat := (slice bytes position 4).bind leU32

/-! ## Errors and checked steps -/

/-- Typed hostile-archive refusal without attacker-controlled text. -/
structure ArchiveError where
  failureClass : ArchiveFailureClass
  rule : String
  deriving DecidableEq, Repr

def malformed (rule : String) : ArchiveError := ⟨.malformed, rule⟩

def resource (rule : String) : ArchiveError := ⟨.resourceLimit, rule⟩

/-- `ok_or_else`. -/
def orElse {α : Type} (value : Option α) (error : ArchiveError) : Except ArchiveError α :=
  match value with
  | some a => .ok a
  | none => .error error

/-- A refusal unless the condition holds. -/
def require (condition : Bool) (error : ArchiveError) : Except ArchiveError Unit :=
  if condition then .ok () else .error error

/-- `checked_add` of 64-bit counters. -/
def checkedAdd (a b : Nat) (rule : String) : Except ArchiveError Nat :=
  if a + b < 2 ^ 64 then .ok (a + b) else .error (malformed rule)

def fieldU16 (bytes : List UInt8) (offset : Nat) (rule : String) : Except ArchiveError Nat :=
  orElse (u16At bytes offset) (malformed rule)

def fieldU32 (bytes : List UInt8) (offset : Nat) (rule : String) : Except ArchiveError Nat :=
  orElse (u32At bytes offset) (malformed rule)

/-- `read_exact` of `count` bytes at a position. -/
def readExact (bytes : List UInt8) (position count : Nat) (rule : String) :
    Except ArchiveError (List UInt8) := orElse (slice bytes position count) (malformed rule)

/-! ## Limits -/

/-- Finite ZIP inspection and decompression limits. -/
structure ArchiveLimits where
  maxEntries : Nat := 20000
  maxEntryPathBytes : Nat := 1024
  maxPathDepth : Nat := 12
  maxTotalCompressedBytes : Nat := 5 * 1024 * 1024 * 1024
  maxTotalDecompressedBytes : Nat := 20 * 1024 * 1024 * 1024
  maxEntryDecompressedBytes : Nat := 64 * 1024 * 1024
  maxCompressionRatio : Nat := 200
  deriving DecidableEq, Repr

/-! ## The end record -/

def centralSignature : List UInt8 := [0x50, 0x4b, 0x01, 0x02]

def localSignature : List UInt8 := [0x50, 0x4b, 0x03, 0x04]

def eocdSignature : List UInt8 := [0x50, 0x4b, 0x05, 0x06]

def u16Max : Nat := 2 ^ 16 - 1

/-- `u32::MAX`, which stands for a ZIP64 field. -/
def zip64Offset : Nat := 2 ^ 32 - 1

structure EndOfCentralDirectory where
  entryCount : Nat
  directoryOffset : Nat
  directorySize : Nat
  deriving DecidableEq, Repr

/-- Whether an end record stands at a position: its comment reaches the end. -/
def endsAt (tail : List UInt8) (position : Nat) : Bool :=
  slice tail position 4 = some eocdSignature &&
    (u16At tail (position + 20)).any fun comment => position + 22 + comment = tail.length

/-- The search of the signature from the end backward. -/
def eocdPosition (tail : List UInt8) : Option Nat :=
  (List.range (tail.length - 3)).reverse.find? (endsAt tail)

def endOfCentralDirectory (file : FileBytes) (maximum : Nat) :
    Except ArchiveError EndOfCentralDirectory := do
  let length := file.bytes.length
  require (22 ≤ length) (malformed "eocd_missing")
  let tailLength := min length (22 + u16Max)
  let tail ← readExact file.bytes (length - tailLength) tailLength "eocd_read"
  let position ← orElse (eocdPosition tail) (malformed "eocd_missing")
  let disk ← fieldU16 tail (position + 4) "eocd_disk"
  let directoryDisk ← fieldU16 tail (position + 6) "eocd_disk"
  let diskEntries ← fieldU16 tail (position + 8) "eocd_count"
  let totalEntries ← fieldU16 tail (position + 10) "eocd_count"
  require (disk = 0 && directoryDisk = 0 && diskEntries = totalEntries) (malformed "multi_disk")
  require (totalEntries ≠ u16Max) (resource "zip64_entry_count")
  require (totalEntries ≤ maximum) (resource "entry_count")
  let directorySize ← fieldU32 tail (position + 12) "eocd_directory_size"
  let directoryOffset ← fieldU32 tail (position + 16) "eocd_directory_offset"
  require (directorySize ≠ zip64Offset && directoryOffset ≠ zip64Offset) (resource "zip64_directory")
  let eocdAbsolute ← checkedAdd (length - tailLength) position "eocd_position"
  let finish ← checkedAdd directoryOffset directorySize "central_directory_bounds"
  require (finish = eocdAbsolute) (malformed "central_directory_bounds")
  return ⟨totalEntries, directoryOffset, directorySize⟩

/-! ## Headers -/

/-- What the preflight reads of a central header. -/
structure CentralHeader where
  name : List UInt8
  flags : Nat
  method : Nat
  extraLength : Nat
  commentLength : Nat
  localOffset : Nat
  deriving DecidableEq, Repr

def CentralHeader.size (h : CentralHeader) : Nat :=
  46 + h.name.length + h.extraLength + h.commentLength

/-- The central header at a position, and the position behind it. -/
def readCentral (bytes : List UInt8) (limits : ArchiveLimits) (directoryEnd : Nat)
    (names : List (List UInt8)) (position : Nat) : Except ArchiveError (CentralHeader × Nat) := do
  let central ← readExact bytes position 46 "central_header_read"
  require (slice central 0 4 = some centralSignature) (malformed "central_header_signature")
  let flags ← fieldU16 central 8 "central_flags"
  let method ← fieldU16 central 10 "central_method"
  let nameLength ← fieldU16 central 28 "central_name_length"
  let extraLength ← fieldU16 central 30 "central_extra_length"
  let commentLength ← fieldU16 central 32 "central_comment_length"
  require (nameLength ≠ 0 && nameLength ≤ limits.maxEntryPathBytes) (resource "entry_path_bytes")
  let localOffset ← fieldU32 central 42 "local_header_offset"
  let name ← readExact bytes (position + 46) nameLength "central_name_read"
  require (!names.contains name) ⟨.duplicateEntry, "central_directory_duplicate"⟩
  let skip ← checkedAdd extraLength commentLength "central_variable_overflow"
  let next ← checkedAdd (position + 46 + nameLength) skip "central_variable_seek"
  require (next ≤ directoryEnd) (malformed "central_directory_bounds")
  return ({ name, flags, method, extraLength, commentLength, localOffset }, next)

/-- The local header of an entry agrees with its central one. -/
def checkLocal (bytes : List UInt8) (directoryOffset : Nat) (h : CentralHeader) :
    Except ArchiveError Unit := do
  let header ← readExact bytes h.localOffset 30 "local_header_read"
  require (slice header 0 4 = some localSignature) (malformed "local_header_signature")
  let flags ← fieldU16 header 6 "local_flags"
  let method ← fieldU16 header 8 "local_method"
  require (h.flags % 2 = 0 && flags % 2 = 0) ⟨.unsupportedEncoding, "encrypted_entry"⟩
  require (h.flags = flags) (malformed "header_flags_mismatch")
  require (h.method = method) (malformed "header_method_mismatch")
  require (h.method = 0 || h.method = 8) ⟨.unsupportedEncoding, "compression_method"⟩
  let nameLength ← fieldU16 header 26 "local_name_length"
  let extraLength ← fieldU16 header 28 "local_extra_length"
  require (nameLength = h.name.length) (malformed "header_name_length_mismatch")
  let name ← readExact bytes (h.localOffset + 30) nameLength "local_name_read"
  require (name = h.name) (malformed "header_name_mismatch")
  let dataStart ← checkedAdd (h.localOffset + 30 + nameLength) extraLength "local_extra_overflow"
  require (dataStart ≤ directoryOffset) (malformed "local_data_bounds")

/-- The entries of the directory, one after the other: the position behind the last. -/
def scanEntries (bytes : List UInt8) (limits : ArchiveLimits) (directoryOffset directoryEnd : Nat) :
    Nat → List (List UInt8) → Nat → Except ArchiveError Nat
  | 0, _, position => .ok position
  | count + 1, names, position => do
    let (h, next) ← readCentral bytes limits directoryEnd names position
    checkLocal bytes directoryOffset h
    scanEntries bytes limits directoryOffset directoryEnd count (h.name :: names) next

/-- Checks the headers of a file before any entry is looked at: the number of its entries. -/
def preflightHeaders (file : FileBytes) (limits : ArchiveLimits) : Except ArchiveError Nat := do
  let directory ← endOfCentralDirectory file limits.maxEntries
  let directoryEnd ← checkedAdd directory.directoryOffset directory.directorySize
    "central_directory_overflow"
  let observedEnd ← scanEntries file.bytes limits directory.directoryOffset directoryEnd
    directory.entryCount [] directory.directoryOffset
  require (observedEnd = directoryEnd) (malformed "central_directory_size")
  return directory.entryCount

/-! ## Reading back the steps -/

theorem bind_eq_ok {ε α β : Type} {x : Except ε α} {f : α → Except ε β} {b : β} :
    (x >>= f) = .ok b ↔ ∃ a, x = .ok a ∧ f a = .ok b := by
  cases x with
  | error e =>
    constructor
    · intro h
      cases h
    · rintro ⟨a, h, -⟩
      cases h
  | ok a =>
    constructor
    · intro h
      exact ⟨a, rfl, h⟩
    · rintro ⟨a', h, hf⟩
      cases h
      exact hf

theorem orElse_eq_ok {α : Type} {value : Option α} {error : ArchiveError} {a : α} :
    orElse value error = .ok a ↔ value = some a := by
  cases value <;> simp [orElse]

theorem require_eq_ok {condition : Bool} {error : ArchiveError} {u : Unit} :
    require condition error = .ok u ↔ condition = true := by
  cases condition <;> simp [require]

theorem checkedAdd_eq_ok {a b c : Nat} {rule : String} :
    checkedAdd a b rule = .ok c ↔ a + b < 2 ^ 64 ∧ c = a + b := by
  unfold checkedAdd
  split
  · rename_i h
    rw [Except.ok.injEq]
    exact ⟨fun hc => ⟨h, hc.symm⟩, fun hc => hc.2.symm⟩
  · rename_i h
    constructor
    · intro hc
      cases hc
    · exact fun hc => absurd hc.1 h

theorem slice_eq_some {bytes part : List UInt8} {position count : Nat} :
    slice bytes position count = some part ↔
      position + count ≤ bytes.length ∧ part = (bytes.drop position).take count := by
  unfold slice
  split
  · rename_i h
    simp [h, eq_comm]
  · rename_i h
    simp [h]

theorem slice_length {bytes part : List UInt8} {position count : Nat}
    (h : slice bytes position count = some part) : part.length = count := by
  obtain ⟨hle, rfl⟩ := slice_eq_some.mp h
  rw [List.length_take, List.length_drop]
  omega

/-- What a part holds, the whole holds further on. -/
theorem slice_slice {bytes part : List UInt8} {position count offset n : Nat}
    (h : slice bytes position count = some part) (hn : offset + n ≤ count) :
    slice part offset n = slice bytes (position + offset) n := by
  have hlength := slice_length h
  obtain ⟨hle, rfl⟩ := slice_eq_some.mp h
  unfold slice
  rw [if_pos (by omega), if_pos (by omega), List.drop_take, List.take_take, List.drop_drop]
  congr 2
  omega

theorem u16At_slice {bytes part : List UInt8} {position count offset : Nat}
    (h : slice bytes position count = some part) (hn : offset + 2 ≤ count) :
    u16At part offset = u16At bytes (position + offset) := by
  rw [u16At, u16At, slice_slice h hn]

theorem u32At_slice {bytes part : List UInt8} {position count offset : Nat}
    (h : slice bytes position count = some part) (hn : offset + 4 ≤ count) :
    u32At part offset = u32At bytes (position + offset) := by
  rw [u32At, u32At, slice_slice h hn]

/-- A field inside the bytes is read, and it fits its type. -/
theorem u16At_some {bytes : List UInt8} {position : Nat} (h : position + 2 ≤ bytes.length) :
    ∃ n, u16At bytes position = some n ∧ n < 2 ^ 16 := by
  obtain ⟨part, hpart⟩ : ∃ part, slice bytes position 2 = some part := ⟨_, slice_eq_some.mpr ⟨h, rfl⟩⟩
  have hlength := slice_length hpart
  match part, hlength with
  | [a, b], _ =>
    refine ⟨a.toNat + 256 * b.toNat, by simp [u16At, hpart, leU16], ?_⟩
    have ha := a.toNat_lt
    have hb := b.toNat_lt
    omega

theorem u32At_some {bytes : List UInt8} {position : Nat} (h : position + 4 ≤ bytes.length) :
    ∃ n, u32At bytes position = some n ∧ n < 2 ^ 32 := by
  obtain ⟨part, hpart⟩ : ∃ part, slice bytes position 4 = some part := ⟨_, slice_eq_some.mpr ⟨h, rfl⟩⟩
  have hlength := slice_length hpart
  match part, hlength with
  | [a, b, c, d], _ =>
    refine ⟨_, by simp [u32At, hpart, leU32]; rfl, ?_⟩
    have ha := a.toNat_lt
    have hb := b.toNat_lt
    have hc := c.toNat_lt
    have hd := d.toNat_lt
    omega

theorem u16At_bound {bytes : List UInt8} {position n : Nat} (h : u16At bytes position = some n) :
    position + 2 ≤ bytes.length ∧ n < 2 ^ 16 := by
  obtain ⟨part, hpart, -⟩ := Option.bind_eq_some_iff.mp h
  have hle := (slice_eq_some.mp hpart).1
  obtain ⟨m, hm, hlt⟩ := u16At_some hle
  rw [hm] at h
  cases h
  exact ⟨hle, hlt⟩

theorem u32At_bound {bytes : List UInt8} {position n : Nat} (h : u32At bytes position = some n) :
    position + 4 ≤ bytes.length ∧ n < 2 ^ 32 := by
  obtain ⟨part, hpart, -⟩ := Option.bind_eq_some_iff.mp h
  have hle := (slice_eq_some.mp hpart).1
  obtain ⟨m, hm, hlt⟩ := u32At_some hle
  rw [hm] at h
  cases h
  exact ⟨hle, hlt⟩

/-! ## The accepted files -/

/-- An end record stands at a position: its comment reaches the end of the file. -/
def EndRecord (bytes : List UInt8) (position : Nat) : Prop :=
  bytes.length ≤ position + (22 + u16Max) ∧ slice bytes position 4 = some eocdSignature ∧
    ∃ comment, u16At bytes (position + 20) = some comment ∧ position + 22 + comment = bytes.length

/-- The central header `h` stands at a position. -/
structure CentralAt (bytes : List UInt8) (position : Nat) (h : CentralHeader) : Prop where
  signature : slice bytes position 4 = some centralSignature
  flags : u16At bytes (position + 8) = some h.flags
  method : u16At bytes (position + 10) = some h.method
  nameLength : u16At bytes (position + 28) = some h.name.length
  extraLength : u16At bytes (position + 30) = some h.extraLength
  commentLength : u16At bytes (position + 32) = some h.commentLength
  localOffset : u32At bytes (position + 42) = some h.localOffset
  name : slice bytes (position + 46) h.name.length = some h.name

/-- A complete local header says what the central header says, and its data begins no later
than the directory. -/
structure LocalAgrees (bytes : List UInt8) (directoryOffset : Nat) (h : CentralHeader) : Prop where
  signature : slice bytes h.localOffset 4 = some localSignature
  complete : h.localOffset + 30 ≤ bytes.length
  flags : u16At bytes (h.localOffset + 6) = some h.flags
  method : u16At bytes (h.localOffset + 8) = some h.method
  nameLength : u16At bytes (h.localOffset + 26) = some h.name.length
  name : slice bytes (h.localOffset + 30) h.name.length = some h.name
  data : ∃ extra, u16At bytes (h.localOffset + 28) = some extra ∧
    h.localOffset + 30 + h.name.length + extra ≤ directoryOffset

/-- The headers stand one behind the other from a position to another. -/
def Tiles (bytes : List UInt8) : Nat → List CentralHeader → Nat → Prop
  | position, [], stop => position = stop
  | position, h :: rest, stop => CentralAt bytes position h ∧ Tiles bytes (position + h.size) rest stop

/-- What one entry must meet. -/
structure EntryAccepted (bytes : List UInt8) (limits : ArchiveLimits) (directoryOffset : Nat)
    (h : CentralHeader) : Prop where
  nonempty : h.name ≠ []
  bounded : h.name.length ≤ limits.maxEntryPathBytes
  readable : h.flags % 2 = 0
  method : h.method = 0 ∨ h.method = 8
  agrees : LocalAgrees bytes directoryOffset h

/-- A directory of `n` entries from `directoryOffset` to the last end record of the file. -/
structure SpansDirectory (bytes : List UInt8) (limits : ArchiveLimits) (n position directoryOffset
    directorySize : Nat) (headers : List CentralHeader) : Prop where
  record : EndRecord bytes position
  greatest : ∀ other, EndRecord bytes other → other ≤ position
  disk : u16At bytes (position + 4) = some 0
  directoryDisk : u16At bytes (position + 6) = some 0
  diskEntries : u16At bytes (position + 8) = some n
  totalEntries : u16At bytes (position + 10) = some n
  small : n < u16Max
  limited : n ≤ limits.maxEntries
  size : u32At bytes (position + 12) = some directorySize
  offset : u32At bytes (position + 16) = some directoryOffset
  size_small : directorySize ≠ zip64Offset
  offset_small : directoryOffset ≠ zip64Offset
  adjacent : directoryOffset + directorySize = position
  length : headers.length = n
  tiles : Tiles bytes directoryOffset headers position
  distinct : (headers.map CentralHeader.name).Nodup
  entries : ∀ h ∈ headers, EntryAccepted bytes limits directoryOffset h

/-- The files the preflight accepts, with the number of their entries. -/
def Preflighted (bytes : List UInt8) (limits : ArchiveLimits) (n : Nat) : Prop :=
  ∃ position directoryOffset directorySize headers,
    SpansDirectory bytes limits n position directoryOffset directorySize headers

/-! ## One entry -/

section Entries

variable {bytes : List UInt8} {limits : ArchiveLimits} {directoryOffset directoryEnd position : Nat}
  {names : List (List UInt8)} {h : CentralHeader}

theorem fieldU16_eq_ok {offset n : Nat} {rule : String} :
    fieldU16 bytes offset rule = .ok n ↔ u16At bytes offset = some n := orElse_eq_ok

theorem fieldU32_eq_ok {offset n : Nat} {rule : String} :
    fieldU32 bytes offset rule = .ok n ↔ u32At bytes offset = some n := orElse_eq_ok

theorem readExact_eq_ok {count : Nat} {rule : String} {part : List UInt8} :
    readExact bytes position count rule = .ok part ↔ slice bytes position count = some part :=
  orElse_eq_ok

/-- What `readCentral` accepts, field by field. -/
theorem readCentral_eq_ok (hend : directoryEnd < 2 ^ 64) {next : Nat} :
    readCentral bytes limits directoryEnd names position = .ok (h, next) ↔
      CentralAt bytes position h ∧ h.name ≠ [] ∧ h.name.length ≤ limits.maxEntryPathBytes ∧
        h.name ∉ names ∧ next = position + h.size ∧ next ≤ directoryEnd := by
  simp only [readCentral, bind_eq_ok, require_eq_ok, fieldU16_eq_ok, fieldU32_eq_ok, readExact_eq_ok,
    checkedAdd_eq_ok, pure, Except.pure, Except.ok.injEq, Prod.mk.injEq]
  constructor
  · rintro ⟨central, hcentral, -, hsignature, flags, hflags, method, hmethod, nameLength, hnameLength,
      extraLength, hextra, commentLength, hcomment, -, hbounds, localOffset, hlocal, name, hname, -,
      hfresh, skip, ⟨-, rfl⟩, next, ⟨-, rfl⟩, -, hnext, rfl, rfl⟩
    obtain rfl := slice_length hname
    simp only [Bool.and_eq_true, decide_eq_true_eq] at hbounds hsignature hnext
    refine ⟨?_, ?_, hbounds.2, by simpa using hfresh, ?_, hnext⟩
    · constructor
      · rw [slice_slice hcentral (by omega)] at hsignature
        exact hsignature
      · rwa [u16At_slice hcentral (by omega)] at hflags
      · rwa [u16At_slice hcentral (by omega)] at hmethod
      · rwa [u16At_slice hcentral (by omega)] at hnameLength
      · rwa [u16At_slice hcentral (by omega)] at hextra
      · rwa [u16At_slice hcentral (by omega)] at hcomment
      · rwa [u32At_slice hcentral (by omega)] at hlocal
      · exact hname
    · intro hempty
      exact hbounds.1 (List.length_eq_zero_iff.mpr hempty)
    · simp only [CentralHeader.size]
      omega
  · rintro ⟨hc, hne, hbound, hfresh, rfl, hnext⟩
    have hname := (slice_eq_some.mp hc.name).1
    obtain ⟨central, hcentral⟩ : ∃ central, slice bytes position 46 = some central :=
      ⟨_, slice_eq_some.mpr ⟨by omega, rfl⟩⟩
    have hextra := (u16At_bound hc.extraLength).2
    have hcomment := (u16At_bound hc.commentLength).2
    simp only [CentralHeader.size] at hnext ⊢
    refine ⟨central, hcentral, (), ?_, h.flags, ?_, h.method, ?_, h.name.length, ?_, h.extraLength, ?_,
      h.commentLength, ?_, (), ?_, h.localOffset, ?_, h.name, hc.name, (), ?_,
      h.extraLength + h.commentLength, ⟨by omega, rfl⟩,
      position + 46 + h.name.length + (h.extraLength + h.commentLength), ⟨by omega, rfl⟩, (), ?_,
      rfl, by omega⟩
    · rw [slice_slice hcentral (by omega)]
      simpa using hc.signature
    · rw [u16At_slice hcentral (by omega)]
      exact hc.flags
    · rw [u16At_slice hcentral (by omega)]
      exact hc.method
    · rw [u16At_slice hcentral (by omega)]
      exact hc.nameLength
    · rw [u16At_slice hcentral (by omega)]
      exact hc.extraLength
    · rw [u16At_slice hcentral (by omega)]
      exact hc.commentLength
    · simp [hne, hbound]
    · rw [u32At_slice hcentral (by omega)]
      exact hc.localOffset
    · simpa using hfresh
    · simp only [decide_eq_true_eq]
      omega

/-- What `checkLocal` accepts. -/
theorem checkLocal_eq_ok (hoffset : directoryOffset < 2 ^ 64) {u : Unit} :
    checkLocal bytes directoryOffset h = .ok u ↔
      h.flags % 2 = 0 ∧ (h.method = 0 ∨ h.method = 8) ∧ LocalAgrees bytes directoryOffset h := by
  simp only [checkLocal, bind_eq_ok, require_eq_ok, fieldU16_eq_ok, readExact_eq_ok, checkedAdd_eq_ok]
  constructor
  · rintro ⟨header, hheader, -, hsignature, flags, hflags, method, hmethod, -, hclear, -, hsame, -,
      hsameMethod, -, hsupported, nameLength, hnameLength, extra, hextra, -, hlength, name, hname, -,
      hsameName, start, ⟨-, rfl⟩, hstart⟩
    simp only [Bool.and_eq_true, Bool.or_eq_true, decide_eq_true_eq] at *
    subst hsame hsameMethod hlength hsameName
    have hcomplete := (slice_eq_some.mp hheader).1
    refine ⟨hclear.1, hsupported, ?_⟩
    constructor
    · rw [slice_slice hheader (by omega)] at hsignature
      exact hsignature
    · exact hcomplete
    · rwa [u16At_slice hheader (by omega)] at hflags
    · rwa [u16At_slice hheader (by omega)] at hmethod
    · rwa [u16At_slice hheader (by omega)] at hnameLength
    · exact hname
    · rw [u16At_slice hheader (by omega)] at hextra
      exact ⟨extra, hextra, hstart⟩
  · rintro ⟨hclear, hsupported, hl⟩
    obtain ⟨header, hheader⟩ : ∃ header, slice bytes h.localOffset 30 = some header :=
      ⟨_, slice_eq_some.mpr ⟨hl.complete, rfl⟩⟩
    obtain ⟨extra, hextra, hdata⟩ := hl.data
    refine ⟨header, hheader, (), ?_, h.flags, ?_, h.method, ?_, (), by simp [hclear], (), by simp, (),
      by simp, (), by simpa using hsupported, h.name.length, ?_, extra, ?_, (), by simp, h.name, hl.name,
      (), by simp, h.localOffset + 30 + h.name.length + extra, ⟨by omega, rfl⟩, by simpa using hdata⟩
    · rw [slice_slice hheader (by omega)]
      simpa using hl.signature
    · rw [u16At_slice hheader (by omega)]
      exact hl.flags
    · rw [u16At_slice hheader (by omega)]
      exact hl.method
    · rw [u16At_slice hheader (by omega)]
      exact hl.nameLength
    · rw [u16At_slice hheader (by omega)]
      exact hextra

theorem Tiles.le {headers : List CentralHeader} {stop : Nat} (ht : Tiles bytes position headers stop) :
    position ≤ stop := by
  induction headers generalizing position with
  | nil => exact le_of_eq ht
  | cons h rest ih =>
    have hrest := ih ht.2
    omega

/-- The entries `scanEntries` accepts. -/
theorem scanEntries_eq_ok (hend : directoryEnd < 2 ^ 64) (hoffset : directoryOffset < 2 ^ 64)
    {count stop : Nat} (hstop : stop ≤ directoryEnd) :
    scanEntries bytes limits directoryOffset directoryEnd count names position = .ok stop ↔
      ∃ headers, headers.length = count ∧ Tiles bytes position headers stop ∧
        (headers.map CentralHeader.name).Nodup ∧ (∀ h ∈ headers, h.name ∉ names) ∧
        ∀ h ∈ headers, EntryAccepted bytes limits directoryOffset h := by
  induction count generalizing names position with
  | zero =>
    constructor
    · intro hscan
      cases hscan
      exact ⟨[], rfl, rfl, List.nodup_nil, by simp, by simp⟩
    · rintro ⟨headers, hlength, ht, -⟩
      rw [List.length_eq_zero_iff.mp hlength] at ht
      exact congrArg Except.ok ht
  | succ count ih =>
    simp only [scanEntries, bind_eq_ok]
    constructor
    · rintro ⟨⟨h, next⟩, hcentral, u, hlocal, hrest⟩
      obtain ⟨hc, hne, hbound, hfresh, rfl, -⟩ := (readCentral_eq_ok hend).mp hcentral
      obtain ⟨hclear, hmethod, hl⟩ := (checkLocal_eq_ok hoffset).mp hlocal
      obtain ⟨headers, rfl, ht, hnodup, hnew, haccepted⟩ := ih.mp hrest
      refine ⟨h :: headers, rfl, ⟨hc, ht⟩, ?_, ?_, ?_⟩
      · rw [List.map_cons, List.nodup_cons]
        refine ⟨fun hm => ?_, hnodup⟩
        obtain ⟨other, hother, hname⟩ := List.mem_map.mp hm
        exact hnew other hother (by simp [hname])
      · intro other hother
        rcases List.mem_cons.mp hother with rfl | hother
        · exact hfresh
        · exact fun hm => hnew other hother (List.mem_cons_of_mem _ hm)
      · intro other hother
        rcases List.mem_cons.mp hother with rfl | hother
        · exact ⟨hne, hbound, hclear, hmethod, hl⟩
        · exact haccepted other hother
    · rintro ⟨headers, hlength, ht, hnodup, hnew, haccepted⟩
      cases headers with
      | nil => cases hlength
      | cons h rest =>
        obtain ⟨hc, ht⟩ := ht
        obtain ⟨hfirst, hnodup⟩ := List.nodup_cons.mp hnodup
        have he := haccepted h (by simp)
        have hle := ht.le
        refine ⟨(h, position + h.size), (readCentral_eq_ok hend).mpr ⟨hc, he.nonempty, he.bounded,
          hnew h (by simp), rfl, by omega⟩, (), (checkLocal_eq_ok hoffset).mpr ⟨he.readable, he.method,
          he.agrees⟩, ih.mpr ⟨rest, by simpa using hlength, ht, hnodup, ?_, ?_⟩⟩
        · intro other hother hm
          rcases List.mem_cons.mp hm with hname | hm
          · exact hfirst (List.mem_map.mpr ⟨other, hother, hname⟩)
          · exact hnew other (by simp [hother]) hm
        · exact fun other hother => haccepted other (by simp [hother])

end Entries

/-! ## The end record found -/

/-- The search from the end finds the greatest position. -/
theorem find?_reverse_range {p : Nat → Bool} {n k : Nat} :
    (List.range n).reverse.find? p = some k ↔
      k < n ∧ p k = true ∧ ∀ j, j < n → p j = true → j ≤ k := by
  induction n with
  | zero => simp
  | succ n ih =>
    rw [List.range_succ, List.reverse_append, List.reverse_singleton, List.singleton_append,
      List.find?_cons]
    cases hp : p n with
    | true =>
      simp only [Option.some.injEq]
      constructor
      · rintro rfl
        exact ⟨by omega, hp, fun j hj _ => by omega⟩
      · rintro ⟨hlt, -, hgreatest⟩
        have hle := hgreatest n (by omega) hp
        omega
    | false =>
      simp only [ih]
      constructor
      · rintro ⟨hlt, hk, hgreatest⟩
        refine ⟨by omega, hk, fun j hj hpj => ?_⟩
        have hne : j ≠ n := by
          rintro rfl
          rw [hp] at hpj
          cases hpj
        exact hgreatest j (by omega) hpj
      · rintro ⟨hlt, hk, hgreatest⟩
        have hne : k ≠ n := by
          rintro rfl
          rw [hp] at hk
          cases hk
        exact ⟨by omega, hk, fun j hj hpj => hgreatest j (by omega) hpj⟩

section Records

variable {bytes tail : List UInt8} {start position : Nat}

/-- What the end of a file holds, the file holds at its offset. -/
theorem slice_tail (htail : slice bytes start (bytes.length - start) = some tail) {n : Nat} :
    slice tail position n = slice bytes (start + position) n := by
  have hlength := slice_length htail
  have hle := (slice_eq_some.mp htail).1
  by_cases hin : position + n ≤ tail.length
  · exact slice_slice htail (by omega)
  · unfold slice
    rw [if_neg hin, if_neg (by omega)]

theorem endsAt_iff (htail : slice bytes start (bytes.length - start) = some tail)
    (hwindow : bytes.length ≤ start + (22 + u16Max)) :
    endsAt tail position = true ↔ EndRecord bytes (start + position) := by
  have hlength := slice_length htail
  have hle := (slice_eq_some.mp htail).1
  have hfield : u16At tail (position + 20) = u16At bytes (start + position + 20) := by
    rw [u16At, u16At, slice_tail htail, Nat.add_assoc]
  unfold endsAt EndRecord
  rw [slice_tail htail, hfield]
  simp only [Bool.and_eq_true, decide_eq_true_eq, Option.any_eq_true_iff_get]
  constructor
  · rintro ⟨hsignature, hsome, hreach⟩
    refine ⟨by omega, hsignature, _, (Option.some_get hsome).symm, ?_⟩
    omega
  · rintro ⟨-, hsignature, comment, hcomment, hreach⟩
    refine ⟨hsignature, by simp [hcomment], ?_⟩
    simp only [hcomment, Option.get_some]
    omega

/-- The search finds the last end record of the file. -/
theorem eocdPosition_eq_some (htail : slice bytes start (bytes.length - start) = some tail)
    (hwindow : bytes.length ≤ start + (22 + u16Max))
    (hstart : start = bytes.length - (22 + u16Max)) :
    eocdPosition tail = some position ↔
      EndRecord bytes (start + position) ∧ ∀ other, EndRecord bytes other → other ≤ start + position := by
  have hlength := slice_length htail
  have hle := (slice_eq_some.mp htail).1
  -- an end record leaves room for its fields, and stands in the part that is searched
  have hroom : ∀ other, EndRecord bytes other → start ≤ other ∧ other - start < tail.length - 3 := by
    rintro other ⟨hlast, hsignature, comment, hcomment, hreach⟩
    have hbound := (u16At_bound hcomment).2
    simp only [u16Max] at hlast hstart
    omega
  rw [eocdPosition, find?_reverse_range]
  constructor
  · rintro ⟨hlt, hp, hgreatest⟩
    refine ⟨(endsAt_iff htail hwindow).mp hp, fun other hother => ?_⟩
    obtain ⟨hfrom, hin⟩ := hroom other hother
    have hends : endsAt tail (other - start) = true := by
      rw [endsAt_iff htail hwindow, Nat.add_sub_cancel' hfrom]
      exact hother
    have hle := hgreatest (other - start) hin hends
    omega
  · rintro ⟨hrecord, hgreatest⟩
    obtain ⟨-, hin⟩ := hroom _ hrecord
    refine ⟨by omega, (endsAt_iff htail hwindow).mpr hrecord, fun j hj hp => ?_⟩
    have hle := hgreatest _ ((endsAt_iff htail hwindow).mp hp)
    omega

/-- What the end record says, where the preflight accepts it. -/
structure DirectoryAt (bytes : List UInt8) (maximum position : Nat) (d : EndOfCentralDirectory) :
    Prop where
  record : EndRecord bytes position
  greatest : ∀ other, EndRecord bytes other → other ≤ position
  disk : u16At bytes (position + 4) = some 0
  directoryDisk : u16At bytes (position + 6) = some 0
  diskEntries : u16At bytes (position + 8) = some d.entryCount
  totalEntries : u16At bytes (position + 10) = some d.entryCount
  small : d.entryCount < u16Max
  limited : d.entryCount ≤ maximum
  size : u32At bytes (position + 12) = some d.directorySize
  offset : u32At bytes (position + 16) = some d.directoryOffset
  size_small : d.directorySize ≠ zip64Offset
  offset_small : d.directoryOffset ≠ zip64Offset
  adjacent : d.directoryOffset + d.directorySize = position

theorem endOfCentralDirectory_eq_ok {file : FileBytes} {maximum : Nat} {d : EndOfCentralDirectory} :
    endOfCentralDirectory file maximum = .ok d ↔ ∃ p, DirectoryAt file.bytes maximum p d := by
  have haddressable := file.addressable
  simp only [endOfCentralDirectory, bind_eq_ok, require_eq_ok, fieldU16_eq_ok, fieldU32_eq_ok,
    readExact_eq_ok, checkedAdd_eq_ok, orElse_eq_ok, pure, Except.pure, Except.ok.injEq]
  generalize hs : file.bytes.length - min file.bytes.length (22 + u16Max) = start
  have hwindow : file.bytes.length ≤ start + (22 + u16Max) := by omega
  have hstart : start = file.bytes.length - (22 + u16Max) := by omega
  have hcount : min file.bytes.length (22 + u16Max) = file.bytes.length - start := by omega
  rw [hcount]
  constructor
  · rintro ⟨-, hlong, tail, htail, q, hq, disk, hdisk, directoryDisk, hdirectoryDisk, diskEntries,
      hdiskEntries, totalEntries, htotal, -, hzero, -, hsmall, -, hlimit, size, hsize, offset, hoffset,
      -, hmarkers, absolute, ⟨-, rfl⟩, finish, ⟨-, rfl⟩, -, hadjacent, rfl⟩
    obtain ⟨hrecord, hgreatest⟩ := (eocdPosition_eq_some htail hwindow hstart).mp hq
    have hfield : ∀ k, u16At tail (q + k) = u16At file.bytes (start + q + k) := by
      intro k
      rw [u16At, u16At, slice_tail htail, Nat.add_assoc]
    have hfield32 : ∀ k, u32At tail (q + k) = u32At file.bytes (start + q + k) := by
      intro k
      rw [u32At, u32At, slice_tail htail, Nat.add_assoc]
    rw [hfield] at hdisk hdirectoryDisk hdiskEntries htotal
    rw [hfield32] at hsize hoffset
    simp only [Bool.and_eq_true, decide_eq_true_eq] at hzero hsmall hlimit hmarkers hadjacent
    obtain ⟨⟨rfl, rfl⟩, rfl⟩ := hzero
    have hbound := (u16At_bound htotal).2
    refine ⟨start + q, ⟨hrecord, hgreatest, hdisk, hdirectoryDisk, hdiskEntries, htotal, ?_, hlimit,
      hsize, hoffset, hmarkers.1, hmarkers.2, hadjacent⟩⟩
    simp only [u16Max] at hsmall ⊢
    omega
  · rintro ⟨p, hd⟩
    obtain ⟨hlast, hsignature, comment, hcomment, hreach⟩ := hd.record
    have hcommentBound := (u16At_bound hcomment).2
    have hfrom : start ≤ p := by
      simp only [u16Max] at hstart
      omega
    obtain ⟨tail, htail⟩ : ∃ tail, slice file.bytes start (file.bytes.length - start) = some tail :=
      ⟨_, slice_eq_some.mpr ⟨by omega, rfl⟩⟩
    obtain ⟨q, rfl⟩ := Nat.exists_eq_add_of_le hfrom
    have hfield : ∀ k, u16At tail (q + k) = u16At file.bytes (start + q + k) := by
      intro k
      rw [u16At, u16At, slice_tail htail, Nat.add_assoc]
    have hfield32 : ∀ k, u32At tail (q + k) = u32At file.bytes (start + q + k) := by
      intro k
      rw [u32At, u32At, slice_tail htail, Nat.add_assoc]
    have hoffset := (u32At_bound hd.offset).2
    have hsize := (u32At_bound hd.size).2
    have hcounted : d.entryCount ≠ u16Max := ne_of_lt hd.small
    refine ⟨(), by simp only [decide_eq_true_eq]; omega, tail, htail, q,
      (eocdPosition_eq_some htail hwindow hstart).mpr ⟨hd.record, hd.greatest⟩, 0,
      (hfield 4).trans hd.disk, 0, (hfield 6).trans hd.directoryDisk, d.entryCount,
      (hfield 8).trans hd.diskEntries, d.entryCount, (hfield 10).trans hd.totalEntries, (), by simp, (),
      by simpa using hcounted, (), by simpa using hd.limited, d.directorySize, (hfield32 12).trans hd.size,
      d.directoryOffset, (hfield32 16).trans hd.offset, (), ?_, start + q, ⟨by omega, rfl⟩,
      d.directoryOffset + d.directorySize, ⟨by omega, rfl⟩, (), by simpa using hd.adjacent, rfl⟩
    simp [hd.size_small, hd.offset_small]

end Records

/-- The preflight accepts what `Preflighted` describes. -/
theorem preflightHeaders_eq_ok {file : FileBytes} {limits : ArchiveLimits} {n : Nat} :
    preflightHeaders file limits = .ok n ↔ Preflighted file.bytes limits n := by
  simp only [preflightHeaders, bind_eq_ok, require_eq_ok, checkedAdd_eq_ok, pure, Except.pure,
    Except.ok.injEq, endOfCentralDirectory_eq_ok]
  constructor
  · rintro ⟨d, ⟨p, hd⟩, directoryEnd, ⟨hfits, rfl⟩, observed, hscan, -, hobserved, rfl⟩
    simp only [decide_eq_true_eq] at hobserved
    subst hobserved
    have hoffset := (u32At_bound hd.offset).2
    obtain ⟨headers, hlength, ht, hnodup, -, haccepted⟩ :=
      (scanEntries_eq_ok hfits (by omega) le_rfl).mp hscan
    exact ⟨p, d.directoryOffset, d.directorySize, headers, hd.record, hd.greatest, hd.disk,
      hd.directoryDisk, hd.diskEntries, hd.totalEntries, hd.small, hd.limited, hd.size, hd.offset,
      hd.size_small, hd.offset_small, hd.adjacent, hlength, hd.adjacent ▸ ht, hnodup, haccepted⟩
  · rintro ⟨p, offset, size, headers, h⟩
    have hoffset := (u32At_bound h.offset).2
    have hsize := (u32At_bound h.size).2
    have hfits : offset + size < 2 ^ 64 := by omega
    refine ⟨⟨n, offset, size⟩, ⟨p, ⟨h.record, h.greatest, h.disk, h.directoryDisk, h.diskEntries,
      h.totalEntries, h.small, h.limited, h.size, h.offset, h.size_small, h.offset_small, h.adjacent⟩⟩,
      offset + size, ⟨hfits, rfl⟩, offset + size, ?_, (), by simp, rfl⟩
    refine (scanEntries_eq_ok hfits (show offset < 2 ^ 64 by omega) le_rfl).mpr ?_
    exact ⟨headers, h.length, h.adjacent ▸ h.tiles, h.distinct, by simp, h.entries⟩

/-! ## Fields in range, sums in their types -/

/-- The refusals that stand for a field outside its bytes or a sum outside its type. -/
def guardRules : List String :=
  ["eocd_read", "eocd_disk", "eocd_count", "eocd_directory_size", "eocd_directory_offset",
    "eocd_position", "central_directory_overflow", "central_flags", "central_method",
    "central_name_length", "central_extra_length", "central_comment_length", "local_header_offset",
    "central_variable_overflow", "central_variable_seek", "local_flags", "local_method",
    "local_name_length", "local_extra_length", "local_extra_overflow"]

/-- No guard of the computation fires. -/
def Unguarded {α : Type} (x : Except ArchiveError α) : Prop :=
  ∀ rule ∈ guardRules, x ≠ .error (malformed rule)

section Guards

variable {α β : Type} {bytes : List UInt8}

theorem Unguarded.ok (a : α) : Unguarded (.ok a) := by
  intro rule _ h
  cases h

theorem Unguarded.bind {x : Except ArchiveError α} {f : α → Except ArchiveError β}
    (hx : Unguarded x) (hf : ∀ a, x = .ok a → Unguarded (f a)) : Unguarded (x >>= f) := by
  intro rule hrule h
  cases x with
  | error e =>
    have he : e = malformed rule := Except.error.inj h
    exact hx rule hrule (congrArg Except.error he)
  | ok a => exact hf a rfl rule hrule h

/-- A refusal under another rule. -/
theorem Unguarded.orElse {value : Option α} {error : ArchiveError}
    (h : ∀ rule ∈ guardRules, error ≠ malformed rule) : Unguarded (orElse value error) := by
  intro rule hrule hx
  cases value with
  | some a => cases hx
  | none =>
    cases hx
    exact h rule hrule rfl

theorem Unguarded.require {condition : Bool} {error : ArchiveError}
    (h : ∀ rule ∈ guardRules, error ≠ malformed rule) : Unguarded (require condition error) := by
  intro rule hrule hx
  cases condition with
  | true => cases hx
  | false =>
    cases hx
    exact h rule hrule rfl

theorem Unguarded.fieldU16 {offset : Nat} {rule : String} (h : offset + 2 ≤ bytes.length) :
    Unguarded (fieldU16 bytes offset rule) := by
  obtain ⟨n, hn, -⟩ := u16At_some h
  rw [fieldU16_eq_ok.mpr hn]
  exact .ok n

theorem Unguarded.fieldU32 {offset : Nat} {rule : String} (h : offset + 4 ≤ bytes.length) :
    Unguarded (fieldU32 bytes offset rule) := by
  obtain ⟨n, hn, -⟩ := u32At_some h
  rw [fieldU32_eq_ok.mpr hn]
  exact .ok n

theorem Unguarded.checkedAdd {a b : Nat} {rule : String} (h : a + b < 2 ^ 64) :
    Unguarded (checkedAdd a b rule) := by
  rw [checkedAdd_eq_ok.mpr ⟨h, rfl⟩]
  exact .ok _

/-- The end record holds every field that is read of it. -/
theorem endOfCentralDirectory_unguarded (file : FileBytes) (maximum : Nat) :
    Unguarded (endOfCentralDirectory file maximum) := by
  have haddressable := file.addressable
  unfold endOfCentralDirectory
  refine .bind (.require (by decide)) fun _ hlong => ?_
  have hlong : 22 ≤ file.bytes.length := by simpa using require_eq_ok.mp hlong
  refine .bind ?_ fun tail htail => ?_
  · rw [readExact_eq_ok.mpr (slice_eq_some.mpr ⟨by omega, rfl⟩)]
    exact .ok _
  have htail := slice_length (readExact_eq_ok.mp htail)
  refine .bind (.orElse (by decide)) fun position hposition => ?_
  have hends := (find?_reverse_range.mp (orElse_eq_ok.mp hposition)).2.1
  -- an end record is where its comment length is
  have hroom : position + 22 ≤ tail.length := by
    simp only [endsAt, Bool.and_eq_true, Option.any_eq_true, decide_eq_true_eq] at hends
    obtain ⟨-, comment, -, hreach⟩ := hends
    rw [htail] at hreach ⊢
    omega
  refine .bind (.fieldU16 (by omega)) fun _ _ => ?_
  refine .bind (.fieldU16 (by omega)) fun _ _ => ?_
  refine .bind (.fieldU16 (by omega)) fun _ _ => ?_
  refine .bind (.fieldU16 (by omega)) fun _ _ => ?_
  refine .bind (.require (by decide)) fun _ _ => ?_
  refine .bind (.require (by decide)) fun _ _ => ?_
  refine .bind (.require (by decide)) fun _ _ => ?_
  refine .bind (.fieldU32 (by omega)) fun _ hsize => ?_
  refine .bind (.fieldU32 (by omega)) fun _ hoffset => ?_
  have hsize := (u32At_bound (fieldU32_eq_ok.mp hsize)).2
  have hoffset := (u32At_bound (fieldU32_eq_ok.mp hoffset)).2
  refine .bind (.require (by decide)) fun _ _ => ?_
  refine .bind (.checkedAdd (by omega)) fun _ _ => ?_
  refine .bind (.checkedAdd (by omega)) fun _ _ => ?_
  exact .bind (.require (by decide)) fun _ _ => .ok _

theorem readCentral_unguarded (limits : ArchiveLimits) (directoryEnd : Nat)
    (names : List (List UInt8)) {position : Nat} (hposition : position < 2 ^ 63) :
    Unguarded (readCentral bytes limits directoryEnd names position) := by
  unfold readCentral
  refine .bind (.orElse (by decide)) fun central hcentral => ?_
  have hcentral := slice_length (readExact_eq_ok.mp hcentral)
  refine .bind (.require (by decide)) fun _ _ => ?_
  refine .bind (.fieldU16 (by omega)) fun _ _ => ?_
  refine .bind (.fieldU16 (by omega)) fun _ _ => ?_
  refine .bind (.fieldU16 (by omega)) fun _ hname => ?_
  refine .bind (.fieldU16 (by omega)) fun _ hextra => ?_
  refine .bind (.fieldU16 (by omega)) fun _ hcomment => ?_
  have hname := (u16At_bound (fieldU16_eq_ok.mp hname)).2
  have hextra := (u16At_bound (fieldU16_eq_ok.mp hextra)).2
  have hcomment := (u16At_bound (fieldU16_eq_ok.mp hcomment)).2
  refine .bind (.require (by decide)) fun _ _ => ?_
  refine .bind (.fieldU32 (by omega)) fun _ _ => ?_
  refine .bind (.orElse (by decide)) fun _ _ => ?_
  refine .bind (.require (by decide)) fun _ _ => ?_
  refine .bind (.checkedAdd (by omega)) fun _ hskip => ?_
  have hskip := (checkedAdd_eq_ok.mp hskip).2
  refine .bind (.checkedAdd (by omega)) fun _ _ => ?_
  exact .bind (.require (by decide)) fun _ _ => .ok _

theorem checkLocal_unguarded (directoryOffset : Nat) {h : CentralHeader}
    (hoffset : h.localOffset < 2 ^ 32) : Unguarded (checkLocal bytes directoryOffset h) := by
  unfold checkLocal
  refine .bind (.orElse (by decide)) fun header hheader => ?_
  have hheader := slice_length (readExact_eq_ok.mp hheader)
  refine .bind (.require (by decide)) fun _ _ => ?_
  refine .bind (.fieldU16 (by omega)) fun _ _ => ?_
  refine .bind (.fieldU16 (by omega)) fun _ _ => ?_
  refine .bind (.require (by decide)) fun _ _ => ?_
  refine .bind (.require (by decide)) fun _ _ => ?_
  refine .bind (.require (by decide)) fun _ _ => ?_
  refine .bind (.require (by decide)) fun _ _ => ?_
  refine .bind (.fieldU16 (by omega)) fun _ hname => ?_
  refine .bind (.fieldU16 (by omega)) fun _ hextra => ?_
  have hname := (u16At_bound (fieldU16_eq_ok.mp hname)).2
  have hextra := (u16At_bound (fieldU16_eq_ok.mp hextra)).2
  refine .bind (.require (by decide)) fun _ _ => ?_
  refine .bind (.orElse (by decide)) fun _ _ => ?_
  refine .bind (.require (by decide)) fun _ _ => ?_
  refine .bind (.checkedAdd (by omega)) fun _ _ => ?_
  exact .require (by decide)

/-- The position stays inside the directory, so the loop never leaves its types. -/
theorem scanEntries_unguarded (limits : ArchiveLimits) {directoryOffset directoryEnd : Nat}
    (hend : directoryEnd < 2 ^ 63) (count : Nat) (names : List (List UInt8)) {position : Nat}
    (hposition : position < 2 ^ 63) :
    Unguarded (scanEntries bytes limits directoryOffset directoryEnd count names position) := by
  induction count generalizing names position with
  | zero => exact .ok position
  | succ count ih =>
    refine .bind (readCentral_unguarded limits directoryEnd names hposition) fun entry hcentral => ?_
    obtain ⟨h, next⟩ := entry
    obtain ⟨hc, -, -, -, -, hnext⟩ := (readCentral_eq_ok (by omega)).mp hcentral
    refine .bind (checkLocal_unguarded directoryOffset (u32At_bound hc.localOffset).2) fun _ _ => ?_
    exact ih _ (show next < 2 ^ 63 by omega)

theorem preflightHeaders_unguarded (file : FileBytes) (limits : ArchiveLimits) :
    Unguarded (preflightHeaders file limits) := by
  refine .bind (endOfCentralDirectory_unguarded file _) fun d hd => ?_
  obtain ⟨p, hd⟩ := endOfCentralDirectory_eq_ok.mp hd
  have hsize := (u32At_bound hd.size).2
  have hoffset := (u32At_bound hd.offset).2
  refine .bind (.checkedAdd (by omega)) fun directoryEnd hend => ?_
  have hend := (checkedAdd_eq_ok.mp hend).2
  refine .bind (scanEntries_unguarded limits (by omega) _ _ (by omega)) fun _ _ => ?_
  exact .bind (.require (by decide)) fun _ _ => .ok _

end Guards

/-- **The preflight accepts exactly the files `Preflighted` describes**, and on no file does a
field lie outside its bytes or a sum outside its type. -/
theorem preflight_accepts (file : FileBytes) (limits : ArchiveLimits) :
    (∀ n, preflightHeaders file limits = .ok n ↔ Preflighted file.bytes limits n) ∧
      ∀ rule ∈ guardRules, preflightHeaders file limits ≠ .error (malformed rule) :=
  ⟨fun _ => preflightHeaders_eq_ok, preflightHeaders_unguarded file limits⟩

/-- An archive of one empty stored entry `a`. -/
def oneEntryArchive : FileBytes :=
  ⟨localSignature ++ List.replicate 22 0 ++ [1, 0, 0, 0, 97] ++
      (centralSignature ++ List.replicate 24 0 ++ [1, 0] ++ List.replicate 16 0 ++ [97]) ++
      (eocdSignature ++ [0, 0, 0, 0, 1, 0, 1, 0, 47, 0, 0, 0, 31, 0, 0, 0, 0, 0]), by decide +kernel⟩

example : preflightHeaders oneEntryArchive {} = .ok 1 := by decide +kernel

end InstagramArchive.DataExport

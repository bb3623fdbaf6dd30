import InstagramArchive.System
import Mathlib.Data.Nat.Pairing

/-!
# A reference instance of the external functions

The archive calls functions it does not define. `reference` is one computable choice of
them that keeps what the archive relies on: distinct identity materials get distinct
identities and distinct preimages distinct digests. Payload bodies are read as the one
JSON object `\x7b"title":"..."\x7d` with a plain title, or the empty object.
-/

namespace InstagramArchive

open Relational Permalink

/-! ## Prefix-free encodings -/

/-- An encoding that can be read off the front of any longer list. -/
def PrefixFree {α : Type} (encode : α → List Char) : Prop :=
  ∀ a b rest rest', encode a ++ rest = encode b ++ rest' → a = b ∧ rest = rest'

def encodeChars : List Char → List Char
  | [] => ['0']
  | c :: rest => '1' :: c :: encodeChars rest

def encodeText (s : String) : List Char := encodeChars s.toList

def encodeOption : Option String → List Char
  | none => ['0']
  | some s => '1' :: encodeText s

def encodeNat : Nat → List Char
  | 0 => ['0']
  | n + 1 => '1' :: encodeNat n

def encodeInt : Int → List Char
  | .ofNat n => '0' :: encodeNat n
  | .negSucc n => '1' :: encodeNat n

def encodeBlob (b : BlobRef) : List Char :=
  encodeText b.digest ++ (encodeText b.mediaType ++ encodeNat b.lengthBytes)

def encodeBlobs : List BlobRef → List Char
  | [] => ['0']
  | b :: rest => '1' :: (encodeBlob b ++ encodeBlobs rest)

def encodeOwnMedia (c : OwnMediaContent) : List Char :=
  encodeText c.providerMediaId ++ (encodeText c.permalink ++ (encodeOption c.caption ++
    encodeInt c.publishedAt))

def encodePreimage (p : Preimage) : List Char :=
  encodeText p.domain ++ (encodeOption p.permalink ++ (encodeText p.externalPostId ++
    (encodeOption p.caption ++ (encodeText p.upstream ++ encodeBlobs p.media))))

theorem encodeChars_prefixFree : PrefixFree encodeChars := by
  intro a
  induction a with
  | nil =>
    intro b rest rest' h
    cases b with
    | nil => exact ⟨rfl, by simpa [encodeChars] using h⟩
    | cons c b => simp [encodeChars] at h
  | cons c a ih =>
    intro b rest rest' h
    cases b with
    | nil => simp [encodeChars] at h
    | cons d b =>
      simp only [encodeChars, List.cons_append, List.cons.injEq, true_and] at h
      obtain ⟨hab, hrest⟩ := ih b rest rest' h.2
      exact ⟨by rw [h.1, hab], hrest⟩

theorem encodeText_prefixFree : PrefixFree encodeText := by
  intro a b rest rest' h
  obtain ⟨hab, hrest⟩ := encodeChars_prefixFree _ _ _ _ h
  exact ⟨String.toList_injective hab, hrest⟩

theorem encodeOption_prefixFree : PrefixFree encodeOption := by
  intro a b rest rest' h
  cases a with
  | none =>
    cases b with
    | none => exact ⟨rfl, by simpa [encodeOption] using h⟩
    | some t => simp [encodeOption] at h
  | some s =>
    cases b with
    | none => simp [encodeOption] at h
    | some t =>
      simp only [encodeOption, List.cons_append, List.cons.injEq, true_and] at h
      obtain ⟨rfl, hrest⟩ := encodeText_prefixFree s t rest rest' h
      exact ⟨rfl, hrest⟩

theorem encodeNat_prefixFree : PrefixFree encodeNat := by
  intro a
  induction a with
  | zero =>
    intro b rest rest' h
    cases b with
    | zero => exact ⟨rfl, by simpa [encodeNat] using h⟩
    | succ b => simp [encodeNat] at h
  | succ a ih =>
    intro b rest rest' h
    cases b with
    | zero => simp [encodeNat] at h
    | succ b =>
      simp only [encodeNat, List.cons_append, List.cons.injEq, true_and] at h
      obtain ⟨rfl, hrest⟩ := ih b rest rest' h
      exact ⟨rfl, hrest⟩

theorem encodeBlob_prefixFree : PrefixFree encodeBlob := by
  intro a b rest rest' h
  unfold encodeBlob at h
  simp only [List.append_assoc] at h
  obtain ⟨h1, h⟩ := encodeText_prefixFree _ _ _ _ h
  obtain ⟨h2, h⟩ := encodeText_prefixFree _ _ _ _ h
  obtain ⟨h3, h⟩ := encodeNat_prefixFree _ _ _ _ h
  cases a
  cases b
  simp_all

theorem encodeBlobs_prefixFree : PrefixFree encodeBlobs := by
  intro a
  induction a with
  | nil =>
    intro b rest rest' h
    cases b with
    | nil => exact ⟨rfl, by simpa [encodeBlobs] using h⟩
    | cons c b => simp [encodeBlobs] at h
  | cons c a ih =>
    intro b rest rest' h
    cases b with
    | nil => simp [encodeBlobs] at h
    | cons d b =>
      simp only [encodeBlobs, List.cons_append, List.append_assoc, List.cons.injEq, true_and] at h
      obtain ⟨hcd, htail⟩ := encodeBlob_prefixFree _ _ _ _ h
      obtain ⟨hab, hrest⟩ := ih b rest rest' htail
      exact ⟨by rw [hcd, hab], hrest⟩

theorem encodePreimage_injective : Function.Injective encodePreimage := by
  intro a b h
  unfold encodePreimage at h
  obtain ⟨h1, h⟩ := encodeText_prefixFree _ _ _ _ h
  obtain ⟨h2, h⟩ := encodeOption_prefixFree _ _ _ _ h
  obtain ⟨h3, h⟩ := encodeText_prefixFree _ _ _ _ h
  obtain ⟨h4, h⟩ := encodeOption_prefixFree _ _ _ _ h
  obtain ⟨h5, h⟩ := encodeText_prefixFree _ _ _ _ h
  have h6 := (encodeBlobs_prefixFree a.media b.media [] [] (by simpa using h)).1
  cases a
  cases b
  simp_all

/-! ## Identities -/

/-- Characters as digits of a number, least significant first. -/
def charsCode : List Char → Nat
  | [] => 0
  | c :: rest => (c.toNat + 1) + 0x110001 * charsCode rest

theorem charsCode_injective : Function.Injective charsCode := by
  have hlt : ∀ c : Char, c.toNat < 0x110000 := by
    intro c
    rcases c.valid with h | h
    · exact Nat.lt_trans h (by decide)
    · exact h.2
  intro a
  induction a with
  | nil =>
    intro b h
    cases b with
    | nil => rfl
    | cons d b =>
      simp only [charsCode] at h
      omega
  | cons c a ih =>
    intro b h
    cases b with
    | nil =>
      simp only [charsCode] at h
      omega
    | cons d b =>
      simp only [charsCode] at h
      have hc := hlt c
      have hd := hlt d
      have hcd : c.toNat = d.toNat := by omega
      have hab : charsCode a = charsCode b := by omega
      rw [ih hab, Char.toNat_inj.mp hcd]

/-- The family, the number and the text of an identity material. -/
def IdentityMaterial.parts : IdentityMaterial → Nat × Nat × String
  | .captured owner permalink => (0, owner, permalink)
  | .official owner providerMediaId => (1, owner, providerMediaId)
  | .named parent name => (2, parent, name)

theorem IdentityMaterial.parts_injective : Function.Injective IdentityMaterial.parts := by
  intro a b h
  cases a <;> cases b <;> simp_all [IdentityMaterial.parts]

def identityCode (material : IdentityMaterial) : Nat :=
  3 * Nat.pair material.parts.2.1 (charsCode material.parts.2.2.toList) + material.parts.1

theorem identityCode_injective : Function.Injective identityCode := by
  intro a b h
  have hlt : ∀ m : IdentityMaterial, m.parts.1 < 3 := by
    intro m
    cases m <;> simp [IdentityMaterial.parts]
  have ha := hlt a
  have hb := hlt b
  unfold identityCode at h
  have hfamily : a.parts.1 = b.parts.1 := by omega
  have hpair : Nat.pair a.parts.2.1 (charsCode a.parts.2.2.toList) =
      Nat.pair b.parts.2.1 (charsCode b.parts.2.2.toList) := by omega
  obtain ⟨hnumber, htext⟩ := Nat.pair_eq_pair.mp hpair
  apply IdentityMaterial.parts_injective
  exact Prod.ext hfamily
    (Prod.ext hnumber (String.toList_injective (charsCode_injective htext)))

/-! ## The instance -/

/-- The title of a body `\x7b"title":"..."\x7d` whose title is plain text. -/
def plainTitle (body : List Char) : Option String :=
  let opening := "\x7b\"title\":\"".toList
  let closing := "\"\x7d".toList
  let title := (body.drop opening.length).take (body.length - opening.length - closing.length)
  if body = opening ++ title ++ closing ∧ title.all fun c => c.isAlphanum || c == ' ' then
    some (String.ofList title)
  else none

def readGrammar (body : String) : Option (Option String) :=
  if body.toList = "\x7b\x7d".toList then some none else (plainTitle body.toList).map some

def reference : Externals where
  newV5 := identityCode
  digestPreimage p := ⟨String.ofList (encodePreimage p)⟩
  digestOwnMedia c := some ⟨String.ofList (encodeOwnMedia c)⟩
  sha256 body := body.toList.map fun c => c.toNat.toUInt8
  parseGrammar := readGrammar
  parsePostText := some
  refusal _ := none
  accountJson id username accountType := String.intercalate "," [id, username, accountType]
  permissionsJson rows := String.intercalate "," (rows.map fun r => r.1 ++ ":" ++ r.2)
  blobRefJson b := "\x7b\"digest\":\"" ++ b.digest ++ "\",\"media_type\":\"" ++ b.mediaType ++
    "\",\"length_bytes\":" ++ toString b.lengthBytes ++ "\x7d"

theorem reference_collisionFree : reference.CollisionFree := identityCode_injective

theorem reference_digest_injective : Function.Injective reference.digestPreimage := by
  intro a b h
  apply encodePreimage_injective
  have hhex := congrArg (fun d => d.hex.toList) h
  simpa [reference] using hhex

/-- An environment without failures that counts identifiers up from `first`. -/
def quietEnv (now : Instant) (first : Uuid) : Env where
  now := now
  wall _ := now
  uuid k := first + k
  fault _ := false

/-! ## Sample inputs -/

/-- A browser command of `owner` for `url`, as Platform publishes it. -/
def browserDelivery (owner commandId operationId : Uuid) (url : String) : CommandDelivery :=
  { subject := captureSubject
    envelope := some
      { commandId
        tenantId := some owner
        payload := some
          { provider := .instagram
            acquisition := .browserExtension
            savedAuthority := .explicitUserCapture
            operationId
            originalPermalink := url
            capturedAt := some 5
            idempotencyKey := ⟨"key"⟩ } } }

/-- A readable answer of the public surface. -/
def titledPayload (title : String) : SurfaceOutcome :=
  .payload ("\x7b\"title\":\"" ++ title ++ "\"\x7d")

end InstagramArchive

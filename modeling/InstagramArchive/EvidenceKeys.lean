import InstagramArchive.DataExportParser
import Mathlib.Data.Bool.AllAny

/-!
# Evidence keys

The evidence keys of an accepted archive are pairwise distinct exactly when no two entries of
its saved array state the same: the prefixes keep the kinds of evidence apart, ordinals and
archive paths the unknown values, and only normalized records have nothing but their content.
-/

namespace InstagramArchive.DataExport

open Permalink

/-! ## Texts -/

theorem natText_injective : Function.Injective (fun n : Nat => toString n) := by
  intro m n h
  have hd : Nat.toDigits 10 m = Nat.toDigits 10 n := by
    rw [← Nat.toList_repr, ← Nat.toList_repr]
    exact congrArg String.toList h
  rw [← Nat.ofDigitChars_ten_toDigits (n := m), hd, Nat.ofDigitChars_ten_toDigits]

theorem natText_digit {n : Nat} {c : Char} (h : c ∈ (toString n).toList) : c.isDigit = true := by
  change c ∈ n.repr.toList at h
  rw [Nat.toList_repr] at h
  exact Nat.isDigit_of_mem_toDigits (by omega) (by omega) h

theorem intText_injective : Function.Injective (fun n : Int => toString n) := by
  intro a b h
  have hminus : ∀ n : Nat, ∀ s : String, toString n ≠ "-" ++ s := by
    intro n s hn
    have hmem : '-' ∈ (toString n).toList := by
      rw [hn]
      simp
    exact absurd (natText_digit hmem) (by decide)
  change Int.repr a = Int.repr b at h
  rw [Int.repr_eq_if, Int.repr_eq_if] at h
  split at h <;> split at h
  · have hnat : a.toNat = b.toNat := natText_injective h
    omega
  · exact (hminus _ _ h).elim
  · exact (hminus _ _ h.symm).elim
  · have hchars := congrArg String.toList h
    rw [String.toList_append, String.toList_append, List.append_cancel_left_eq] at hchars
    have hnat : (-a).toNat = (-b).toNat := natText_injective (String.toList_injective hchars)
    omega

/-- No character of the text is a control character. -/
def Plain (s : String) : Prop := ∀ c ∈ s.toList, isControl c = false

theorem jsonChar_plain {c : Char} (h : isControl c = false) :
    jsonChar c = if c = '"' ∨ c = '\\' then ['\\', c] else [c] := by
  have hlow : ¬ c.toNat ≤ 0x1f := by
    intro hc
    simp [isControl, hc] at h
  have hspecial : ∀ d : Char, d.toNat ≤ 0x1f → c ≠ d := fun d hd hcd => hlow (hcd ▸ hd)
  have hnewline := hspecial '\n' (by decide)
  have hreturn := hspecial '\r' (by decide)
  have htab := hspecial '\t' (by decide)
  have hbackspace : ¬ c.toNat = 8 := by omega
  have hformfeed : ¬ c.toNat = 12 := by omega
  have hsmall : ¬ c.toNat < 32 := by omega
  unfold jsonChar
  by_cases hquote : c = '"'
  · simp [hquote]
  · by_cases hback : c = '\\'
    · simp [hback]
    · simp [hquote, hback, hnewline, hreturn, htab, hbackspace, hformfeed, hsmall]

/-- A quoted text ends where its closing quote stands. -/
theorem jsonBody_inj {a b : List Char} (ha : ∀ c ∈ a, isControl c = false)
    (hb : ∀ c ∈ b, isControl c = false) {rest rest' : List Char}
    (h : a.flatMap jsonChar ++ '"' :: rest = b.flatMap jsonChar ++ '"' :: rest') :
    a = b ∧ rest = rest' := by
  induction a generalizing b with
  | nil =>
    cases b with
    | nil => exact ⟨rfl, by simpa using h⟩
    | cons d b =>
      rw [List.flatMap_cons, jsonChar_plain (hb d List.mem_cons_self)] at h
      split at h
      · simp at h
      · rename_i hd
        simp only [List.flatMap_nil, List.nil_append, List.cons_append, List.cons.injEq] at h
        exact (hd (Or.inl h.1.symm)).elim
  | cons c a ih =>
    have hc := jsonChar_plain (ha c List.mem_cons_self)
    have ha' : ∀ c ∈ a, isControl c = false := fun x hx => ha x (List.mem_cons_of_mem c hx)
    cases b with
    | nil =>
      rw [List.flatMap_cons, hc] at h
      split at h
      · simp at h
      · rename_i hd
        simp only [List.flatMap_nil, List.nil_append, List.cons_append, List.cons.injEq] at h
        exact (hd (Or.inl h.1)).elim
    | cons d b =>
      have hd := jsonChar_plain (hb d List.mem_cons_self)
      have hb' : ∀ c ∈ b, isControl c = false := fun x hx => hb x (List.mem_cons_of_mem d hx)
      rw [List.flatMap_cons, List.flatMap_cons, hc, hd] at h
      split at h <;> split at h
      · simp only [List.cons_append, List.nil_append, List.cons.injEq, true_and] at h
        obtain ⟨rfl, hrest⟩ := ih ha' hb' h.2
        exact ⟨by rw [h.1], hrest⟩
      · rename_i hesc
        simp only [List.cons_append, List.nil_append, List.cons.injEq] at h
        exact (hesc (Or.inr h.1.symm)).elim
      · rename_i hesc _
        simp only [List.cons_append, List.nil_append, List.cons.injEq] at h
        exact (hesc (Or.inr h.1)).elim
      · simp only [List.cons_append, List.nil_append, List.cons.injEq] at h
        obtain ⟨rfl, hrest⟩ := ih ha' hb' h.2
        exact ⟨by rw [h.1], hrest⟩

theorem jsonString_inj {a b : String} (ha : Plain a) (hb : Plain b) {rest rest' : List Char}
    (h : (jsonString a).toList ++ rest = (jsonString b).toList ++ rest') :
    a = b ∧ rest = rest' := by
  simp only [jsonString, String.toList_append, String.toList_ofList, List.append_assoc] at h
  have hbody := jsonBody_inj ha hb (List.append_cancel_left h)
  exact ⟨String.toList_injective hbody.1, hbody.2⟩

theorem jsonOption_inj {a b : Option String} (ha : ∀ s ∈ a, Plain s) (hb : ∀ s ∈ b, Plain s)
    {rest rest' : List Char} (h : (jsonOption a).toList ++ rest = (jsonOption b).toList ++ rest') :
    a = b ∧ rest = rest' := by
  cases a with
  | none =>
    cases b with
    | none => exact ⟨rfl, List.append_cancel_left h⟩
    | some t => simp [jsonOption, jsonString] at h
  | some s =>
    cases b with
    | none => simp [jsonOption, jsonString] at h
    | some t =>
      obtain ⟨rfl, hrest⟩ := jsonString_inj (ha s rfl) (hb t rfl) h
      exact ⟨rfl, hrest⟩

structure SavedObservation.Plain (o : SavedObservation) : Prop where
  shortcode : DataExport.Plain o.shortcode
  canonicalUrl : DataExport.Plain o.canonicalUrl
  displayAuthor : ∀ s ∈ o.displayAuthor, DataExport.Plain s

/-- What follows the timestamp. -/
def semanticTail : String :=
  ",\"acquisition_method\":\"data_export\",\"saved_authority\":\"export_observation\"\x7d"

theorem semanticJson_chars (o : SavedObservation) : o.semanticJson.toList =
    "\x7b\"shortcode\":".toList ++ ((jsonString o.shortcode).toList ++
      (",\"canonical_url\":".toList ++ ((jsonString o.canonicalUrl).toList ++
        (",\"display_author\":".toList ++ ((jsonOption o.displayAuthor).toList ++
          (",\"observed_at_unix\":".toList ++ ((toString o.observedAtUnix).toList ++
            semanticTail.toList))))))) := by
  have hshortcode : jsonString "shortcode" = "\"shortcode\"" := by decide
  have hurl : jsonString "canonical_url" = "\"canonical_url\"" := by decide
  have hauthor : jsonString "display_author" = "\"display_author\"" := by decide
  have hobserved : jsonString "observed_at_unix" = "\"observed_at_unix\"" := by decide
  have hmethod : jsonString "acquisition_method" = "\"acquisition_method\"" := by decide
  have hauthority : jsonString "saved_authority" = "\"saved_authority\"" := by decide
  have hexport : jsonString "data_export" = "\"data_export\"" := by decide
  have hobservation : jsonString "export_observation" = "\"export_observation\"" := by
    decide
  simp only [SavedObservation.semanticJson, jsonObject, List.map_cons, List.map_nil, hshortcode,
    hurl, hauthor, hobserved, hmethod, hauthority, hexport, hobservation]
  simp [semanticTail]

theorem semanticJson_inj {o o' : SavedObservation} (ho : o.Plain) (ho' : o'.Plain)
    (h : o.semanticJson = o'.semanticJson) : o = o' := by
  have hchars := congrArg String.toList h
  rw [semanticJson_chars, semanticJson_chars] at hchars
  obtain ⟨h1, hchars⟩ := jsonString_inj ho.shortcode ho'.shortcode (List.append_cancel_left hchars)
  obtain ⟨h2, hchars⟩ :=
    jsonString_inj ho.canonicalUrl ho'.canonicalUrl (List.append_cancel_left hchars)
  obtain ⟨h3, hchars⟩ :=
    jsonOption_inj ho.displayAuthor ho'.displayAuthor (List.append_cancel_left hchars)
  have h4 : toString o.observedAtUnix = toString o'.observedAtUnix :=
    String.toList_injective (List.append_cancel_right (List.append_cancel_left hchars))
  have h5 := intText_injective h4
  cases o
  cases o'
  simp_all

/-! ## What an accepted entry states -/

theorem Plain.append {a b : String} (ha : Plain a) (hb : Plain b) : Plain (a ++ b) := by
  unfold Plain at *
  simp only [String.toList_append, List.mem_append]
  rintro c (hc | hc)
  · exact ha c hc
  · exact hb c hc

theorem plain_ofList {chars : List Char} (h : ∀ c ∈ chars, isControl c = false) :
    Plain (String.ofList chars) := by
  unfold Plain
  rw [String.toList_ofList]
  exact h

theorem canonicalUrl_plain {kind : PermalinkKind} {shortcode : String} (h : Plain shortcode) :
    Plain (canonicalUrl kind shortcode) := by
  have hhead : Plain ("https://www.instagram.com/" ++ kind.pathSegment ++ "/") := by
    unfold Plain
    cases kind <;> exact List.all_iff_forall_prop.mp (by decide)
  have htail : Plain "/" := by
    unfold Plain
    exact List.all_iff_forall_prop.mp (by decide)
  exact (hhead.append h).append htail

theorem canonicalize_plain {input : String} {p : CanonicalPermalink}
    (h : canonicalize input = .ok p) :
    Plain p.url ∧ Plain p.shortcode ∧ ':' ∉ p.shortcode.toList := by
  obtain ⟨kind, code, ⟨-, -, hcode⟩, rfl⟩ := canonicalize_ok h
  have hplain : Plain (String.ofList code) :=
    plain_ofList fun c hc => (shortcodeChar_plain (hcode c hc)).2.2.1
  have hcolon : ':' ∉ code := fun hc => absurd (hcode ':' hc) (by decide)
  exact And.intro (canonicalUrl_plain hplain)
    (And.intro hplain (String.toList_ofList.symm ▸ hcolon))

theorem boundedDisplayAuthor_plain {value s : String} (h : boundedDisplayAuthor value = some s) :
    Plain s := by
  unfold boundedDisplayAuthor at h
  simp only at h
  split at h
  · rename_i hbounded
    cases h
    simp only [Bool.and_eq_true, Bool.not_eq_true', List.any_eq_false] at hbounded
    intro c hc
    simpa using hbounded.2 c (by simpa using hc)
  · cases h

theorem readSaved_ok {value : Json} {o : SavedObservation} (h : readSaved value = .ok o) :
    o.Plain ∧ ':' ∉ o.shortcode.toList := by
  unfold readSaved at h
  split at h
  · cases h
  · split at h
    · cases h
    · rename_i canonical hcanonical
      split at h
      · cases h
      · cases h
        obtain ⟨hurl, hshortcode, hcolon⟩ := canonicalize_plain hcanonical
        exact ⟨⟨hshortcode, hurl, fun s hs => boundedDisplayAuthor_plain hs⟩, hcolon⟩

theorem mem_observations {saved : List Json} {o : SavedObservation} :
    o ∈ observations saved ↔ ∃ value ∈ saved, readSaved value = .ok o := by
  simp only [observations, List.mem_filterMap]
  refine exists_congr fun value => and_congr_right fun _ => ?_
  cases readSaved value <;> simp [Except.toOption]

/-! ## Keys -/

/-- What stands before the first colon. -/
def keyPrefix (key : String) : List Char := key.toList.takeWhile (· ≠ ':')

theorem keyPrefix_append {kind key : String} (h : ':' ∉ kind.toList) :
    keyPrefix (kind ++ ":" ++ key) = kind.toList := by
  simp only [keyPrefix, String.toList_append, List.append_assoc]
  rw [List.takeWhile_append_of_pos]
  · simp
  · intro c hc
    simp only [decide_eq_true_eq]
    rintro rfl
    exact h hc

/-- Two texts with a colon between them, the first without one, are known from their join. -/
theorem append_colon_inj {a b x y : String} (ha : ':' ∉ a.toList) (hb : ':' ∉ b.toList)
    (h : a ++ ":" ++ x = b ++ ":" ++ y) : a = b ∧ x = y := by
  have hab : a = b := by
    apply String.toList_injective
    have hprefix := congrArg keyPrefix h
    rwa [keyPrefix_append ha, keyPrefix_append hb] at hprefix
  subst hab
  have hchars : (a ++ ":").toList ++ x.toList = (a ++ ":").toList ++ y.toList := by
    simpa only [String.toList_append] using congrArg String.toList h
  exact ⟨rfl, String.toList_injective (List.append_cancel_left hchars)⟩

theorem normalizedKey_inj {r r' : ParsedExportRecord} (h : ':' ∉ r.shortcode.toList)
    (h' : ':' ∉ r'.shortcode.toList) :
    normalizedKey r = normalizedKey r' ↔
      r.shortcode = r'.shortcode ∧ r.semanticDigest = r'.semanticDigest := by
  constructor
  · intro hkey
    have hchars := congrArg String.toList hkey
    simp only [normalizedKey, String.toList_append, List.append_assoc] at hchars
    apply append_colon_inj h h'
    apply String.toList_injective
    simpa only [String.toList_append, List.append_assoc] using List.append_cancel_left hchars
  · rintro ⟨h1, h2⟩
    simp [normalizedKey, h1, h2]

/-! ## Digests -/

theorem radixByte_hex (b : UInt8) :
    radixByte? (hexDigit (b.toNat / 16)) (hexDigit (b.toNat % 16)) = some b := by
  have h : ∀ n : Fin 256, radixByte? (hexDigit (n.val / 16)) (hexDigit (n.val % 16)) =
      some (UInt8.ofNat n.val) := by decide +kernel
  have := h ⟨b.toNat, b.toNat_lt⟩
  simpa using this

theorem decodePairs_hexEncode (bytes : List UInt8) :
    decodePairs (hexEncode bytes).toList = some bytes := by
  rw [hexEncode, String.toList_ofList]
  induction bytes with
  | nil => rfl
  | cons b rest ih =>
    simp only [List.flatMap_cons, List.cons_append, List.nil_append, decodePairs, radixByte_hex, ih]
    rfl

theorem hexEncode_injective : Function.Injective hexEncode := by
  intro a b h
  have hdecoded := decodePairs_hexEncode a
  rw [h, decodePairs_hexEncode] at hdecoded
  exact (Option.some.inj hdecoded).symm

theorem hexDigit_size (n : Nat) : (hexDigit n).utf8Size = 1 := by
  unfold hexDigit
  by_cases h : n < 16
  · have hall : ∀ k : Fin 16, ("0123456789abcdef".toList.getD k.val '0').utf8Size = 1 := by
      decide
    exact hall ⟨n, h⟩
  · have hlong : "0123456789abcdef".toList.length ≤ n := by
      simp
      omega
    rw [List.getD_eq_getElem?_getD, List.getElem?_eq_none hlong]
    decide

theorem hexEncode_size (bytes : List UInt8) :
    (hexEncode bytes).utf8ByteSize = 2 * bytes.length := by
  unfold hexEncode
  induction bytes with
  | nil => rfl
  | cons b rest ih =>
    have hpair :
        (String.ofList [hexDigit (b.toNat / 16), hexDigit (b.toNat % 16)]).utf8ByteSize = 2 := by
      simp [hexDigit_size]
    rw [List.flatMap_cons, String.ofList_append, String.utf8ByteSize_append, ih, hpair,
      List.length_cons]
    omega

theorem decodeSha256_hexEncode {bytes : List UInt8} (h : bytes.length = 32) :
    decodeSha256 (hexEncode bytes) = .ok bytes := by
  unfold decodeSha256
  rw [hexEncode_size, h, decodePairs_hexEncode]
  rfl

/-- A digest in hexadecimal decodes to nothing but itself. -/
theorem decodeSha256_hexEncode_ok {bytes digest : List UInt8}
    (h : decodeSha256 (hexEncode bytes) = .ok digest) : digest = bytes := by
  unfold decodeSha256 at h
  split at h
  · cases h
  · rw [decodePairs_hexEncode] at h
    cases h
    rfl

/-! ## Unknown values and warnings -/

theorem unknownKey_inj {d d' : String} {n n' : Nat} (h : unknownKey d n = unknownKey d' n') :
    n = n' := by
  have hchars := congrArg (fun s => s.toList.reverse) h
  have hdigit : ∀ k : Nat, ∀ c ∈ (toString k).toList.reverse, decide (c ≠ ':') = true := by
    intro k c hc
    simp only [decide_eq_true_eq]
    rintro rfl
    exact absurd (natText_digit (List.mem_reverse.mp hc)) (by decide)
  have htake : ∀ d : String, ∀ k : Nat,
      ((unknownKey d k).toList.reverse.takeWhile fun c => decide (c ≠ ':')) =
        (toString k).toList.reverse := by
    intro d k
    simp only [unknownKey, String.toList_append, List.reverse_append, List.append_assoc]
    rw [List.takeWhile_append_of_pos (hdigit k)]
    simp
  have htext := congrArg (List.takeWhile fun c => decide (c ≠ ':')) hchars
  simp only [htake] at htext
  exact natText_injective (String.toList_injective (List.reverse_injective htext))

theorem unknownRecords_keys_nodup (lib : Externals) (pending : List (String × Json)) :
    (((unknownRecords lib pending).map Prod.snd).map UnknownExportRecord.evidenceKey).Nodup := by
  unfold unknownRecords
  rw [List.map_map, List.map_map]
  have hordinals : ((retained lib pending).zipIdx.map Prod.snd).Nodup := by
    rw [List.zipIdx_map_snd]
    exact List.nodup_range'
  apply List.pairwise_map.mpr
  refine (List.pairwise_map.mp hordinals).imp ?_
  intro a b hne hkey
  exact hne (unknownKey_inj hkey)

theorem unknownEntries_sorted (inventory : ArchiveInventory) :
    (unknownEntries inventory).Pairwise fun a b => a.path ≠ b.path := by
  apply List.pairwise_map.mpr
  refine (inventory.sorted.filter _).imp ?_
  intro a b hlt
  exact ne_of_lt hlt

/-- The codes of warnings hold no colon. -/
theorem refused_code {value : Json} {code : String} (h : readSaved value = .error code) :
    code ∈
      ["unknown_saved_record", "invalid_saved_permalink", "invalid_observation_timestamp"] := by
  unfold readSaved at h
  split at h
  · cases h
    simp
  · split at h
    · cases h
      simp
    · split at h
      · cases h
        simp
      · cases h

/-- The codes an unknown record is retained under. -/
def retainedCodes : List String :=
  ["unknown_saved_record", "invalid_saved_permalink", "invalid_observation_timestamp",
    "unknown_saved_section_field"]

theorem unknownRecords_code {lib : Externals} {saved : List Json} {rest : List (String × Json)}
    {u : String × UnknownExportRecord}
    (h : u ∈ unknownRecords lib (refusedEntries saved ++ unknownFields rest)) :
    u.1 ∈ retainedCodes := by
  obtain ⟨p, hp, rfl⟩ := List.mem_map.mp h
  have hretained := (List.mem_zipIdx' hp).2
  have hmem : p.1 ∈ retained lib (refusedEntries saved ++ unknownFields rest) := by
    rw [hretained]
    exact List.getElem_mem _
  obtain ⟨q, hq, hpq⟩ := List.mem_map.mp ((List.mem_insertionSort _).mp hmem)
  change p.1.1 ∈ retainedCodes
  rw [← hpq]
  rcases List.mem_append.mp hq with hq | hq
  · obtain ⟨value, -, hvalue⟩ := List.mem_filterMap.mp hq
    split at hvalue
    · cases hvalue
    · rename_i code hcode
      cases hvalue
      have hcodes := refused_code hcode
      simp only [List.mem_cons, List.not_mem_nil, or_false] at hcodes
      simp only [retainedCodes, List.mem_cons, List.not_mem_nil, or_false]
      rcases hcodes with h | h | h <;> simp [h]
  · obtain ⟨m, -, rfl⟩ := List.mem_map.mp hq
    simp [retainedCodes]

theorem warningKey_inj {w w' : ParserWarning} (h : ':' ∉ w.code.toList) (h' : ':' ∉ w'.code.toList)
    (hkey : warningKey w = warningKey w') : w.code = w'.code ∧ w.evidenceKey = w'.evidenceKey := by
  have hchars := congrArg String.toList hkey
  simp only [warningKey, String.toList_append, List.append_assoc] at hchars
  apply append_colon_inj h h'
  apply String.toList_injective
  simpa only [String.toList_append, List.append_assoc] using List.append_cancel_left hchars

theorem entryKey_inj {e e' : UnknownExportEntry} (h : entryKey e = entryKey e') :
    e.path = e'.path := by
  have hchars := congrArg String.toList h
  simp only [entryKey, String.toList_append] at hchars
  exact String.toList_injective (List.append_cancel_left hchars)

/-- Every warning of an archive has a key of its own. -/
theorem warnings_keys_nodup (lib : Externals) (saved : List Json) (rest : List (String × Json))
    (inventory : ArchiveInventory) :
    ((parserWarnings (unknownRecords lib (refusedEntries saved ++ unknownFields rest))
      (unknownEntries inventory)).map warningKey).Nodup := by
  unfold parserWarnings
  have hperm := List.perm_insertionSort
    (fun a b : ParserWarning => toLex (a.code, a.evidenceKey) ≤ toLex (b.code, b.evidenceKey))
    ((unknownRecords lib (refusedEntries saved ++ unknownFields rest)).map
        (fun u => ParserWarning.mk u.1 u.2.evidenceKey) ++
      (unknownEntries inventory).map
        (fun e => ParserWarning.mk "unknown_archive_section" (entryKey e)) ++
      ((unknownEntries inventory).filter UnknownExportEntry.mediaReference).map
        fun e => ParserWarning.mk "media_bytes_reference_only" (entryKey e))
  rw [(hperm.map warningKey).nodup_iff]
  have hcodes : ∀ code ∈ retainedCodes, ':' ∉ code.toList ∧ code ≠ "unknown_archive_section" ∧
      code ≠ "media_bytes_reference_only" := by decide
  have hsection : ':' ∉ "unknown_archive_section".toList := by decide
  have hmedia : ':' ∉ "media_bytes_reference_only".toList := by decide
  have hentries := unknownEntries_sorted inventory
  rw [List.map_append, List.map_append, List.map_map, List.map_map, List.map_map]
  apply List.nodup_append.mpr
  refine ⟨List.nodup_append.mpr ⟨?_, ?_, ?_⟩, ?_, ?_⟩
  · have hkeys := unknownRecords_keys_nodup lib (refusedEntries saved ++ unknownFields rest)
    rw [List.map_map] at hkeys
    apply List.pairwise_map.mpr
    refine (List.pairwise_map.mp hkeys).imp_of_mem ?_
    intro a b ha hb hne hkey
    exact hne (warningKey_inj (hcodes _ (unknownRecords_code ha)).1
      (hcodes _ (unknownRecords_code hb)).1 hkey).2
  · apply List.pairwise_map.mpr
    refine hentries.imp ?_
    intro a b hne hkey
    exact hne (entryKey_inj (warningKey_inj hsection hsection hkey).2)
  · rintro _ hleft _ hright rfl
    obtain ⟨u, hu, rfl⟩ := List.mem_map.mp hleft
    obtain ⟨e, -, heq⟩ := List.mem_map.mp hright
    have hcode := hcodes _ (unknownRecords_code hu)
    exact hcode.2.1 (warningKey_inj hsection hcode.1 heq).1.symm
  · apply List.pairwise_map.mpr
    refine (hentries.filter _).imp ?_
    intro a b hne hkey
    exact hne (entryKey_inj (warningKey_inj hmedia hmedia hkey).2)
  · rintro _ hleft _ hright rfl
    obtain ⟨e, -, heq⟩ := List.mem_map.mp hright
    rcases List.mem_append.mp hleft with hold | hold
    · obtain ⟨u, hu, rfl⟩ := List.mem_map.mp hold
      have hcode := hcodes _ (unknownRecords_code hu)
      exact hcode.2.2 (warningKey_inj hmedia hcode.1 heq).1.symm
    · obtain ⟨e', -, rfl⟩ := List.mem_map.mp hold
      have hcode := (warningKey_inj hmedia hsection heq).1
      simp at hcode

/-! ## All keys -/

theorem parseSavedPosts_ok {lib : Externals} {section? : Option Json} {inventory : ArchiveInventory}
    {parsed : ParsedExport} (h : parseSavedPosts lib section? inventory = .ok parsed) :
    ∃ rest, parsed =
      { records := parsedRecords lib (savedArray section?)
        unknownEntries := unknownEntries inventory
        unknownRecords := (unknownRecords lib
          (refusedEntries (savedArray section?) ++ unknownFields rest)).map Prod.snd
        warnings := parserWarnings
          (unknownRecords lib (refusedEntries (savedArray section?) ++ unknownFields rest))
          (unknownEntries inventory) } := by
  unfold parseSavedPosts at h
  split at h
  · rename_i root
    cases hremove : Json.removeMember "saved_saved_media" root with
    | none => simp [hremove] at h
    | some found =>
      obtain ⟨value, rest⟩ := found
      cases value with
      | arr saved =>
        simp only [hremove, Except.ok.injEq] at h
        have hsaved : savedArray (some (.obj root)) = saved := by simp [savedArray, hremove]
        rw [hsaved]
        exact ⟨rest, h.symm⟩
      | _ => simp [hremove] at h
  · cases h

/-- SHA-256 tells the texts of the list apart. -/
def DigestsApart (lib : Externals) (texts : List String) : Prop :=
  ∀ a ∈ texts, ∀ b ∈ texts, lib.sha256 a = lib.sha256 b → a = b

theorem parsedRecords_perm (lib : Externals) (saved : List Json) :
    (parsedRecords lib saved).Perm ((observations saved).map (SavedObservation.record lib)) :=
  List.perm_insertionSort _ _

theorem record_key_inj {lib : Externals} {saved : List Json}
    (hsha : DigestsApart lib ((observations saved).map SavedObservation.semanticJson))
    {o o' : SavedObservation} (ho : o ∈ observations saved) (ho' : o' ∈ observations saved)
    (h : normalizedKey (o.record lib) = normalizedKey (o'.record lib)) : o = o' := by
  obtain ⟨value, -, hread⟩ := mem_observations.mp ho
  obtain ⟨value', -, hread'⟩ := mem_observations.mp ho'
  obtain ⟨hplain, hcolon⟩ := readSaved_ok hread
  obtain ⟨hplain', hcolon'⟩ := readSaved_ok hread'
  have hdigest := ((normalizedKey_inj hcolon hcolon').mp h).2
  apply semanticJson_inj hplain hplain'
  exact hsha _ (List.mem_map_of_mem ho) _ (List.mem_map_of_mem ho') (hexEncode_injective hdigest)

theorem records_keys_nodup_iff {lib : Externals} {saved : List Json}
    (hsha : DigestsApart lib ((observations saved).map SavedObservation.semanticJson)) :
    ((parsedRecords lib saved).map normalizedKey).Nodup ↔ (observations saved).Nodup := by
  rw [((parsedRecords_perm lib saved).map normalizedKey).nodup_iff, List.map_map]
  constructor
  · exact List.Nodup.of_map _
  · intro h
    apply List.Nodup.map_on _ h
    intro o ho o' ho' hkey
    exact record_key_inj hsha ho ho' hkey

theorem keyPrefix_eq {kind key whole : String} (h : ':' ∉ kind.toList)
    (hwhole : whole.toList = kind.toList ++ ':' :: key.toList) : keyPrefix whole = kind.toList := by
  have hjoin : whole = kind ++ ":" ++ key := by
    apply String.toList_injective
    rw [hwhole]
    simp
  rw [hjoin, keyPrefix_append h]

theorem keyPrefix_normalizedKey (r : ParsedExportRecord) :
    keyPrefix (normalizedKey r) = "normalized".toList :=
  @keyPrefix_eq _ (r.shortcode ++ ":" ++ r.semanticDigest) _ (by decide)
    (by simp [normalizedKey])

theorem keyPrefix_unknownSectionKey (e : UnknownExportEntry) :
    keyPrefix (unknownSectionKey e) = "unknown_section".toList :=
  @keyPrefix_eq _ e.path _ (by decide) (by simp [unknownSectionKey])

theorem keyPrefix_unknownKey (digest : String) (ordinal : Nat) :
    keyPrefix (unknownKey digest ordinal) = "unknown_record".toList :=
  @keyPrefix_eq _ (digest ++ ":" ++ toString ordinal) _ (by decide)
    (by simp [unknownKey])

theorem keyPrefix_warningKey (w : ParserWarning) :
    keyPrefix (warningKey w) = "warning".toList :=
  @keyPrefix_eq _ (w.code ++ ":" ++ w.evidenceKey) _ (by decide) (by simp [warningKey])

theorem nodup_append_of_prefix {a b : List String} {kind : List Char} (ha : a.Nodup) (hb : b.Nodup)
    (hleft : ∀ k ∈ a, keyPrefix k = kind) (hright : ∀ k ∈ b, keyPrefix k ≠ kind) :
    (a ++ b).Nodup := by
  apply List.nodup_append.mpr
  refine ⟨ha, hb, ?_⟩
  rintro k hk _ hk' rfl
  exact hright k hk' (hleft k hk)

/-- **The evidence keys of an archive are distinct exactly when its accepted entries are.** -/
theorem evidenceKeys_nodup_iff {lib : Externals} {section? : Option Json}
    {inventory : ArchiveInventory} {parsed : ParsedExport}
    (hsha : DigestsApart lib
      ((observations (savedArray section?)).map SavedObservation.semanticJson))
    (h : parseSavedPosts lib section? inventory = .ok parsed) :
    (evidenceKeys parsed).Nodup ↔ (observations (savedArray section?)).Nodup := by
  obtain ⟨rest, rfl⟩ := parseSavedPosts_ok h
  rw [← records_keys_nodup_iff hsha]
  unfold evidenceKeys
  constructor
  · exact fun hnodup => (List.nodup_append.mp hnodup).1
  intro hrecords
  have hnormalized : ∀ k ∈ (parsedRecords lib (savedArray section?)).map normalizedKey,
      keyPrefix k = "normalized".toList := by
    intro k hk
    obtain ⟨r, -, rfl⟩ := List.mem_map.mp hk
    exact keyPrefix_normalizedKey r
  have hsections : ∀ k ∈ (unknownEntries inventory).map unknownSectionKey,
      keyPrefix k = "unknown_section".toList := by
    intro k hk
    obtain ⟨e, -, rfl⟩ := List.mem_map.mp hk
    exact keyPrefix_unknownSectionKey e
  have hunknown : ∀ k ∈ ((unknownRecords lib (refusedEntries (savedArray section?) ++
      unknownFields rest)).map Prod.snd).map UnknownExportRecord.evidenceKey,
      keyPrefix k = "unknown_record".toList := by
    intro k hk
    rw [List.map_map] at hk
    obtain ⟨u, hu, rfl⟩ := List.mem_map.mp hk
    obtain ⟨p, -, rfl⟩ := List.mem_map.mp hu
    exact keyPrefix_unknownKey p.1.2.1 p.2
  have hwarnings : ∀ k ∈ (parserWarnings (unknownRecords lib
      (refusedEntries (savedArray section?) ++ unknownFields rest))
      (unknownEntries inventory)).map warningKey, keyPrefix k = "warning".toList := by
    intro k hk
    obtain ⟨w, -, rfl⟩ := List.mem_map.mp hk
    exact keyPrefix_warningKey w
  have hentries : ((unknownEntries inventory).map unknownSectionKey).Nodup := by
    apply List.pairwise_map.mpr
    refine (unknownEntries_sorted inventory).imp ?_
    intro a b hne hkey
    have hchars := congrArg String.toList hkey
    simp only [unknownSectionKey, String.toList_append] at hchars
    exact hne (String.toList_injective (List.append_cancel_left hchars))
  have hvalues := unknownRecords_keys_nodup lib
    (refusedEntries (savedArray section?) ++ unknownFields rest)
  have hlast := nodup_append_of_prefix hvalues
    (warnings_keys_nodup lib (savedArray section?) rest inventory) hunknown fun k hk => by
      rw [hwarnings k hk]
      decide
  have hmiddle := nodup_append_of_prefix hentries hlast hsections fun k hk => by
    rcases List.mem_append.mp hk with hk | hk
    · rw [hunknown k hk]
      decide
    · rw [hwarnings k hk]
      decide
  refine nodup_append_of_prefix hrecords hmiddle hnormalized fun k hk => ?_
  rcases List.mem_append.mp hk with hk | hk
  · rw [hsections k hk]
    decide
  · rcases List.mem_append.mp hk with hk | hk
    · rw [hunknown k hk]
      decide
    · rw [hwarnings k hk]
      decide

end InstagramArchive.DataExport

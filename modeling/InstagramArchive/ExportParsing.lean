import InstagramArchive.JsonText
import InstagramArchive.ExportStaging

/-!
# What the saved-post parser keeps

The parser takes the text of the section and the entries of the archive in any order. It keeps
each element of the saved array once, as a record or as unknown, each other member and each other
entry once, and warns once of all it retains. Nothing it returns depends on the order, not even
where values of one digest are retained for different reasons: among the refused elements equal
digests mean equal elements, and the wrapped members stand behind them in the order of the map.
-/

namespace InstagramArchive.DataExport

open Permalink

/-! ## The parser on texts -/

/-- `unknown_entries`, from entries in any order. -/
def sortedUnknownEntries (entries : List InspectedEntry) : List UnknownExportEntry :=
  ((entries.filter fun e => e.path ≠ savedPostsPath).map unknownEntry).insertionSort
    fun a b => a.path ≤ b.path

/-- `parse_saved_posts` of the text of a section, as far as it is JSON. -/
def parseSection (lib : Externals) (text? : Option Json) (entries : List InspectedEntry) :
    Except ParserError ParsedExport :=
  match text?.map Json.value with
  | some (.obj root) =>
    match Json.removeMember "saved_saved_media" root with
    | none => .error .unsupportedLayout
    | some (.arr saved, rest) =>
      let unknown := unknownRecords lib (refusedEntries saved ++ unknownFields rest)
      let entries := sortedUnknownEntries entries
      .ok
        { records := parsedRecords lib saved
          unknownEntries := entries
          unknownRecords := unknown.map Prod.snd
          warnings := parserWarnings unknown entries }
    | some _ => .error .invalidJson
  | _ => .error .invalidJson

def ParsedExportRecord.wire (r : ParsedExportRecord) : String :=
  jsonObject
    [("shortcode", jsonString r.shortcode), ("canonical_url", jsonString r.canonicalUrl),
      ("display_author", jsonOption r.displayAuthor),
      ("observed_at_unix", toString r.observedAtUnix),
      ("acquisition_method", jsonString "data_export"),
      ("saved_authority", jsonString "export_observation"),
      ("semantic_digest", jsonString r.semanticDigest)]

def UnknownExportRecord.wire (u : UnknownExportRecord) : String :=
  jsonObject
    [("evidence_key", jsonString u.evidenceKey), ("semantic_digest", jsonString u.semanticDigest),
      ("raw", u.raw.render)]

def jsonArray (texts : List String) : String := "[" ++ String.intercalate "," texts ++ "]"

/-- Digest of the records and the unknown records together. -/
def knownEntryDigest (lib : Externals) (parsed : ParsedExport) : String :=
  digestJson lib (jsonArray
    [jsonArray (parsed.records.map ParsedExportRecord.wire),
      jsonArray (parsed.unknownRecords.map UnknownExportRecord.wire)])

/-- All that `parse_saved_posts` returns, but for its constants. -/
def parseExport (lib : Externals) (text? : Option Json) (entries : List InspectedEntry) :
    Except ParserError (ParsedExport × String) :=
  (parseSection lib text? entries).map fun parsed => (parsed, knownEntryDigest lib parsed)

/-- The entries of an inspected archive are in order already. -/
theorem sortedUnknownEntries_eq (inventory : ArchiveInventory) :
    sortedUnknownEntries inventory.entries = unknownEntries inventory := by
  apply List.Pairwise.insertionSort_eq
  apply List.pairwise_map.mpr
  exact (inventory.sorted.filter _).imp fun hlt => le_of_lt hlt

theorem parseSection_eq (lib : Externals) (text : Json) (inventory : ArchiveInventory) :
    parseSection lib (some text) inventory.entries =
      parseSavedPosts lib (some text.value) inventory := by
  unfold parseSection parseSavedPosts
  rw [sortedUnknownEntries_eq]
  rfl

/-! ## Conservation -/

/-- An element of the saved array that becomes a record: it has the shape of `SavedMedia`, its
link canonicalizes and its time is a time. -/
structure Normalizes (element : Json) (wire : SavedMedia) (canonical : CanonicalPermalink) :
    Prop where
  shape : savedMedia? element = some wire
  href : canonicalize wire.href = .ok canonical
  timestamp : validTimestamp wire.timestamp = true

/-- What a normalizing element states. -/
def observationOf (wire : SavedMedia) (canonical : CanonicalPermalink) : SavedObservation :=
  { shortcode := canonical.shortcode
    canonicalUrl := canonical.url
    displayAuthor := boundedDisplayAuthor wire.title
    observedAtUnix := wire.timestamp }

theorem readSaved_eq_ok {element : Json} {o : SavedObservation} :
    readSaved element = .ok o ↔
      ∃ wire canonical, Normalizes element wire canonical ∧ o = observationOf wire canonical := by
  constructor
  · intro h
    unfold readSaved at h
    split at h
    · cases h
    · next wire hshape =>
      split at h
      · cases h
      · next canonical hhref =>
        split at h
        · cases h
        · next htimestamp =>
          cases h
          exact ⟨wire, canonical, ⟨hshape, hhref, by simpa using htimestamp⟩, rfl⟩
  · rintro ⟨wire, canonical, ⟨hshape, hhref, htimestamp⟩, rfl⟩
    simp [readSaved, hshape, hhref, htimestamp, observationOf]

/-- The record of an element, if it becomes one. -/
def recordOf (lib : Externals) (element : Json) : Option ParsedExportRecord :=
  (readSaved element).toOption.map (SavedObservation.record lib)

theorem recordOf_eq_some {lib : Externals} {element : Json} {r : ParsedExportRecord} :
    recordOf lib element = some r ↔ ∃ wire canonical,
      Normalizes element wire canonical ∧ r = (observationOf wire canonical).record lib := by
  unfold recordOf
  constructor
  · intro h
    obtain ⟨o, ho, rfl⟩ := Option.map_eq_some_iff.mp h
    cases hread : readSaved element with
    | error code => simp [hread, Except.toOption] at ho
    | ok o' =>
      rw [hread] at ho
      cases ho
      obtain ⟨wire, canonical, hnormal, rfl⟩ := readSaved_eq_ok.mp hread
      exact ⟨wire, canonical, hnormal, rfl⟩
  · rintro ⟨wire, canonical, hnormal, rfl⟩
    rw [readSaved_eq_ok.mpr ⟨wire, canonical, hnormal, rfl⟩]
    rfl

/-- The warnings of the unknown records, of the unknown entries and of the media references. -/
def warningsOf (unknown : List (String × UnknownExportRecord)) (entries : List UnknownExportEntry) :
    List ParserWarning :=
  unknown.map (fun u => ⟨u.1, u.2.evidenceKey⟩) ++
    (entries.map (fun e => ⟨"unknown_archive_section", entryKey e⟩) ++
      (entries.filter UnknownExportEntry.mediaReference).map
        fun e => ⟨"media_bytes_reference_only", entryKey e⟩)

/-- What is kept of a saved array, of the other members of its section and of the entries of the
archive. Equality up to order means each of them once. -/
structure Conserved (lib : Externals) (saved : List Json) (rest : List (String × Json))
    (entries : List InspectedEntry) (parsed : ParsedExport) : Prop where
  records : parsed.records.Perm (saved.filterMap (recordOf lib))
  unknown : (parsed.unknownRecords.map UnknownExportRecord.raw).Perm
    ((saved.filter fun element => (recordOf lib element).isNone) ++ rest.map fun m => .obj [m])
  entries : parsed.unknownEntries.Perm
    ((entries.filter fun e => e.path ≠ savedPostsPath).map unknownEntry)
  keys : (parsed.unknownRecords.map UnknownExportRecord.evidenceKey).Nodup
  warnings : ∃ unknown : List (String × UnknownExportRecord),
    unknown.map Prod.snd = parsed.unknownRecords ∧
      (unknown.map fun u => (u.1, u.2.raw)).Perm (refusedEntries saved ++ unknownFields rest) ∧
      parsed.warnings.Perm (warningsOf unknown parsed.unknownEntries)

theorem parsedRecords_conserved (lib : Externals) (saved : List Json) :
    (parsedRecords lib saved).Perm (saved.filterMap (recordOf lib)) := by
  apply (parsedRecords_perm lib saved).trans
  rw [observations, List.map_filterMap]
  rfl

theorem refusedEntries_raw (lib : Externals) (saved : List Json) :
    (refusedEntries saved).map Prod.snd =
      saved.filter fun element => (recordOf lib element).isNone := by
  induction saved with
  | nil => rfl
  | cons element rest ih =>
    have hcons : refusedEntries (element :: rest) =
        (refusedEntries [element]) ++ refusedEntries rest := by
      simp only [refusedEntries, ← List.filterMap_append, List.singleton_append]
    rw [hcons, List.map_append, ih]
    cases hread : readSaved element <;>
      simp [refusedEntries, recordOf, hread, Except.toOption]

theorem unknownRecords_coded (lib : Externals) (pending : List (String × Json)) :
    ((unknownRecords lib pending).map fun u => (u.1, u.2.raw)).Perm pending := by
  have hretained : ((unknownRecords lib pending).map fun u => (u.1, u.2.raw)) =
      (retained lib pending).map fun q => (q.1, q.2.2) := by
    unfold unknownRecords
    rw [List.map_map]
    calc _ = ((retained lib pending).zipIdx.map Prod.fst).map fun q => (q.1, q.2.2) := by
          rw [List.map_map]
          rfl
      _ = _ := by rw [List.zipIdx_map_fst]
  rw [hretained]
  refine ((List.perm_insertionSort _ _).map _).trans ?_
  rw [List.map_map]
  exact List.Perm.of_eq (List.map_id _)

theorem unknownRecords_conserved (lib : Externals) (saved : List Json)
    (rest : List (String × Json)) :
    (((unknownRecords lib (refusedEntries saved ++ unknownFields rest)).map Prod.snd).map
        UnknownExportRecord.raw).Perm
      ((saved.filter fun element => (recordOf lib element).isNone) ++ rest.map fun m => .obj [m]) := by
  have hfields : (unknownFields rest).map Prod.snd = rest.map fun m => .obj [m] := by
    rw [unknownFields, List.map_map]
    rfl
  have hcoded := (unknownRecords_coded lib (refusedEntries saved ++ unknownFields rest)).map Prod.snd
  rw [List.map_append, refusedEntries_raw lib, hfields, List.map_map] at hcoded
  rw [List.map_map]
  exact hcoded

theorem parserWarnings_conserved (unknown : List (String × UnknownExportRecord))
    (entries : List UnknownExportEntry) :
    (parserWarnings unknown entries).Perm (warningsOf unknown entries) := by
  refine (List.perm_insertionSort _ _).trans ?_
  rw [warningsOf, ← List.append_assoc]

/-- A section with a saved array is accepted, and all of it is kept. -/
theorem parseSection_conserved (lib : Externals) {text : Json} {root rest : List (String × Json)}
    {saved : List Json} (entries : List InspectedEntry) (hroot : text.value = .obj root)
    (hsaved : Json.removeMember "saved_saved_media" root = some (.arr saved, rest)) :
    ∃ parsed, parseSection lib (some text) entries = .ok parsed ∧
      Conserved lib saved rest entries parsed := by
  have hparse : parseSection lib (some text) entries = .ok
      { records := parsedRecords lib saved
        unknownEntries := sortedUnknownEntries entries
        unknownRecords :=
          (unknownRecords lib (refusedEntries saved ++ unknownFields rest)).map Prod.snd
        warnings := parserWarnings
          (unknownRecords lib (refusedEntries saved ++ unknownFields rest))
          (sortedUnknownEntries entries) } := by
    simp [parseSection, hroot, hsaved]
  refine ⟨_, hparse, ?_⟩
  constructor
  case records => exact parsedRecords_conserved lib saved
  case unknown => exact unknownRecords_conserved lib saved rest
  case entries => exact List.perm_insertionSort _ _
  case keys => exact unknownRecords_keys_nodup lib _
  case warnings =>
    exact ⟨unknownRecords lib (refusedEntries saved ++ unknownFields rest), rfl,
      unknownRecords_coded lib _, parserWarnings_conserved _ _⟩

/-! ## Order -/

section Sorting

variable {α κ : Type} [LinearOrder κ] (key : α → κ)

theorem orderedInsert_comm {x y : α} (hne : key x ≠ key y) (l : List α) :
    (l.orderedInsert (fun a b => key a ≤ key b) y).orderedInsert (fun a b => key a ≤ key b) x =
      (l.orderedInsert (fun a b => key a ≤ key b) x).orderedInsert (fun a b => key a ≤ key b) y := by
  wlog hlt : key x < key y generalizing x y
  · exact (this hne.symm (lt_of_le_of_ne (not_lt.mp hlt) hne.symm)).symm
  have hle : key x ≤ key y := le_of_lt hlt
  have hnot : ¬ key y ≤ key x := not_le_of_gt hlt
  induction l with
  | nil => simp [hle, hnot]
  | cons b l ih =>
    by_cases hy : key y ≤ key b
    · have hx : key x ≤ key b := hle.trans hy
      simp [hx, hy, hle, hnot]
    · by_cases hx : key x ≤ key b
      · simp [hx, hy, hnot]
      · simp [hx, hy, ih]

/-- A stable sort forgets the order of elements that it tells apart or that are the same; what
stands behind them does not matter. -/
theorem insertionSort_perm_append {l l' : List α} (hperm : l.Perm l')
    (hties : ∀ x ∈ l, ∀ y ∈ l, key x = key y → x = y) (tail : List α) :
    (l ++ tail).insertionSort (fun a b => key a ≤ key b) =
      (l' ++ tail).insertionSort fun a b => key a ≤ key b := by
  unfold List.insertionSort
  rw [List.foldr_append, List.foldr_append]
  apply hperm.foldr_eq'
  intro x hx y hy sorted
  by_cases hkey : key x = key y
  · rw [hties x hx y hy hkey]
  · exact (orderedInsert_comm key hkey sorted).symm

theorem insertionSort_perm {l l' : List α} (hperm : l.Perm l')
    (hties : ∀ x ∈ l, ∀ y ∈ l, key x = key y → x = y) :
    l.insertionSort (fun a b => key a ≤ key b) = l'.insertionSort fun a b => key a ≤ key b := by
  have happend := insertionSort_perm_append key hperm hties []
  rwa [List.append_nil, List.append_nil] at happend

end Sorting

/-- Members of a section that may stand for each other: the elements of the saved array may have
another order. -/
def SameMember (m m' : String × Json) : Prop :=
  m = m' ∨ m.1 = "saved_saved_media" ∧ m'.1 = "saved_saved_media" ∧
    ∃ saved saved', m.2 = .arr saved ∧ m'.2 = .arr saved' ∧ saved.Perm saved'

theorem SameMember.name {m m' : String × Json} (h : SameMember m m') : m.1 = m'.1 := by
  rcases h with rfl | ⟨h, h', -⟩
  · rfl
  · rw [h, h']

theorem SameMember.trans {a b c : String × Json} (hab : SameMember a b) (hbc : SameMember b c) :
    SameMember a c := by
  rcases hab with rfl | ⟨ha, hb, saved, saved', hsaved, hsaved', hperm⟩
  · exact hbc
  · rcases hbc with rfl | ⟨-, hc, again, saved'', hagain, hsaved'', hperm'⟩
    · exact .inr ⟨ha, hb, saved, saved', hsaved, hsaved', hperm⟩
    · rw [hsaved'] at hagain
      cases hagain
      exact .inr ⟨ha, hc, saved, saved'', hsaved, hsaved'', hperm.trans hperm'⟩

/-- Values of sections that differ at most in the order of the saved array. -/
def SameSection (v v' : Json) : Prop :=
  v = v' ∨ ∃ root root', v = .obj root ∧ v' = .obj root' ∧ List.Forall₂ SameMember root root'

theorem forall₂_sameMember_refl (root : List (String × Json)) :
    List.Forall₂ SameMember root root := List.forall₂_same.mpr fun _ _ => .inl rfl

theorem forall₂_sameMember_trans {a b c : List (String × Json)}
    (hab : List.Forall₂ SameMember a b) (hbc : List.Forall₂ SameMember b c) :
    List.Forall₂ SameMember a c := by
  induction hab generalizing c with
  | nil => exact hbc
  | cons hm _ ih =>
    cases hbc with
    | cons hm' hrest' => exact .cons (hm.trans hm') (ih hrest')

theorem SameSection.trans {a b c : Json} (hab : SameSection a b) (hbc : SameSection b c) :
    SameSection a c := by
  rcases hab with rfl | ⟨root, root', rfl, rfl, hroot⟩
  · exact hbc
  · rcases hbc with rfl | ⟨again, root'', hagain, rfl, hroot'⟩
    · exact .inr ⟨root, root', rfl, rfl, hroot⟩
    · cases hagain
      exact .inr ⟨root, root'', rfl, rfl, forall₂_sameMember_trans hroot hroot'⟩

/-- Texts of sections that differ in the order of the saved array and of the members of objects,
each with members of different names. -/
inductive Reordered : Json → Json → Prop where
  | shuffled {t t' : Json} : Json.Shuffled t t' → Reordered t t'
  | saved {saved saved' : List Json} (before after : List (String × Json)) : saved.Perm saved' →
      Reordered (.obj (before ++ ("saved_saved_media", .arr saved) :: after))
        (.obj (before ++ ("saved_saved_media", .arr saved') :: after))
  | trans {a b c : Json} : Reordered a b → Reordered b c → Reordered a c

theorem Reordered.sameSection {t t' : Json} (h : Reordered t t') :
    SameSection t.value t'.value := by
  induction h with
  | shuffled hshuffled => exact .inl hshuffled.value_eq
  | trans _ _ ih ih' => exact ih.trans ih'
  | @saved saved saved' before after hperm =>
    refine .inr ⟨_, _, rfl, rfl, ?_⟩
    rw [Json.valueMembers_eq_foldl, Json.valueMembers_eq_foldl, List.foldl_append,
      List.foldl_append, List.foldl_cons, List.foldl_cons, ← Json.valueMembers_eq_foldl _ after,
      ← Json.valueMembers_eq_foldl _ after]
    apply Json.valueMembers_related (fun _ _ hm => hm.name) (fun m => .inl rfl)
    apply Json.insertMember_related fun _ _ hm => hm.name
    · refine .inr ⟨rfl, rfl, Json.valueAll saved, Json.valueAll saved', rfl, rfl, ?_⟩
      rw [Json.valueAll_eq_map, Json.valueAll_eq_map]
      exact hperm.map Json.value
    · exact forall₂_sameMember_refl _

/-- The saved array is found in both, and nothing else differs. -/
theorem removeMember_sameMember {root root' : List (String × Json)}
    (h : List.Forall₂ SameMember root root') :
    Json.removeMember "saved_saved_media" root = Json.removeMember "saved_saved_media" root' ∨
      ∃ saved saved' rest, saved.Perm saved' ∧
        Json.removeMember "saved_saved_media" root = some (.arr saved, rest) ∧
        Json.removeMember "saved_saved_media" root' = some (.arr saved', rest) := by
  have hfilter : root.filter (fun m => m.1 ≠ "saved_saved_media") =
      root'.filter fun m => m.1 ≠ "saved_saved_media" := by
    induction h with
    | nil => rfl
    | @cons m m' rest rest' hm hrest ih =>
      rcases hm with rfl | ⟨hname, hname', -⟩
      · rw [List.filter_cons, List.filter_cons, ih]
      · rw [List.filter_cons_of_neg (by simp [hname]), List.filter_cons_of_neg (by simp [hname']),
          ih]
  have hfind : root.find? (fun m => m.1 = "saved_saved_media") =
        root'.find? (fun m => m.1 = "saved_saved_media") ∨
      ∃ m m' saved saved', root.find? (fun m => m.1 = "saved_saved_media") = some m ∧
        root'.find? (fun m => m.1 = "saved_saved_media") = some m' ∧ m.2 = .arr saved ∧
        m'.2 = .arr saved' ∧ saved.Perm saved' := by
    clear hfilter
    induction h with
    | nil => exact .inl rfl
    | @cons m m' rest rest' hm hrest ih =>
      rcases hm with rfl | ⟨hname, hname', saved, saved', hsaved, hsaved', hperm⟩
      · by_cases hname : m.1 = "saved_saved_media"
        · exact .inl (by simp [hname])
        · rw [List.find?_cons_of_neg (by simp [hname]), List.find?_cons_of_neg (by simp [hname])]
          exact ih
      · exact .inr ⟨m, m', saved, saved', by simp [hname], by simp [hname'], hsaved, hsaved',
          hperm⟩
  unfold Json.removeMember
  rw [hfilter]
  rcases hfind with hfind | ⟨m, m', saved, saved', hm, hm', hsaved, hsaved', hperm⟩
  · rw [hfind]
    exact .inl rfl
  · right
    refine ⟨saved, saved', root'.filter fun m => m.1 ≠ "saved_saved_media", hperm, ?_, ?_⟩
    · rw [hm, Option.map_some, hsaved]
    · rw [hm', Option.map_some, hsaved']

/-- The texts the parser takes digests of, of the saved array. -/
def digestedTexts (saved : List Json) : List String :=
  (observations saved).map SavedObservation.semanticJson ++
    (refusedEntries saved).map fun p => p.2.render

theorem parsedRecords_perm_eq {lib : Externals} {saved saved' : List Json}
    (hperm : saved.Perm saved') (hsha : DigestsApart lib (digestedTexts saved)) :
    parsedRecords lib saved = parsedRecords lib saved' := by
  have hrecords : ((observations saved).map (SavedObservation.record lib)).Perm
      ((observations saved').map (SavedObservation.record lib)) := (hperm.filterMap _).map _
  apply insertionSort_perm (fun r : ParsedExportRecord => toLex (r.shortcode, r.semanticDigest))
    hrecords
  intro x hx y hy hkey
  obtain ⟨o, ho, rfl⟩ := List.mem_map.mp hx
  obtain ⟨o', ho', rfl⟩ := List.mem_map.mp hy
  obtain ⟨element, -, hread⟩ := mem_observations.mp ho
  obtain ⟨element', -, hread'⟩ := mem_observations.mp ho'
  have hdigest : digestJson lib o.semanticJson = digestJson lib o'.semanticJson :=
    congrArg Prod.snd (toLex.injective hkey)
  have hsame : o.semanticJson = o'.semanticJson := by
    apply hsha
    · exact List.mem_append_left _ (List.mem_map_of_mem ho)
    · exact List.mem_append_left _ (List.mem_map_of_mem ho')
    · exact hexEncode_injective hdigest
  rw [semanticJson_inj (readSaved_ok hread).1 (readSaved_ok hread').1 hsame]

theorem mem_refusedEntries {saved : List Json} {p : String × Json} :
    p ∈ refusedEntries saved ↔ p.2 ∈ saved ∧ readSaved p.2 = .error p.1 := by
  unfold refusedEntries
  rw [List.mem_filterMap]
  constructor
  · rintro ⟨element, helement, hp⟩
    split at hp
    · cases hp
    · next code hcode =>
      cases hp
      exact ⟨helement, hcode⟩
  · rintro ⟨hmem, hread⟩
    exact ⟨p.2, hmem, by rw [hread]⟩

/-- Refused elements of one digest are one element, refused for one reason. -/
theorem retained_perm_eq {lib : Externals} {saved saved' : List Json} (rest : List (String × Json))
    (hperm : saved.Perm saved') (hprinted : ∀ element ∈ saved, element.Printed)
    (hsha : DigestsApart lib (digestedTexts saved)) :
    retained lib (refusedEntries saved ++ unknownFields rest) =
      retained lib (refusedEntries saved' ++ unknownFields rest) := by
  unfold retained
  rw [List.map_append, List.map_append]
  have hrefused : (refusedEntries saved).Perm (refusedEntries saved') := hperm.filterMap _
  apply insertionSort_perm_append (fun q : String × String × Json => q.2.1) (hrefused.map _)
  intro x hx y hy hkey
  obtain ⟨p, hp, rfl⟩ := List.mem_map.mp hx
  obtain ⟨p', hp', rfl⟩ := List.mem_map.mp hy
  obtain ⟨hmem, hread⟩ := mem_refusedEntries.mp hp
  obtain ⟨hmem', hread'⟩ := mem_refusedEntries.mp hp'
  have htext : p.2.render = p'.2.render := by
    apply hsha
    · exact List.mem_append_right _ (List.mem_map_of_mem hp)
    · exact List.mem_append_right _ (List.mem_map_of_mem hp')
    · exact hexEncode_injective hkey
  have helement : p.2 = p'.2 :=
    Json.render_injective (hprinted _ hmem) (hprinted _ hmem') htext
  have hcode : p.1 = p'.1 := by
    rw [helement, hread'] at hread
    exact (Except.error.inj hread).symm
  rw [Prod.ext hcode helement]

theorem sortedUnknownEntries_perm {entries entries' : List InspectedEntry}
    (hperm : entries.Perm entries') (hdistinct : (entries.map InspectedEntry.path).Nodup) :
    sortedUnknownEntries entries = sortedUnknownEntries entries' := by
  apply insertionSort_perm UnknownExportEntry.path ((hperm.filter _).map unknownEntry)
  intro x hx y hy hpath
  obtain ⟨e, he, rfl⟩ := List.mem_map.mp hx
  obtain ⟨e', he', rfl⟩ := List.mem_map.mp hy
  have hsame : e = e' := List.inj_on_of_nodup_map hdistinct (List.mem_of_mem_filter he)
    (List.mem_of_mem_filter he') hpath
  rw [hsame]

theorem savedArray_eq {root rest : List (String × Json)} {saved : List Json}
    (h : Json.removeMember "saved_saved_media" root = some (.arr saved, rest)) :
    savedArray (some (.obj root)) = saved := by
  simp [savedArray, h]

theorem printed_of_removeMember {root rest : List (String × Json)} {saved : List Json}
    (hprinted : (Json.obj root).Printed)
    (h : Json.removeMember "saved_saved_media" root = some (.arr saved, rest)) :
    ∀ element ∈ saved, element.Printed := by
  obtain ⟨m, hfind, hm⟩ := Option.map_eq_some_iff.mp h
  have hmember := (Json.printedMembers_iff root).mp hprinted m (List.mem_of_find?_eq_some hfind)
  have hvalue : m.2 = .arr saved := congrArg Prod.fst hm
  rw [hvalue] at hmember
  exact (Json.printedAll_iff saved).mp hmember

/-- The order of the input does not matter. -/
theorem parseSection_reordered {lib : Externals} {text text' : Json}
    {entries entries' : List InspectedEntry} (h : Reordered text text')
    (hentries : entries.Perm entries') (hdistinct : (entries.map InspectedEntry.path).Nodup)
    (hprinted : text.Printed)
    (hsha : DigestsApart lib (digestedTexts (savedArray (some text.value)))) :
    parseSection lib (some text) entries = parseSection lib (some text') entries' := by
  have hsorted := sortedUnknownEntries_perm hentries hdistinct
  have hvalue : text.value.Printed := Json.Printed.value text hprinted
  unfold parseSection
  rw [Option.map_some, Option.map_some, hsorted]
  rcases h.sameSection with heq | ⟨root, root', hroot, hroot', hrelated⟩
  · rw [heq]
  · rw [hroot, hroot']
    rcases removeMember_sameMember hrelated with heq | ⟨saved, saved', rest, hperm, hsaved, hsaved'⟩
    · simp only [heq]
    · rw [hroot] at hvalue hsha
      rw [savedArray_eq hsaved] at hsha
      have hrecords := parsedRecords_perm_eq hperm hsha
      have hretained := retained_perm_eq rest hperm (printed_of_removeMember hvalue hsaved) hsha
      have hunknown : unknownRecords lib (refusedEntries saved ++ unknownFields rest) =
          unknownRecords lib (refusedEntries saved' ++ unknownFields rest) := by
        rw [unknownRecords, unknownRecords, hretained]
      simp only [hsaved, hsaved', hrecords, hunknown]

/-- **Parsing keeps all of a section once, and does not depend on its order.** An element of the
strict shape becomes a record and any other is retained; on an inspected inventory this is the
parser the worker runs. -/
theorem parse_conserves_and_ignores_order (lib : Externals) :
    (∀ (text : Json) (entries : List InspectedEntry) (root rest : List (String × Json))
        (saved : List Json), text.value = .obj root →
      Json.removeMember "saved_saved_media" root = some (.arr saved, rest) →
      ∃ parsed, parseExport lib (some text) entries = .ok (parsed, knownEntryDigest lib parsed) ∧
        Conserved lib saved rest entries parsed) ∧
    (∀ (element : Json) (r : ParsedExportRecord), recordOf lib element = some r ↔
      ∃ wire canonical, Normalizes element wire canonical ∧
        r = (observationOf wire canonical).record lib) ∧
    (∀ (text : Json) (inventory : ArchiveInventory),
      parseSection lib (some text) inventory.entries =
        parseSavedPosts lib (some text.value) inventory) ∧
    ∀ (text text' : Json) (entries entries' : List InspectedEntry), Reordered text text' →
      entries.Perm entries' → (entries.map InspectedEntry.path).Nodup → text.Printed →
      DigestsApart lib (digestedTexts (savedArray (some text.value))) →
      parseExport lib (some text) entries = parseExport lib (some text') entries' := by
  refine ⟨?_, fun _ _ => recordOf_eq_some, parseSection_eq lib, ?_⟩
  · intro text entries root rest saved hroot hsaved
    obtain ⟨parsed, hparse, hconserved⟩ := parseSection_conserved lib entries hroot hsaved
    exact ⟨parsed, by rw [parseExport, hparse, Except.map], hconserved⟩
  · intro text text' entries entries' h hentries hdistinct hprinted hsha
    rw [parseExport, parseExport, parseSection_reordered h hentries hdistinct hprinted hsha]

/-- A section with one member beside the saved array, and another one of its name. -/
def repeatedMember (first second : Int) : Json :=
  .obj [("saved_saved_media", .arr []), ("x", .int first), ("x", .int second)]

/-- What is retained of a section. -/
def retainedTexts (lib : Externals) (text : Json) : List String :=
  match parseExport lib (some text) [] with
  | .ok (parsed, _) => parsed.unknownRecords.map fun u => u.raw.render
  | .error _ => []

/-- Of two members of one name the later is kept, whichever that is. -/
theorem repeatedMember_depends_on_order :
    ∃ members members' : List (String × Json), members.Perm members' ∧
      (Json.obj members).Printed ∧
      DigestsApart padded (digestedTexts (savedArray (some (Json.obj members).value))) ∧
      parseExport padded (some (.obj members)) [] ≠ parseExport padded (some (.obj members')) [] ∧
      retainedTexts padded (.obj members) = ["\x7b\"x\":2\x7d"] ∧
      retainedTexts padded (.obj members') = ["\x7b\"x\":1\x7d"] := by
  refine ⟨[("saved_saved_media", .arr []), ("x", .int 1), ("x", .int 2)],
    [("saved_saved_media", .arr []), ("x", .int 2), ("x", .int 1)], ?_, ?_, ?_, ?_, ?_, ?_⟩
  · exact .cons _ (.swap _ _ _)
  · simp [Json.Printed, Json.PrintedMembers, Json.PrintedAll]
  · intro a ha
    cases ha
  · intro heq
    have htexts : retainedTexts padded (repeatedMember 1 2) =
        retainedTexts padded (repeatedMember 2 1) := by
      unfold retainedTexts repeatedMember
      rw [heq]
    exact absurd htexts (by decide +kernel)
  · decide +kernel
  · decide +kernel

/-- The saved entry in two places, with members in two orders. -/
theorem parse_conserves_and_ignores_order_two_entries :
    (∃ parsed, parseExport padded (savedSection [savedEntry, .null])
        [⟨"media/a.jpg", 1, 1⟩] = .ok (parsed, knownEntryDigest padded parsed) ∧
      Conserved padded [savedEntry.value, .null] [] [⟨"media/a.jpg", 1, 1⟩] parsed) ∧
    parseExport padded (savedSection [savedEntry, .null]) [] =
      parseExport padded (savedSection [.null, savedEntry]) [] := by
  obtain ⟨hconserved, -, -, hreordered⟩ := parse_conserves_and_ignores_order padded
  constructor
  · exact hconserved (.obj [("saved_saved_media", .arr [savedEntry, .null])]) _
      [("saved_saved_media", .arr [savedEntry.value, .null])] [] _ rfl rfl
  · apply hreordered (.obj [("saved_saved_media", .arr [savedEntry, .null])])
      (.obj [("saved_saved_media", .arr [.null, savedEntry])])
    · exact .saved [] [] (.swap _ _ _)
    · exact .refl _
    · exact List.nodup_nil
    · simp [Json.Printed, Json.PrintedMembers, Json.PrintedAll, savedEntry]
    · unfold DigestsApart
      decide +kernel

end InstagramArchive.DataExport

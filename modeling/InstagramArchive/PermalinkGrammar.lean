import InstagramArchive.Permalink
import Mathlib.Data.Bool.AllAny

/-!
# The grammar of permalinks

`UrlShape` is the grammar of the accepted URLs: a scheme, one of the accepted hosts, a path of
a form and a shortcode behind at most one other segment, and a query or a fragment that is not
read. `canonicalize_grammar` says that `canonicalize` accepts this grammar and nothing else,
and that the kind and the shortcode are all that is left of an accepted URL.
-/

namespace InstagramArchive.Permalink

/-- `'/' [segment '/'] form '/' code ['/']`, no character of the segment among `barred`. -/
def PathShape (barred : List Char) (path : List Char) (kind : PermalinkKind) (code : List Char) :
    Prop :=
  ∃ lead form trail, path = '/' :: (lead ++ form ++ '/' :: (code ++ trail)) ∧
    (lead = [] ∨ ∃ segment, lead = segment ++ ['/'] ∧ ∀ c ∈ segment, c ∉ barred) ∧
    pathForm form = some kind ∧ ValidShortcode code ∧ (trail = [] ∨ trail = ['/'])

/-- Nothing, or a query or a fragment. -/
def SuffixShape (suffix : List Char) : Prop :=
  suffix = [] ∨ ∃ c rest, suffix = c :: rest ∧ (c = '?' ∨ c = '#')

/-- `scheme '://' host path suffix`. -/
def UrlShape (barred : List Char) (url : List Char) (kind : PermalinkKind) (code : List Char) :
    Prop :=
  ∃ scheme host path suffix, url = scheme ++ "://".toList ++ (host ++ (path ++ suffix)) ∧
    (eqIgnoreAsciiCase scheme "http".toList ∨ eqIgnoreAsciiCase scheme "https".toList) ∧
    host.map Char.toLower ∈ acceptedHosts.map String.toList ∧
    PathShape barred path kind code ∧ SuffixShape suffix

/-- The characters that end a segment, a path or the whole of what is read. -/
def delimiters : List Char := ['/', '?', '#']

/-! ## Cutting -/

theorem splitOnce_eq_some {pattern input before after : List Char}
    (h : splitOnce pattern input = some (before, after)) : input = before ++ pattern ++ after := by
  induction input generalizing before with
  | nil =>
    unfold splitOnce at h
    split at h
    · rename_i hempty
      cases h
      simp [List.isEmpty_iff.mp hempty]
    · cases h
  | cons c rest ih =>
    unfold splitOnce at h
    split at h
    · rename_i hprefix
      cases h
      exact (List.prefix_iff_eq_append.mp (List.isPrefixOf_iff_prefix.mp hprefix)).symm
    · obtain ⟨parts, hparts, heq⟩ := Option.map_eq_some_iff.mp h
      cases heq
      have htext : rest = parts.1 ++ pattern ++ parts.2 := ih hparts
      simp [htext]

/-- The first occurrence is the one after which nothing was passed over. -/
theorem splitOnce_of_not_mem {c : Char} {pattern before after : List Char} (h : c ∉ before) :
    splitOnce (c :: pattern) (before ++ c :: pattern ++ after) = some (before, after) := by
  induction before with
  | nil =>
    have hprefix : (c :: pattern).isPrefixOf (c :: (pattern ++ after)) = true :=
      List.isPrefixOf_iff_prefix.mpr (List.prefix_append (c :: pattern) after)
    rw [List.nil_append, List.cons_append]
    unfold splitOnce
    rw [if_pos hprefix]
    simp
  | cons d rest ih =>
    have hne : c ≠ d := fun he => h (by simp [he])
    have hskip : (c :: pattern).isPrefixOf (d :: (rest ++ c :: pattern ++ after)) = false := by
      simp [List.isPrefixOf, hne]
    rw [List.cons_append, List.cons_append]
    unfold splitOnce
    rw [hskip, ih fun hm => h (List.mem_cons_of_mem d hm)]
    rfl

/-- A list is cut where the first character of its second part stops the reading. -/
theorem takeWhile_append_stop {p : Char → Bool} {front back : List Char}
    (hfront : ∀ c ∈ front, p c = true) (hback : ∀ c, back.head? = some c → p c = false) :
    (front ++ back).takeWhile p = front ∧ (front ++ back).dropWhile p = back := by
  have hstop : back.takeWhile p = [] ∧ back.dropWhile p = back := by
    cases back with
    | nil => exact ⟨rfl, rfl⟩
    | cons c rest =>
      have hc := hback c rfl
      simp [hc]
  rw [List.takeWhile_append_of_pos hfront, List.dropWhile_append_of_pos hfront, hstop.1, hstop.2]
  exact ⟨List.append_nil front, rfl⟩

/-! ## Paths -/

theorem pathForm_plain {form : List Char} {kind : PermalinkKind} (h : pathForm form = some kind) :
    ∀ c ∈ form, isShortcodeChar c = true := by
  have hforms : ∀ f ∈ ["p".toList, "reel".toList, "reels".toList, "tv".toList],
      f.all isShortcodeChar = true := by decide
  have hmem : form ∈ ["p".toList, "reel".toList, "reels".toList, "tv".toList] := by
    simp only [List.mem_cons, List.not_mem_nil, or_false]
    unfold pathForm at h
    split at h
    · rename_i hp
      exact Or.inl hp
    · split at h
      · rename_i hreel
        rcases hreel with hreel | hreel
        · exact Or.inr (Or.inl hreel)
        · exact Or.inr (Or.inr (Or.inl hreel))
      · split at h
        · rename_i htv
          exact Or.inr (Or.inr (Or.inr htv))
        · cases h
  exact List.all_eq_true.mp (hforms form hmem)

theorem slash_not_mem {part : List Char} (h : ∀ c ∈ part, isShortcodeChar c = true) :
    '/' ∉ part := fun hm => (shortcodeChar_plain (h _ hm)).2.2.2.1 rfl

/-- The segments of a path are its parts, without an empty last one. -/
theorem pathSegments_intercalate {parts : List (List Char)} (hparts : ∀ l ∈ parts, '/' ∉ l)
    (hne : parts ≠ []) :
    pathSegments ('/' :: ['/'].intercalate parts) =
      if parts.length > 1 ∧ parts.getLast? = some [] then parts.dropLast else parts := by
  simp only [pathSegments, List.splitOn_intercalate '/' hparts hne]

/-- What the last two segments must be. -/
theorem finish_ok {form code shortcode : List Char} {kind : PermalinkKind}
    (h : (match pathForm form with
      | none => .error .notAPermalink
      | some kind => (validateShortcode shortcode).map fun _ => (kind, shortcode)) =
        (.ok (kind, code) : Except PermalinkError (PermalinkKind × List Char))) :
    pathForm form = some kind ∧ shortcode = code ∧ ValidShortcode code := by
  cases hform : pathForm form with
  | none => simp [hform] at h
  | some k =>
    cases hvalid : validateShortcode shortcode with
    | error e => simp [hform, hvalid, Except.map] at h
    | ok u =>
      simp only [hform, hvalid, Except.map, Except.ok.injEq, Prod.mk.injEq] at h
      obtain ⟨rfl, rfl⟩ := h
      exact ⟨rfl, rfl, (validateShortcode_ok_iff shortcode).mp hvalid⟩

theorem parsePath_segments {path code : List Char} {kind : PermalinkKind}
    (h : parsePath path = .ok (kind, code)) :
    ∃ form, (pathSegments path = [form, code] ∨ ∃ segment, pathSegments path = [segment, form, code]) ∧
      pathForm form = some kind ∧ ValidShortcode code := by
  unfold parsePath at h
  simp only at h
  split at h
  · split at h <;> simp at h
  · rename_i form shortcode hsegments
    obtain ⟨hform, rfl, hcode⟩ := finish_ok h
    exact ⟨form, Or.inl hsegments, hform, hcode⟩
  · rename_i segment form shortcode hsegments
    obtain ⟨hform, rfl, hcode⟩ := finish_ok h
    exact ⟨form, Or.inr ⟨segment, hsegments⟩, hform, hcode⟩
  · simp at h

/-- An empty last part leaves its separator. -/
theorem intercalate_concat_nil {parts : List (List Char)} (h : parts ≠ []) :
    ['/'].intercalate (parts ++ [[]]) = ['/'].intercalate parts ++ ['/'] := by
  induction parts with
  | nil => exact (h rfl).elim
  | cons part rest ih =>
    cases rest with
    | nil => simp [List.intercalate_cons_cons, List.intercalate_singleton]
    | cons next tail =>
      have hrest := ih (by simp)
      simp only [List.cons_append, List.intercalate_cons_cons] at hrest ⊢
      rw [hrest]
      simp

/-- The text of a path is its segments, and perhaps a last slash. -/
theorem path_of_segments {rest : List Char} {segments : List (List Char)}
    (h : pathSegments ('/' :: rest) = segments) (hne : segments ≠ []) :
    ∃ trail, rest = ['/'].intercalate segments ++ trail ∧ (trail = [] ∨ trail = ['/']) := by
  have hjoin : ['/'].intercalate (rest.splitOn '/') = rest := List.intercalate_splitOn '/'
  simp only [pathSegments] at h
  split at h
  · rename_i hlast
    obtain ⟨front, hfront⟩ := List.getLast?_eq_some_iff.mp hlast.2
    rw [hfront, List.dropLast_concat] at h
    subst h
    refine ⟨['/'], ?_, Or.inr rfl⟩
    rw [← hjoin, hfront]
    exact intercalate_concat_nil hne
  · rw [h] at hjoin
    exact ⟨[], by rw [hjoin, List.append_nil], Or.inl rfl⟩

/-- A part of a path holds no separator. -/
theorem slash_not_mem_splitOn {text part : List Char} (h : part ∈ text.splitOn '/') :
    '/' ∉ part := by
  induction text generalizing part with
  | nil =>
    rw [List.splitOn_nil, List.mem_singleton] at h
    simp [h]
  | cons c rest ih =>
    rw [List.splitOn_cons_eq_if_modifyHead] at h
    split at h
    · rcases List.mem_cons.mp h with rfl | h
      · simp
      · exact ih h
    · rename_i hc
      obtain ⟨first, others, hsplit⟩ := List.exists_cons_of_ne_nil (List.splitOn_ne_nil '/' rest)
      rw [hsplit, List.modifyHead_cons] at h
      rcases List.mem_cons.mp h with rfl | h
      · have hne : '/' ≠ c := by
          rintro rfl
          simp at hc
        have hfirst : '/' ∉ first := ih (by simp [hsplit])
        simp [hne, hfirst]
      · exact ih (by simp [hsplit, h])

theorem slash_not_mem_pathSegments {rest part : List Char} (h : part ∈ pathSegments ('/' :: rest)) :
    '/' ∉ part := by
  simp only [pathSegments] at h
  split at h
  · exact slash_not_mem_splitOn (List.dropLast_subset _ h)
  · exact slash_not_mem_splitOn h

/-- The parser reads the paths of the grammar. -/
theorem parsePath_of_shape {barred path code : List Char} {kind : PermalinkKind}
    (hbarred : '/' ∈ barred) (h : PathShape barred path kind code) :
    parsePath path = .ok (kind, code) := by
  obtain ⟨lead, form, trail, rfl, hlead, hform, hcode, htrail⟩ := h
  have hformSlash : '/' ∉ form := slash_not_mem (pathForm_plain hform)
  have hcodeSlash : '/' ∉ code := slash_not_mem hcode.2.2
  have hfinish : (match pathForm form with
      | none => .error .notAPermalink
      | some kind => (validateShortcode code).map fun _ => (kind, code)) =
        (.ok (kind, code) : Except PermalinkError (PermalinkKind × List Char)) := by
    simp [hform, (validateShortcode_ok_iff code).mpr hcode, Except.map]
  have hread : ∀ parts : List (List Char), (∀ l ∈ parts, '/' ∉ l) → parts ≠ [] →
      parts.getLast? = some code →
      pathSegments ('/' :: (['/'].intercalate parts ++ trail)) = parts := by
    intro parts hparts hne hlast
    have hlastCode : parts.getLast? ≠ some [] := by
      rw [hlast]
      simpa using hcode.1
    rcases htrail with rfl | rfl
    · rw [List.append_nil, pathSegments_intercalate hparts hne, if_neg fun hc => hlastCode hc.2]
    · rw [← intercalate_concat_nil hne, pathSegments_intercalate ?_ (by simp), if_pos]
      · exact List.dropLast_concat
      · refine ⟨?_, List.getLast?_concat⟩
        have hpos := List.length_pos_iff.mpr hne
        simp only [List.length_append, List.length_singleton]
        omega
      · intro l hl
        rcases List.mem_append.mp hl with hl | hl
        · exact hparts l hl
        · simp [List.mem_singleton.mp hl]
  rcases hlead with rfl | ⟨segment, rfl, hsegment⟩
  · have hsegments := hread [form, code] (by simp [hformSlash, hcodeSlash]) (by simp) rfl
    have htext : ['/'].intercalate [form, code] ++ trail =
        [] ++ form ++ '/' :: (code ++ trail) := by
      simp [List.intercalate_cons_cons, List.intercalate_singleton]
    rw [htext] at hsegments
    simp only [parsePath, hsegments]
    exact hfinish
  · have hslash : '/' ∉ segment := fun hm => hsegment '/' hm hbarred
    have hsegments := hread [segment, form, code] (by simp [hslash, hformSlash, hcodeSlash])
      (by simp) rfl
    have htext : ['/'].intercalate [segment, form, code] ++ trail =
        segment ++ ['/'] ++ form ++ '/' :: (code ++ trail) := by
      simp [List.intercalate_cons_cons, List.intercalate_singleton]
    rw [htext] at hsegments
    simp only [parsePath, hsegments]
    exact hfinish

/-- The parser reads no other path. -/
theorem shape_of_parsePath {rest code : List Char} {kind : PermalinkKind}
    (hplain : ∀ c ∈ rest, c ≠ '?' ∧ c ≠ '#') (h : parsePath ('/' :: rest) = .ok (kind, code)) :
    PathShape delimiters ('/' :: rest) kind code := by
  obtain ⟨form, hsegments, hform, hcode⟩ := parsePath_segments h
  rcases hsegments with hsegments | ⟨segment, hsegments⟩
  · obtain ⟨trail, hrest, htrail⟩ := path_of_segments hsegments (by simp)
    refine ⟨[], form, trail, ?_, Or.inl rfl, hform, hcode, htrail⟩
    simp [hrest, List.intercalate_cons_cons, List.intercalate_singleton]
  · obtain ⟨trail, hrest, htrail⟩ := path_of_segments hsegments (by simp)
    have htext : rest = segment ++ ['/'] ++ form ++ '/' :: (code ++ trail) := by
      simp [hrest, List.intercalate_cons_cons, List.intercalate_singleton]
    refine ⟨segment ++ ['/'], form, trail, by rw [htext], Or.inr ⟨segment, rfl, ?_⟩, hform, hcode,
      htrail⟩
    intro c hc
    have hslash : '/' ∉ segment := slash_not_mem_pathSegments (by rw [hsegments]; simp)
    have hmem : c ∈ rest := by
      rw [htext]
      simp [hc]
    have hne : c ≠ '/' := fun he => hslash (he ▸ hc)
    simp [delimiters, hne, hplain c hmem]

/-! ## URLs -/

/-- What `canonicalize` reads off an accepted input. -/
theorem canonicalize_parts {input : String} {p : CanonicalPermalink}
    (h : canonicalize input = .ok p) :
    ∃ scheme rest kind code,
      invalidCharacter (trim input.toList) = false ∧
      splitOnce "://".toList (trim input.toList) = some (scheme, rest) ∧
      (eqIgnoreAsciiCase scheme "http".toList ∨ eqIgnoreAsciiCase scheme "https".toList) ∧
      (rest.takeWhile fun c => !(c == '/' || c == '?' || c == '#')).map Char.toLower ∈
        acceptedHosts.map String.toList ∧
      parsePath ((rest.dropWhile fun c => !(c == '/' || c == '?' || c == '#')).takeWhile
        fun c => !(c == '?' || c == '#')) = .ok (kind, code) ∧
      p = permalinkOf kind code := by
  unfold canonicalize at h
  simp only [bind, Except.bind, throw, throwThe, MonadExceptOf.throw, pure, Except.pure] at h
  split at h
  · simp at h
  rename_i hvalid
  split at h
  · rename_i scheme rest hsplit
    split at h
    · rename_i hscheme
      split at h
      · simp at h
      split at h
      · simp at h
      split at h
      · simp at h
      rename_i hhost
      split at h
      · simp at h
      rename_i parsed hparsed
      refine ⟨scheme, rest, parsed.1, parsed.2, ?_, hsplit, ?_, ?_, hparsed, (Except.ok.inj h).symm⟩
      · simp only [Bool.or_eq_true, not_or, Bool.not_eq_true] at hvalid
        exact hvalid.2
      · simpa using hscheme
      · unfold matchHost at hhost
        split at hhost
        · rename_i hmem
          simpa using hmem
        · simp at hhost
    · simp at h
  · simp at h

/-- A character that no lower-case text holds. -/
theorem not_mem_of_lower {text : List Char} {texts : List (List Char)} {c : Char}
    (h : text.map Char.toLower ∈ texts) (hc : c.toLower = c) (hnone : ∀ t ∈ texts, c ∉ t) :
    c ∉ text := by
  intro hm
  have hlower : c.toLower ∈ text.map Char.toLower := List.mem_map_of_mem hm
  rw [hc] at hlower
  exact hnone _ h hlower

theorem host_plain {host : List Char}
    (h : host.map Char.toLower ∈ acceptedHosts.map String.toList) :
    ∀ c ∈ ['/', '?', '#', '@', ':'], c ∉ host := by
  intro c hc
  have hall : ∀ c ∈ ['/', '?', '#', '@', ':'], c.toLower = c ∧
      ∀ t ∈ acceptedHosts.map String.toList, c ∉ t := List.all_iff_forall_prop.mp (by decide)
  exact not_mem_of_lower h (hall c hc).1 (hall c hc).2

theorem scheme_plain {scheme : List Char}
    (h : eqIgnoreAsciiCase scheme "http".toList ∨ eqIgnoreAsciiCase scheme "https".toList) :
    ':' ∉ scheme := by
  have hlower : scheme.map Char.toLower ∈ ["http".toList, "https".toList] := by
    rcases h with h | h
    · simp [eq_of_beq h]
    · simp [eq_of_beq h]
  exact not_mem_of_lower hlower (by decide) (by decide)

theorem PathShape.plain {path code : List Char} {kind : PermalinkKind}
    (h : PathShape delimiters path kind code) : ∀ c ∈ path, c ≠ '?' ∧ c ≠ '#' := by
  obtain ⟨lead, form, trail, rfl, hlead, hform, hcode, htrail⟩ := h
  have hletter : ∀ c, isShortcodeChar c = true → c ≠ '?' ∧ c ≠ '#' := fun c hc =>
    (shortcodeChar_plain hc).2.2.2.2
  have hslash : ('/' : Char) ≠ '?' ∧ ('/' : Char) ≠ '#' := by decide
  intro c hc
  simp only [List.mem_cons, List.mem_append] at hc
  rcases hc with rfl | (hc | hc) | rfl | hc | hc
  · exact hslash
  · rcases hlead with rfl | ⟨segment, rfl, hsegment⟩
    · simp at hc
    · rcases List.mem_append.mp hc with hc | hc
      · have hnone := hsegment c hc
        simp only [delimiters, List.mem_cons, List.not_mem_nil, or_false, not_or] at hnone
        exact hnone.2
      · rw [List.mem_singleton.mp hc]
        exact hslash
  · exact hletter c (pathForm_plain hform c hc)
  · exact hslash
  · exact hletter c (hcode.2.2 c hc)
  · rcases htrail with rfl | rfl
    · simp at hc
    · rw [List.mem_singleton.mp hc]
      exact hslash

/-- What is accepted has the shape of the grammar. -/
theorem shape_of_canonicalize {input : String} {p : CanonicalPermalink}
    (h : canonicalize input = .ok p) :
    invalidCharacter (trim input.toList) = false ∧
      ∃ kind code, UrlShape delimiters (trim input.toList) kind code ∧ p = permalinkOf kind code := by
  obtain ⟨scheme, rest, kind, code, hvalid, hsplit, hscheme, hhost, hpath, rfl⟩ :=
    canonicalize_parts h
  refine ⟨hvalid, kind, code, ?_, rfl⟩
  have htext := splitOnce_eq_some hsplit
  generalize hauthority : rest.takeWhile (fun c => !(c == '/' || c == '?' || c == '#')) = host at hhost
  generalize htail : rest.dropWhile (fun c => !(c == '/' || c == '?' || c == '#')) = tail at hpath
  have hrest : rest = host ++ tail := by
    rw [← hauthority, ← htail, List.takeWhile_append_dropWhile]
  -- the tail begins with what ended the host
  have hstart : ∀ c, tail.head? = some c → c = '/' ∨ c = '?' ∨ c = '#' := by
    intro c hc
    have hstop := List.head?_dropWhile_not (fun c => !(c == '/' || c == '?' || c == '#')) rest
    rw [htail, hc] at hstop
    simp only [Bool.not_eq_false', Bool.or_eq_true, beq_iff_eq, or_assoc] at hstop
    exact hstop
  generalize hfront : tail.takeWhile (fun c => !(c == '?' || c == '#')) = path at hpath
  have hcut : tail = path ++ tail.dropWhile fun c => !(c == '?' || c == '#') := by
    rw [← hfront, List.takeWhile_append_dropWhile]
  have hplain : ∀ c ∈ path, c ≠ '?' ∧ c ≠ '#' := by
    intro c hc
    rw [← hfront] at hc
    simpa using List.mem_takeWhile_imp hc
  have hshape : PathShape delimiters path kind code := by
    cases path with
    | nil => simp [parsePath, pathSegments, pathForm] at hpath
    | cons c more =>
      have hc := hstart c (by rw [hcut]; rfl)
      have hmore := hplain c (by simp)
      obtain rfl : c = '/' := by
        rcases hc with hc | hc | hc
        · exact hc
        · exact (hmore.1 hc).elim
        · exact (hmore.2 hc).elim
      exact shape_of_parsePath (fun d hd => hplain d (List.mem_cons_of_mem _ hd)) hpath
  refine ⟨scheme, host, path, tail.dropWhile (fun c => !(c == '?' || c == '#')), ?_, hscheme,
    hhost, hshape, ?_⟩
  · rw [htext, hrest]
    exact congrArg (fun t => scheme ++ "://".toList ++ (host ++ t)) hcut
  · cases hsuffix : tail.dropWhile (fun c => !(c == '?' || c == '#')) with
    | nil => exact Or.inl rfl
    | cons c more =>
      have hstop := List.head?_dropWhile_not (fun c => !(c == '?' || c == '#')) tail
      rw [hsuffix] at hstop
      simp only [List.head?_cons, Bool.not_eq_false', Bool.or_eq_true, beq_iff_eq] at hstop
      exact Or.inr ⟨c, more, rfl, hstop⟩

/-- What has the shape of the grammar is accepted. -/
theorem canonicalize_of_shape {input : String} {kind : PermalinkKind} {code : List Char}
    (hvalid : invalidCharacter (trim input.toList) = false)
    (h : UrlShape delimiters (trim input.toList) kind code) :
    canonicalize input = .ok (permalinkOf kind code) := by
  obtain ⟨scheme, host, path, suffix, htext, hscheme, hhost, hpath, hsuffix⟩ := h
  have hne : (trim input.toList).isEmpty = false := by
    rw [htext]
    simp
  have hsplit : splitOnce "://".toList (trim input.toList) = some (scheme, host ++ (path ++ suffix)) := by
    rw [htext]
    exact splitOnce_of_not_mem (scheme_plain hscheme)
  have hhostStop : ∀ c ∈ host, (!(c == '/' || c == '?' || c == '#')) = true := by
    intro c hc
    have hnone : ∀ d ∈ ['/', '?', '#', '@', ':'], c ≠ d := fun d hd he =>
      host_plain hhost d hd (he ▸ hc)
    simp [hnone '/' (by simp), hnone '?' (by simp), hnone '#' (by simp)]
  have hpathStart : ∀ c, (path ++ suffix).head? = some c →
      (!(c == '/' || c == '?' || c == '#')) = false := by
    intro c hc
    obtain ⟨lead, form, trail, rfl, -⟩ := hpath
    cases hc
    rfl
  obtain ⟨hauthority, htail⟩ := takeWhile_append_stop hhostStop hpathStart
  have hsuffixStart : ∀ c, suffix.head? = some c → (!(c == '?' || c == '#')) = false := by
    intro c hc
    rcases hsuffix with rfl | ⟨d, more, rfl, hd⟩
    · cases hc
    · cases hc
      rcases hd with rfl | rfl <;> rfl
  have hpathPlain : ∀ c ∈ path, (!(c == '?' || c == '#')) = true := by
    intro c hc
    simp [hpath.plain c hc]
  obtain ⟨hcut, -⟩ := takeWhile_append_stop hpathPlain hsuffixStart
  have hauthorityNe : host.isEmpty = false := by
    cases host with
    | nil => exact absurd hhost (by decide)
    | cons c more => rfl
  have hplainAuthority : (host.contains '@' || host.contains ':') = false := by
    simp [host_plain hhost '@' (by simp), host_plain hhost ':' (by simp)]
  have hmatch : matchHost host = .ok () := by
    unfold matchHost
    rw [if_pos (by simpa using hhost)]
  have hschemeOk : (eqIgnoreAsciiCase scheme "http".toList ||
      eqIgnoreAsciiCase scheme "https".toList) = true := by simpa using hscheme
  unfold canonicalize
  simp only [hne, hvalid, hsplit, hschemeOk, hauthority, htail, hauthorityNe, hplainAuthority, hmatch,
    hcut, parsePath_of_shape (by simp [delimiters]) hpath]
  rfl

/-- Whether an input has the shape, once it is trimmed, and holds nothing that no URL holds. -/
def Accepted (barred : List Char) (input : String) (kind : PermalinkKind) (code : List Char) : Prop :=
  invalidCharacter (trim input.toList) = false ∧ UrlShape barred (trim input.toList) kind code

theorem canonicalize_ok_iff (input : String) (p : CanonicalPermalink) :
    canonicalize input = .ok p ↔
      ∃ kind code, Accepted delimiters input kind code ∧ p = permalinkOf kind code := by
  constructor
  · intro h
    obtain ⟨hvalid, kind, code, hshape, hp⟩ := shape_of_canonicalize h
    exact ⟨kind, code, ⟨hvalid, hshape⟩, hp⟩
  · rintro ⟨kind, code, ⟨hvalid, hshape⟩, rfl⟩
    exact canonicalize_of_shape hvalid hshape

theorem permalinkOf_inj {kind kind' : PermalinkKind} {code code' : List Char} :
    permalinkOf kind code = permalinkOf kind' code' ↔ kind = kind' ∧ code = code' := by
  constructor
  · intro h
    exact ⟨congrArg CanonicalPermalink.kind h, String.ofList_injective (congrArg CanonicalPermalink.shortcode h)⟩
  · rintro ⟨rfl, rfl⟩
    rfl

/-- **`canonicalize` accepts exactly its grammar and answers a normal form.** -/
theorem canonicalize_grammar :
    (∀ (input : String) (p : CanonicalPermalink), canonicalize input = .ok p ↔
      ∃ kind code, Accepted delimiters input kind code ∧
        p = ⟨canonicalUrl kind (String.ofList code), kind, String.ofList code⟩) ∧
    (∀ (input : String) (p : CanonicalPermalink), canonicalize input = .ok p →
      canonicalize p.url = .ok p) ∧
    ∀ (input input' : String) (kind kind' : PermalinkKind) (code code' : List Char),
      Accepted delimiters input kind code → Accepted delimiters input' kind' code' →
        (canonicalize input = canonicalize input' ↔ kind = kind' ∧ code = code') := by
  refine ⟨canonicalize_ok_iff, fun input p h => canonicalize_url h, ?_⟩
  intro input input' kind kind' code code' h h'
  rw [canonicalize_of_shape h.1 h.2, canonicalize_of_shape h'.1 h'.2, Except.ok.injEq]
  exact permalinkOf_inj

/-- A segment may not hold a query: what stands behind `?` is not read. -/
theorem canonicalize_segment_query :
    ¬ ∀ (input : String), (∃ p, canonicalize input = .ok p) ↔
      ∃ kind code, Accepted ['/'] input kind code := by
  intro h
  have hrefused : canonicalize "https://instagram.com/x?y/p/ABC" = .error .notAPermalink := by
    decide +kernel
  obtain ⟨p, hp⟩ := (h "https://instagram.com/x?y/p/ABC").mpr
    ⟨.post, "ABC".toList, by decide +kernel, "https".toList, "instagram.com".toList,
      "/x?y/p/ABC".toList, [], by decide +kernel, Or.inr (by decide +kernel), by decide +kernel,
      ⟨"x?y/".toList, "p".toList, [], by decide +kernel, Or.inr ⟨"x?y".toList, by decide +kernel,
        List.all_iff_forall_prop.mp (by decide +kernel)⟩, by decide +kernel,
        ⟨by decide +kernel, by decide +kernel,
          List.all_iff_forall_prop.mp (by decide +kernel)⟩, Or.inl rfl⟩, Or.inl rfl⟩
  rw [hrefused] at hp
  cases hp

end InstagramArchive.Permalink

import Mathlib.Data.List.TakeWhile

/-!
# Canonicalization of client-delivered permalinks

`canonicalize` reads a URL as the client delivered it and either refuses it with
a closed error class or returns the one canonical permalink it names. A `&str`
is read through its list of characters; the length bound on a shortcode counts
bytes in the source and characters here, which agree because a shortcode that
passes the alphabet check is ASCII.

`canonicalize_url` says that the result is a normal form: the canonical URL of
an accepted input canonicalizes to the same permalink.
-/

namespace InstagramArchive.Permalink

/-- The longest shortcode this service accepts. -/
def shortcodeMax : Nat := 64

/-- The canonical path form of a permalink. -/
inductive PermalinkKind where
  | post
  | reel
  | igtv
  deriving DecidableEq, Repr

/-- The canonical path segment of a kind. -/
def PermalinkKind.pathSegment : PermalinkKind → String
  | .post => "p"
  | .reel => "reel"
  | .igtv => "tv"

/-- Why a URL is not a canonicalizable permalink. -/
inductive PermalinkError where
  | malformed
  | foreignHost
  | notAPermalink
  | unsupportedAuthority
  | invalidShortcode
  deriving DecidableEq, Repr

/-- One canonicalized permalink. -/
structure CanonicalPermalink where
  url : String
  kind : PermalinkKind
  shortcode : String
  deriving DecidableEq, Repr

/-! ## Characters -/

/-- `char::is_whitespace`: the Unicode property `White_Space`. -/
def isWhitespace (c : Char) : Bool :=
  (0x09 ≤ c.toNat && c.toNat ≤ 0x0d) || c.toNat == 0x20 || c.toNat == 0x85 || c.toNat == 0xa0 ||
    c.toNat == 0x1680 || (0x2000 ≤ c.toNat && c.toNat ≤ 0x200a) || c.toNat == 0x2028 ||
    c.toNat == 0x2029 || c.toNat == 0x202f || c.toNat == 0x205f || c.toNat == 0x3000

/-- `char::is_ascii_whitespace`, which leaves out the vertical tab. -/
def isAsciiWhitespace (c : Char) : Bool :=
  c.toNat == 0x20 || c.toNat == 0x09 || c.toNat == 0x0a || c.toNat == 0x0c || c.toNat == 0x0d

/-- `char::is_control`: the general category `Cc`. -/
def isControl (c : Char) : Bool :=
  c.toNat ≤ 0x1f || (0x7f ≤ c.toNat && c.toNat ≤ 0x9f)

def isShortcodeChar (c : Char) : Bool := c.isAlphanum || c == '_' || c == '-'

/-! ## The parser -/

/-- `str::trim`. -/
def trim (input : List Char) : List Char :=
  ((input.dropWhile isWhitespace).reverse.dropWhile isWhitespace).reverse

/-- Characters that can never appear in a shareable URL. -/
def invalidCharacter (input : List Char) : Bool :=
  input.any fun character => isAsciiWhitespace character || isControl character

/-- `str::split_once`: the parts before and after the first occurrence. -/
def splitOnce (pattern : List Char) : List Char → Option (List Char × List Char)
  | [] => if pattern.isEmpty then some ([], []) else none
  | c :: rest =>
    if pattern.isPrefixOf (c :: rest) then some ([], (c :: rest).drop pattern.length)
    else (splitOnce pattern rest).map fun parts => (c :: parts.1, parts.2)

/-- Equality up to ASCII case. -/
def eqIgnoreAsciiCase (a b : List Char) : Bool := a.map Char.toLower == b.map Char.toLower

def acceptedHosts : List String :=
  ["instagram.com", "www.instagram.com", "m.instagram.com", "l.instagram.com", "instagr.am",
    "www.instagr.am"]

/-- Refuses every host but the accepted ones. -/
def matchHost (authority : List Char) : Except PermalinkError Unit :=
  if (acceptedHosts.map String.toList).contains (authority.map Char.toLower) then .ok ()
  else .error .foreignHost

/-- The canonical form a path segment names. -/
def pathForm (segment : List Char) : Option PermalinkKind :=
  if segment = "p".toList then some .post
  else if segment = "reel".toList ∨ segment = "reels".toList then some .reel
  else if segment = "tv".toList then some .igtv
  else none

/-- The shortcode alphabet `[A-Za-z0-9_-]{1..=64}`. -/
def validateShortcode (shortcode : List Char) : Except PermalinkError Unit :=
  if !shortcode.isEmpty && shortcode.length ≤ shortcodeMax && shortcode.all isShortcodeChar then
    .ok ()
  else .error .invalidShortcode

/-- The segments of a path, without the artifact of one trailing slash. -/
def pathSegments (path : List Char) : List (List Char) :=
  let stripped := match path with
    | '/' :: rest => rest
    | _ => path
  let segments := stripped.splitOn '/'
  if segments.length > 1 ∧ segments.getLast? = some [] then segments.dropLast else segments

/-- Parses the path portion into a kind and a validated shortcode. -/
def parsePath (path : List Char) : Except PermalinkError (PermalinkKind × List Char) :=
  let finish (form shortcode : List Char) : Except PermalinkError (PermalinkKind × List Char) :=
    match pathForm form with
    | none => .error .notAPermalink
    | some kind => (validateShortcode shortcode).map fun _ => (kind, shortcode)
  match pathSegments path with
  | [only] => if (pathForm only).isSome then .error .invalidShortcode else .error .notAPermalink
  | [form, code] => finish form code
  | [_, form, code] => finish form code
  | _ => .error .notAPermalink

/-- The stable form `https://www.instagram.com/{form}/{shortcode}/`. -/
def canonicalUrl (kind : PermalinkKind) (shortcode : String) : String :=
  "https://www.instagram.com/" ++ kind.pathSegment ++ "/" ++ shortcode ++ "/"

/-- Canonicalizes one client-delivered URL into its stable permalink. -/
def canonicalize (input : String) : Except PermalinkError CanonicalPermalink := do
  let trimmed := trim input.toList
  if trimmed.isEmpty || invalidCharacter trimmed then throw .malformed
  let some (scheme, rest) := splitOnce "://".toList trimmed | throw .malformed
  unless eqIgnoreAsciiCase scheme "http".toList || eqIgnoreAsciiCase scheme "https".toList do
    throw .malformed
  let delimiter (c : Char) : Bool := c == '/' || c == '?' || c == '#'
  let authority := rest.takeWhile fun c => !delimiter c
  let tail := rest.dropWhile fun c => !delimiter c
  if authority.isEmpty then throw .malformed
  if authority.contains '@' || authority.contains ':' then throw .unsupportedAuthority
  matchHost authority
  let path := tail.takeWhile fun c => !(c == '?' || c == '#')
  let (kind, shortcode) ← parsePath path
  return { url := canonicalUrl kind (String.ofList shortcode), kind,
           shortcode := String.ofList shortcode }

example : canonicalize " HTTPS://Instagr.am/someone/reels/Ab_1?igsh=x" =
    .ok ⟨"https://www.instagram.com/reel/Ab_1/", .reel, "Ab_1"⟩ := by rfl

/-! ## The canonical URL is a fixed point -/

/-- What the shortcode check accepts. -/
def ValidShortcode (code : List Char) : Prop :=
  code ≠ [] ∧ code.length ≤ shortcodeMax ∧ ∀ c ∈ code, isShortcodeChar c = true

theorem validateShortcode_ok_iff (code : List Char) :
    validateShortcode code = .ok () ↔ ValidShortcode code := by
  unfold validateShortcode ValidShortcode
  split
  · rename_i h
    simpa [and_assoc] using h
  · rename_i h
    simpa [and_assoc] using h

theorem parsePath_valid {path : List Char} {kind : PermalinkKind} {code : List Char}
    (h : parsePath path = .ok (kind, code)) : ValidShortcode code := by
  have finish : ∀ form shortcode : List Char,
      (match pathForm form with
        | none => .error .notAPermalink
        | some kind => (validateShortcode shortcode).map fun _ => (kind, shortcode)) =
          (.ok (kind, code) : Except PermalinkError _) → ValidShortcode code := by
    intro form shortcode h
    cases hf : pathForm form with
    | none => simp [hf] at h
    | some k =>
      cases hv : validateShortcode shortcode with
      | error e => simp [hf, hv, Except.map] at h
      | ok u =>
        simp [hf, hv, Except.map] at h
        exact h.2 ▸ (validateShortcode_ok_iff shortcode).mp hv
  unfold parsePath at h
  simp only at h
  split at h
  · split at h <;> simp at h
  · exact finish _ _ h
  · exact finish _ _ h
  · simp at h

/-- The permalink of a kind and a shortcode. -/
def permalinkOf (kind : PermalinkKind) (code : List Char) : CanonicalPermalink :=
  ⟨canonicalUrl kind (String.ofList code), kind, String.ofList code⟩

theorem canonicalize_ok {input : String} {p : CanonicalPermalink} (h : canonicalize input = .ok p) :
    ∃ kind code, ValidShortcode code ∧ p = permalinkOf kind code := by
  unfold canonicalize at h
  simp only [bind, Except.bind, throw, throwThe, MonadExceptOf.throw, pure, Except.pure] at h
  repeat' split at h
  all_goals try simp only [reduceCtorEq] at h
  rename_i parsed hparsed
  exact ⟨parsed.1, parsed.2, parsePath_valid hparsed, (Except.ok.inj h).symm⟩

/-! The canonical URL, character by character. -/

theorem shortcodeChar_plain {c : Char} (h : isShortcodeChar c = true) :
    isWhitespace c = false ∧ isAsciiWhitespace c = false ∧ isControl c = false ∧
      c ≠ '/' ∧ c ≠ '?' ∧ c ≠ '#' := by
  have hc : (48 ≤ c.toNat ∧ c.toNat ≤ 57) ∨ (65 ≤ c.toNat ∧ c.toNat ≤ 90) ∨ c.toNat = 95 ∨
      (97 ≤ c.toNat ∧ c.toNat ≤ 122) ∨ c.toNat = 45 := by
    unfold isShortcodeChar at h
    delta Char.isAlphanum Char.isAlpha Char.isUpper Char.isLower Char.isDigit at h
    simp only [Bool.or_eq_true, Bool.and_eq_true, decide_eq_true_eq, beq_iff_eq] at h
    rcases h with (((h | h) | h) | h) | h
    · exact Or.inr (Or.inl h)
    · exact Or.inr (Or.inr (Or.inr (Or.inl h)))
    · exact Or.inl h
    · subst h; decide
    · subst h; decide
  have ne : ∀ d : Char, d.toNat ≠ c.toNat → c ≠ d := fun d hd e => hd (e ▸ rfl)
  refine ⟨?_, ?_, ?_, ne _ ?_, ne _ ?_, ne _ ?_⟩
  · simp [isWhitespace]; omega
  · simp [isAsciiWhitespace]; omega
  · simp [isControl]; omega
  · have : ('/' : Char).toNat = 47 := rfl
    omega
  · have : ('?' : Char).toNat = 63 := rfl
    omega
  · have : ('#' : Char).toNat = 35 := rfl
    omega

theorem trim_eq_self (c d : Char) (middle : List Char) (hc : isWhitespace c = false)
    (hd : isWhitespace d = false) : trim (c :: (middle ++ [d])) = c :: (middle ++ [d]) := by
  simp [trim, hc, hd]

/-- The path of a canonical URL. -/
def canonicalPath (kind : PermalinkKind) (code : List Char) : List Char :=
  '/' :: (kind.pathSegment.toList ++ '/' :: (code ++ ['/']))

theorem canonicalUrl_toList (kind : PermalinkKind) (code : List Char) :
    (canonicalUrl kind (String.ofList code)).toList =
      "https://www.instagram.com".toList ++ canonicalPath kind code := by
  have pieces : ∀ a b c d e : String, (a ++ b ++ c ++ d ++ e).toList =
      a.toList ++ (b.toList ++ (c.toList ++ (d.toList ++ e.toList))) := by
    intro a b c d e
    simp only [String.toList_append, List.append_assoc]
  have hhost : "https://www.instagram.com/".toList = "https://www.instagram.com".toList ++ ['/'] := by
    decide
  refine (pieces _ _ _ _ _).trans ?_
  rw [hhost, List.append_assoc, String.toList_ofList (l := code)]
  rfl

theorem pathForm_pathSegment (kind : PermalinkKind) :
    pathForm kind.pathSegment.toList = some kind := by
  cases kind <;> decide

theorem pathSegment_plain (kind : PermalinkKind) :
    ∀ c ∈ kind.pathSegment.toList, isShortcodeChar c = true := by
  have hall : kind.pathSegment.toList.all isShortcodeChar = true := by
    cases kind <;> decide
  exact List.all_eq_true.mp hall

theorem pathSegments_canonicalPath (kind : PermalinkKind) (code : List Char)
    (hcode : ∀ c ∈ code, isShortcodeChar c = true) :
    pathSegments (canonicalPath kind code) = [kind.pathSegment.toList, code] := by
  have hsplit : (kind.pathSegment.toList ++ '/' :: (code ++ ['/'])).splitOn '/' =
      [kind.pathSegment.toList, code, []] := by
    have hne : ∀ l ∈ [kind.pathSegment.toList, code, []], '/' ∉ l := by
      intro l hl hmem
      simp only [List.mem_cons, List.not_mem_nil, or_false] at hl
      rcases hl with rfl | rfl | rfl
      · exact (shortcodeChar_plain (pathSegment_plain kind _ hmem)).2.2.2.1 rfl
      · exact (shortcodeChar_plain (hcode _ hmem)).2.2.2.1 rfl
      · simp at hmem
    have h := List.splitOn_intercalate '/' hne (by simp)
    simpa [List.intercalate, List.intersperse] using h
  simp [pathSegments, canonicalPath, hsplit]

theorem parsePath_canonicalPath (kind : PermalinkKind) (code : List Char)
    (hcode : ValidShortcode code) : parsePath (canonicalPath kind code) = .ok (kind, code) := by
  unfold parsePath
  simp only [pathSegments_canonicalPath kind code hcode.2.2, pathForm_pathSegment,
    (validateShortcode_ok_iff code).mpr hcode, Except.map]

theorem canonicalPath_plain (kind : PermalinkKind) (code : List Char)
    (hcode : ∀ c ∈ code, isShortcodeChar c = true) :
    ∀ c ∈ canonicalPath kind code, isAsciiWhitespace c = false ∧ isControl c = false ∧
      c ≠ '?' ∧ c ≠ '#' := by
  intro c hc
  have plain : isShortcodeChar c = true → isAsciiWhitespace c = false ∧ isControl c = false ∧
      c ≠ '?' ∧ c ≠ '#' := fun h =>
    have hp := shortcodeChar_plain h
    ⟨hp.2.1, hp.2.2.1, hp.2.2.2.2.1, hp.2.2.2.2.2⟩
  simp only [canonicalPath, List.mem_cons, List.mem_append, List.not_mem_nil, or_false] at hc
  rcases hc with rfl | hc | rfl | hc | rfl
  · decide
  · exact plain (pathSegment_plain kind c hc)
  · decide
  · exact plain (hcode c hc)
  · decide

theorem canonicalize_canonicalUrl (kind : PermalinkKind) (code : List Char)
    (hcode : ValidShortcode code) :
    canonicalize (canonicalUrl kind (String.ofList code)) = .ok (permalinkOf kind code) := by
  have hplain := canonicalPath_plain kind code hcode.2.2
  have htrim : trim ("https://www.instagram.com".toList ++ canonicalPath kind code) =
      "https://www.instagram.com".toList ++ canonicalPath kind code := by
    have h := trim_eq_self 'h' '/' ("ttps://www.instagram.com".toList ++
      '/' :: (kind.pathSegment.toList ++ '/' :: code)) (by decide) (by decide)
    simpa [canonicalPath] using h
  have hinvalid : invalidCharacter ("https://www.instagram.com".toList ++ canonicalPath kind code) =
      false := by
    rw [invalidCharacter, List.any_append]
    have htail : (canonicalPath kind code).any
        (fun c => isAsciiWhitespace c || isControl c) = false := by
      rw [List.any_eq_false]
      intro c hc
      simp [(hplain c hc).1, (hplain c hc).2.1]
    rw [htail]
    decide
  have hsplit : splitOnce "://".toList ("https://www.instagram.com".toList ++ canonicalPath kind code) =
      some ("https".toList, "www.instagram.com".toList ++ canonicalPath kind code) := rfl
  have hauthority : ("www.instagram.com".toList ++ canonicalPath kind code).takeWhile
      (fun c => !(c == '/' || c == '?' || c == '#')) = "www.instagram.com".toList := rfl
  have htail : ("www.instagram.com".toList ++ canonicalPath kind code).dropWhile
      (fun c => !(c == '/' || c == '?' || c == '#')) = canonicalPath kind code := rfl
  have hpath : (canonicalPath kind code).takeWhile (fun c => !(c == '?' || c == '#')) =
      canonicalPath kind code := by
    rw [List.takeWhile_eq_self_iff]
    intro c hc
    simp [(hplain c hc).2.2.1, (hplain c hc).2.2.2]
  have hscheme : (eqIgnoreAsciiCase "https".toList "http".toList ||
      eqIgnoreAsciiCase "https".toList "https".toList) = true := by decide
  have hplainAuthority : ("www.instagram.com".toList.contains '@' ||
      "www.instagram.com".toList.contains ':') = false := by decide
  have hhost : matchHost "www.instagram.com".toList = .ok () := rfl
  unfold canonicalize
  simp only [canonicalUrl_toList, htrim, hinvalid, hsplit, hauthority, htail, hpath, hscheme,
    hplainAuthority, hhost, parsePath_canonicalPath kind code hcode]
  rfl

/-- **The canonical URL is a normal form.** Canonicalizing the URL of an accepted
input gives the same permalink again. -/
theorem canonicalize_url {input : String} {p : CanonicalPermalink}
    (h : canonicalize input = .ok p) : canonicalize p.url = .ok p := by
  obtain ⟨kind, code, hcode, rfl⟩ := canonicalize_ok h
  exact canonicalize_canonicalUrl kind code hcode

end InstagramArchive.Permalink

import InstagramArchive.EvidenceKeys

/-!
# JSON texts and their values

A text has the members of an object in some order and may name one twice; the map of the value
keeps them by name, and of two members of one name the later. A `Json` stands for a text here as
it does for a value: `value` is what a text is read as.

The text of a value determines it, as floats are written so that they are told from integers.
-/

namespace InstagramArchive.Json

/-! ## Values of texts -/

/-- One member read into the map of an object. -/
def insertMember (name : String) (v : Json) : List (String × Json) → List (String × Json)
  | [] => [(name, v)]
  | m :: rest =>
    if name < m.1 then (name, v) :: m :: rest
    else if name = m.1 then (name, v) :: rest
    else m :: insertMember name v rest

mutual

/-- What `serde_json::from_slice` reads a text as. -/
def value : Json → Json
  | arr values => arr (valueAll values)
  | obj members => obj (valueMembers [] members)
  | v => v

def valueAll : List Json → List Json
  | [] => []
  | v :: rest => v.value :: valueAll rest

/-- The members read into a map one after the other. -/
def valueMembers : List (String × Json) → List (String × Json) → List (String × Json)
  | map, [] => map
  | map, (name, v) :: rest => valueMembers (insertMember name v.value map) rest

end

theorem valueAll_eq_map (values : List Json) : valueAll values = values.map value := by
  induction values with
  | nil => rfl
  | cons v rest ih => rw [valueAll, ih, List.map_cons]

theorem valueMembers_eq_foldl (map members : List (String × Json)) :
    valueMembers map members = members.foldl (fun map m => insertMember m.1 m.2.value map) map := by
  induction members generalizing map with
  | nil => rfl
  | cons m rest ih => rw [valueMembers, ih, List.foldl_cons]

/-- Members of two names are read in either order. -/
theorem insertMember_comm {name name' : String} (hne : name ≠ name') (v v' : Json)
    (map : List (String × Json)) :
    insertMember name v (insertMember name' v' map) =
      insertMember name' v' (insertMember name v map) := by
  wlog hlt : name < name' generalizing name name' v v'
  · have hgt : name' < name := lt_of_le_of_ne (not_lt.mp hlt) hne.symm
    exact (this hne.symm v' v hgt).symm
  have hnot : ¬ name' < name := not_lt_of_gt hlt
  induction map with
  | nil => simp [insertMember, hlt, hnot, hne.symm]
  | cons m rest ih =>
    rcases lt_trichotomy name' m.1 with h' | h' | h'
    · have h : name < m.1 := hlt.trans h'
      simp [insertMember, h, h', hlt, hnot, hne.symm]
    · have h : name < m.1 := h' ▸ hlt
      simp [insertMember, h', h, h.ne', not_lt_of_gt h]
    · rcases lt_trichotomy name m.1 with h | h | h
      · simp [insertMember, h, h'.ne', not_lt_of_gt h', hnot, hne.symm]
      · subst h
        simp [insertMember, h'.ne', not_lt_of_gt h']
      · simp [insertMember, h'.ne', not_lt_of_gt h', h.ne', not_lt_of_gt h, ih]

theorem valueMembers_perm {members members' : List (String × Json)}
    (hperm : members.Perm members') (hnames : (members.map Prod.fst).Nodup)
    (map : List (String × Json)) : valueMembers map members = valueMembers map members' := by
  rw [valueMembers_eq_foldl, valueMembers_eq_foldl]
  apply hperm.foldl_eq'
  intro m hm m' hm' map
  by_cases hname : m.1 = m'.1
  · have heq : m = m' := List.inj_on_of_nodup_map hnames hm hm' hname
    rw [heq]
  · exact insertMember_comm (Ne.symm hname) _ _ _

/-- Texts that differ in the order of members of different names, in objects anywhere inside. -/
inductive Shuffled : Json → Json → Prop where
  | refl (t : Json) : Shuffled t t
  | trans {a b c : Json} : Shuffled a b → Shuffled b c → Shuffled a c
  | element {v w : Json} (before after : List Json) :
      Shuffled v w → Shuffled (arr (before ++ v :: after)) (arr (before ++ w :: after))
  | member {v w : Json} (name : String) (before after : List (String × Json)) :
      Shuffled v w →
        Shuffled (obj (before ++ (name, v) :: after)) (obj (before ++ (name, w) :: after))
  | members {members members' : List (String × Json)} :
      members.Perm members' → (members.map Prod.fst).Nodup → Shuffled (obj members) (obj members')

/-- They are read as one value. -/
theorem Shuffled.value_eq {t t' : Json} (h : Shuffled t t') : t.value = t'.value := by
  induction h with
  | refl => rfl
  | trans _ _ ih ih' => exact ih.trans ih'
  | element before after _ ih =>
    simp only [value, valueAll_eq_map, List.map_append, List.map_cons, ih]
  | member name before after _ ih =>
    simp only [value, valueMembers_eq_foldl, List.foldl_append, List.foldl_cons, ih]
  | members hperm hnames => rw [value, value, valueMembers_perm hperm hnames]

/-- Maps whose members are related one by one stay so when related members are read. -/
theorem insertMember_related {r : String × Json → String × Json → Prop}
    (hname : ∀ m m', r m m' → m.1 = m'.1) {name : String} {v v' : Json}
    (hnew : r (name, v) (name, v')) {map map' : List (String × Json)}
    (h : List.Forall₂ r map map') :
    List.Forall₂ r (insertMember name v map) (insertMember name v' map') := by
  induction h with
  | nil => exact .cons hnew .nil
  | @cons m m' rest rest' hm hrest ih =>
    unfold insertMember
    rw [hname m m' hm]
    split
    · exact .cons hnew (.cons hm hrest)
    · split
      · exact .cons hnew hrest
      · exact .cons hm ih

theorem valueMembers_related {r : String × Json → String × Json → Prop}
    (hname : ∀ m m', r m m' → m.1 = m'.1) (hrefl : ∀ m, r m m) (members : List (String × Json))
    {map map' : List (String × Json)} (h : List.Forall₂ r map map') :
    List.Forall₂ r (valueMembers map members) (valueMembers map' members) := by
  induction members generalizing map map' with
  | nil => exact h
  | cons m rest ih => exact ih (insertMember_related hname (hrefl (m.1, m.2.value)) h)

/-! ## Texts of values -/

def numberChar (c : Char) : Bool := c.isDigit || c = '-' || c = '.' || c = 'e'

/-- A text that `serde_json` writes for a float: never without a point or an exponent. -/
structure FloatText (text : String) : Prop where
  chars : ∀ c ∈ text.toList, numberChar c = true
  mark : '.' ∈ text.toList ∨ 'e' ∈ text.toList

mutual

/-- Every float of the value carries such a text. -/
def Printed : Json → Prop
  | float text => FloatText text
  | arr values => PrintedAll values
  | obj members => PrintedMembers members
  | _ => True

def PrintedAll : List Json → Prop
  | [] => True
  | v :: rest => v.Printed ∧ PrintedAll rest

def PrintedMembers : List (String × Json) → Prop
  | [] => True
  | (_, v) :: rest => v.Printed ∧ PrintedMembers rest

end

theorem printedAll_iff (values : List Json) : PrintedAll values ↔ ∀ v ∈ values, v.Printed := by
  induction values with
  | nil => simp [PrintedAll]
  | cons v rest ih => rw [PrintedAll, ih, List.forall_mem_cons]

theorem printedMembers_iff (members : List (String × Json)) :
    PrintedMembers members ↔ ∀ m ∈ members, m.2.Printed := by
  induction members with
  | nil => simp [PrintedMembers]
  | cons m rest ih => rw [PrintedMembers, ih, List.forall_mem_cons]

theorem mem_insertMember {name : String} {v : Json} {map : List (String × Json)}
    {m : String × Json} (h : m ∈ insertMember name v map) : m = (name, v) ∨ m ∈ map := by
  induction map with
  | nil => simpa [insertMember] using h
  | cons m' rest ih =>
    unfold insertMember at h
    split at h
    · simpa using h
    · split at h
      · rcases List.mem_cons.mp h with h | h
        · exact .inl h
        · exact .inr (List.mem_cons_of_mem _ h)
      · rcases List.mem_cons.mp h with rfl | h
        · exact .inr List.mem_cons_self
        · exact (ih h).imp_right (List.mem_cons_of_mem _)

mutual

theorem Printed.value (t : Json) (h : t.Printed) : t.value.Printed := by
  cases t with
  | arr values => exact PrintedAll.valueAll values h
  | obj members =>
    exact (printedMembers_iff _).mpr (PrintedMembers.valueMembers members (by simp) h)
  | _ => exact h

theorem PrintedAll.valueAll (values : List Json) (h : PrintedAll values) :
    PrintedAll (valueAll values) := by
  cases values with
  | nil => trivial
  | cons v rest => exact ⟨Printed.value v h.1, PrintedAll.valueAll rest h.2⟩

theorem PrintedMembers.valueMembers (members : List (String × Json))
    {map : List (String × Json)} (hmap : ∀ m ∈ map, m.2.Printed) (h : PrintedMembers members) :
    ∀ m ∈ valueMembers map members, m.2.Printed := by
  cases members with
  | nil => exact hmap
  | cons m rest =>
    have hnew : m.2.value.Printed := Printed.value m.2 h.1
    apply PrintedMembers.valueMembers rest _ h.2
    intro other hother
    rcases mem_insertMember hother with rfl | hother
    · exact hnew
    · exact hmap other hother

end

/-! ### Strings -/

def hexValue (c : Char) : Nat := "0123456789abcdef".toList.idxOf c

/-- The first character of a quoted text, and what follows it. -/
def readJsonChar : List Char → Option (Char × List Char)
  | '"' :: _ => none
  | '\\' :: '"' :: rest => some ('"', rest)
  | '\\' :: '\\' :: rest => some ('\\', rest)
  | '\\' :: 'n' :: rest => some ('\n', rest)
  | '\\' :: 'r' :: rest => some ('\r', rest)
  | '\\' :: 't' :: rest => some ('\t', rest)
  | '\\' :: 'b' :: rest => some (Char.ofNat 8, rest)
  | '\\' :: 'f' :: rest => some (Char.ofNat 12, rest)
  | '\\' :: 'u' :: '0' :: '0' :: x :: y :: rest => some (Char.ofNat (16 * hexValue x + hexValue y), rest)
  | c :: rest => some (c, rest)
  | [] => none

theorem hexValue_hexNibble :
    ∀ n < 32, 16 * hexValue (hexNibble (n / 16)) + hexValue (hexNibble n) = n := by decide

theorem readJsonChar_jsonChar (c : Char) (rest : List Char) :
    readJsonChar (jsonChar c ++ rest) = some (c, rest) := by
  unfold jsonChar
  split
  · next h => simp [readJsonChar, h]
  · split
    · next h => simp [readJsonChar, h]
    · next hback =>
      split
      · next h => simp [readJsonChar, h]
      · split
        · next h => simp [readJsonChar, h]
        · split
          · next h => simp [readJsonChar, h]
          · split
            · next h =>
              have hc : Char.ofNat 8 = c := by rw [← h, Char.ofNat_toNat]
              simpa [readJsonChar] using hc
            · split
              · next h =>
                have hc : Char.ofNat 12 = c := by rw [← h, Char.ofNat_toNat]
                simpa [readJsonChar] using hc
              · split
                · next h => simp [readJsonChar, hexValue_hexNibble _ h, Char.ofNat_toNat]
                · simp [readJsonChar, hback]

theorem body_inj {a b rest rest' : List Char}
    (h : a.flatMap jsonChar ++ '"' :: rest = b.flatMap jsonChar ++ '"' :: rest') :
    a = b ∧ rest = rest' := by
  induction a generalizing b with
  | nil =>
    cases b with
    | nil => exact ⟨rfl, by simpa using h⟩
    | cons d b =>
      have hread := congrArg readJsonChar h
      rw [List.flatMap_cons, List.append_assoc, readJsonChar_jsonChar] at hread
      simp [readJsonChar] at hread
  | cons c a ih =>
    have hread := congrArg readJsonChar h
    rw [List.flatMap_cons, List.append_assoc, readJsonChar_jsonChar] at hread
    cases b with
    | nil => simp [readJsonChar] at hread
    | cons d b =>
      rw [List.flatMap_cons, List.append_assoc, readJsonChar_jsonChar, Option.some.injEq,
        Prod.mk.injEq] at hread
      obtain ⟨rfl, hbody⟩ := hread
      obtain ⟨rfl, hrest⟩ := ih hbody
      exact ⟨rfl, hrest⟩

/-- A quoted text ends where it says. -/
theorem jsonString_cancel {a b : String} {rest rest' : List Char}
    (h : (jsonString a).toList ++ rest = (jsonString b).toList ++ rest') :
    a = b ∧ rest = rest' := by
  simp only [jsonString, String.toList_append, String.toList_ofList, List.append_assoc] at h
  have hbody := body_inj (List.append_cancel_left h)
  exact ⟨String.toList_injective hbody.1, hbody.2⟩

/-! ### Numbers -/

/-- What may follow a value inside another one. -/
def Stops (rest : List Char) : Prop := ∀ c ∈ rest.head?, numberChar c = false

theorem number_cancel {a b rest rest' : List Char} (ha : ∀ c ∈ a, numberChar c = true)
    (hb : ∀ c ∈ b, numberChar c = true) (hrest : Stops rest) (hrest' : Stops rest')
    (h : a ++ rest = b ++ rest') : a = b ∧ rest = rest' := by
  have htake : ∀ tail, Stops tail → tail.takeWhile numberChar = [] := by
    intro tail htail
    cases tail with
    | nil => rfl
    | cons c tail => exact List.takeWhile_cons_of_neg (by simp [htail c rfl])
  have hprefix := congrArg (List.takeWhile numberChar) h
  rw [List.takeWhile_append_of_pos ha, List.takeWhile_append_of_pos hb, htake rest hrest,
    htake rest' hrest', List.append_nil, List.append_nil] at hprefix
  subst hprefix
  exact ⟨rfl, List.append_cancel_left h⟩

theorem intText_chars (n : Int) : (toString n).toList ≠ [] ∧
    ∀ c ∈ (toString n).toList, c.isDigit = true ∨ c = '-' := by
  have hnat : ∀ k : Nat, (toString k).toList ≠ [] ∧ ∀ c ∈ (toString k).toList, c.isDigit = true := by
    intro k
    refine ⟨?_, fun c hc => DataExport.natText_digit hc⟩
    change k.repr.toList ≠ []
    rw [Nat.toList_repr]
    exact Nat.toDigits_ne_nil
  change n.repr.toList ≠ [] ∧ _
  have hrepr : toString n = n.repr := rfl
  rw [hrepr, Int.repr_eq_if]
  split
  · exact ⟨(hnat _).1, fun c hc => .inl ((hnat _).2 c hc)⟩
  · constructor
    · simp
    · intro c hc
      rw [String.toList_append, List.mem_append] at hc
      rcases hc with hc | hc
      · exact .inr (by simpa using hc)
      · exact .inl ((hnat _).2 c hc)

/-! ### Values -/

/-- What kind of value a character begins. -/
def charKind (c : Char) : Option Nat :=
  if c = 'n' then some 0
  else if c = 't' then some 1
  else if c = 'f' then some 2
  else if c = '"' then some 3
  else if c = '[' then some 4
  else if c = '\x7b' then some 5
  else if numberChar c then some 6
  else none

def kind : Json → Nat
  | null => 0
  | bool b => if b then 1 else 2
  | str _ => 3
  | arr _ => 4
  | obj _ => 5
  | int _ => 6
  | float _ => 6

theorem charKind_number {c : Char} (h : numberChar c = true) : charKind c = some 6 := by
  have hne : ∀ d : Char, numberChar d = false → c ≠ d := by
    rintro d hd rfl
    rw [h] at hd
    cases hd
  unfold charKind
  simp [hne 'n' (by decide), hne 't' (by decide), hne 'f' (by decide), hne '"' (by decide),
    hne '[' (by decide), hne '\x7b' (by decide), h]

theorem number_head {text : List Char} (hne : text ≠ []) (h : ∀ c ∈ text, numberChar c = true) :
    text.head?.bind charKind = some 6 := by
  cases text with
  | nil => exact absurd rfl hne
  | cons c rest => exact charKind_number (h c List.mem_cons_self)

theorem int_numberChar {n : Int} {c : Char} (h : c ∈ (toString n).toList) :
    numberChar c = true := by
  rcases (intText_chars n).2 c h with h | h
  · simp [numberChar, h]
  · simp [numberChar, h]

theorem FloatText.ne_nil {text : String} (h : FloatText text) : text.toList ≠ [] := by
  intro hnil
  have hmark := h.mark
  simp [hnil] at hmark

theorem render_head (v : Json) (h : v.Printed) :
    v.render.toList.head?.bind charKind = some v.kind := by
  cases v with
  | null => rfl
  | bool b => cases b <;> rfl
  | int n => exact number_head (intText_chars n).1 fun c hc => int_numberChar hc
  | float text => exact number_head h.ne_nil h.chars
  | str s => simp [render, jsonString, kind, charKind]
  | arr values => simp [render, kind, charKind]
  | obj members => simp [render, jsonObject, kind, charKind]

theorem int_ne_float {n : Int} {text : String} (h : FloatText text) :
    (toString n).toList ≠ text.toList := by
  intro heq
  have hmark := h.mark
  rw [← heq] at hmark
  rcases hmark with hmark | hmark
  · rcases (intText_chars n).2 _ hmark with h | h <;> exact absurd h (by decide)
  · rcases (intText_chars n).2 _ hmark with h | h <;> exact absurd h (by decide)

theorem render_append_head {v : Json} (h : v.Printed) (rest : List Char) :
    (v.render.toList ++ rest).head?.bind charKind = some v.kind := by
  have hhead := render_head v h
  cases hv : v.render.toList with
  | nil => simp [hv] at hhead
  | cons c tail => simpa [hv] using hhead

theorem toList_intercalate_comma (first : String) (rest : List String) :
    (String.intercalate "," (first :: rest)).toList =
      first.toList ++ rest.flatMap fun s => ',' :: s.toList := by
  induction rest generalizing first with
  | nil => simp
  | cons s rest ih =>
    rw [String.intercalate_cons_cons, String.toList_append, String.toList_append, ih s,
      List.flatMap_cons, List.append_assoc]
    rfl

/-- The elements of an array after the first. -/
def elementChars (values : List Json) : List Char :=
  (renderAll values).flatMap fun s => ',' :: s.toList

def memberText (m : String × String) : String := jsonString m.1 ++ ":" ++ m.2

/-- The members of an object after the first. -/
def memberChars (members : List (String × Json)) : List Char :=
  ((renderMembers members).map memberText).flatMap fun s => ',' :: s.toList

theorem render_arr_nil (tail : List Char) :
    (render (arr [])).toList ++ tail = '[' :: ']' :: tail := by
  simp [render, renderAll]

theorem render_arr_cons (v : Json) (rest : List Json) (tail : List Char) :
    (render (arr (v :: rest))).toList ++ tail =
      '[' :: (v.render.toList ++ (elementChars rest ++ ']' :: tail)) := by
  have hjoin := toList_intercalate_comma v.render (renderAll rest)
  simp only [render, renderAll, String.toList_append, hjoin, elementChars]
  simp

theorem elementChars_cons (v : Json) (rest : List Json) (tail : List Char) :
    elementChars (v :: rest) ++ tail = ',' :: (v.render.toList ++ (elementChars rest ++ tail)) := by
  simp [elementChars, renderAll]

theorem render_obj_nil (tail : List Char) :
    (render (obj [])).toList ++ tail = '\x7b' :: '\x7d' :: tail := by
  simp [render, renderMembers, jsonObject]

theorem render_obj_cons (m : String × Json) (rest : List (String × Json)) (tail : List Char) :
    (render (obj (m :: rest))).toList ++ tail =
      '\x7b' :: ((jsonString m.1).toList ++
        ':' :: (m.2.render.toList ++ (memberChars rest ++ '\x7d' :: tail))) := by
  have hjoin := toList_intercalate_comma (memberText (m.1, m.2.render))
    ((renderMembers rest).map memberText)
  have hmap : (renderMembers (m :: rest)).map (fun m => jsonString m.1 ++ ":" ++ m.2) =
      memberText (m.1, m.2.render) :: (renderMembers rest).map memberText := rfl
  simp only [render, jsonObject, hmap, String.toList_append, hjoin, memberChars]
  simp [memberText]

theorem memberChars_cons (m : String × Json) (rest : List (String × Json)) (tail : List Char) :
    memberChars (m :: rest) ++ tail = ',' :: ((jsonString m.1).toList ++
      ':' :: (m.2.render.toList ++ (memberChars rest ++ tail))) := by
  simp [memberChars, renderMembers, memberText]

theorem kind_eq {v w : Json} (hv : v.Printed) (hw : w.Printed) {rest rest' : List Char}
    (h : v.render.toList ++ rest = w.render.toList ++ rest') : v.kind = w.kind := by
  have hhead := render_append_head hv rest
  rw [h, render_append_head hw rest'] at hhead
  exact (Option.some.inj hhead).symm

theorem stops_elements (values : List Json) (rest : List Char) :
    Stops (elementChars values ++ ']' :: rest) := by
  intro c hc
  cases values with
  | nil =>
    cases hc
    decide
  | cons v values =>
    cases hc
    decide

theorem stops_members (members : List (String × Json)) (rest : List Char) :
    Stops (memberChars members ++ '\x7d' :: rest) := by
  intro c hc
  cases members with
  | nil =>
    cases hc
    decide
  | cons m members =>
    cases hc
    decide

/-- A value does not begin as the end of an array or an object does. -/
theorem render_ne_close {v : Json} (h : v.Printed) {c : Char} (hc : charKind c = none)
    {rest rest' : List Char} : v.render.toList ++ rest ≠ c :: rest' := by
  intro heq
  have hhead := render_append_head h rest
  rw [heq] at hhead
  simp [hc] at hhead

mutual

/-- **The text of a value determines it**, also where more follows. -/
theorem render_cancel (v w : Json) (hv : v.Printed) (hw : w.Printed) {rest rest' : List Char}
    (hrest : Stops rest) (hrest' : Stops rest')
    (h : v.render.toList ++ rest = w.render.toList ++ rest') : v = w ∧ rest = rest' := by
  have hkind := kind_eq hv hw h
  cases v with
  | null =>
    cases w <;> simp only [kind] at hkind <;> first | omega | skip
    · exact ⟨rfl, List.append_cancel_left h⟩
    · split at hkind <;> omega
  | bool b =>
    cases w with
    | bool b' =>
      have hb : b = b' := by cases b <;> cases b' <;> simp [kind] at hkind ⊢
      subst hb
      exact ⟨rfl, List.append_cancel_left h⟩
    | _ => cases b <;> simp [kind] at hkind
  | int n =>
    cases w with
    | int n' =>
      have hcancel := number_cancel (fun c hc => int_numberChar hc) (fun c hc => int_numberChar hc)
        hrest hrest' h
      rw [DataExport.intText_injective (String.toList_injective hcancel.1)]
      exact ⟨rfl, hcancel.2⟩
    | float text =>
      have hcancel := number_cancel (fun c hc => int_numberChar hc) hw.chars hrest hrest' h
      exact (int_ne_float hw hcancel.1).elim
    | bool b => cases b <;> simp [kind] at hkind
    | _ => simp [kind] at hkind
  | float text =>
    cases w with
    | float text' =>
      have hcancel := number_cancel hv.chars hw.chars hrest hrest' h
      rw [String.toList_injective hcancel.1]
      exact ⟨rfl, hcancel.2⟩
    | int n' =>
      have hcancel := number_cancel hv.chars (fun c hc => int_numberChar hc) hrest hrest' h
      exact (int_ne_float hv hcancel.1.symm).elim
    | bool b => cases b <;> simp [kind] at hkind
    | _ => simp [kind] at hkind
  | str s =>
    cases w with
    | str s' =>
      obtain ⟨rfl, hrests⟩ := jsonString_cancel h
      exact ⟨rfl, hrests⟩
    | bool b => cases b <;> simp [kind] at hkind
    | _ => simp [kind] at hkind
  | arr values =>
    cases w with
    | arr values' =>
      cases values with
      | nil =>
        cases values' with
        | nil => exact ⟨rfl, List.append_cancel_left h⟩
        | cons w ws =>
          rw [render_arr_nil, render_arr_cons, List.cons.injEq] at h
          exact (render_ne_close hw.1 (by decide) h.2.symm).elim
      | cons v vs =>
        cases values' with
        | nil =>
          rw [render_arr_nil, render_arr_cons, List.cons.injEq] at h
          exact (render_ne_close hv.1 (by decide) h.2).elim
        | cons w ws =>
          rw [render_arr_cons, render_arr_cons, List.cons.injEq] at h
          obtain ⟨rfl, htail⟩ := render_cancel v w hv.1 hw.1 (stops_elements vs rest)
            (stops_elements ws rest') h.2
          obtain ⟨rfl, hrests⟩ := elementChars_cancel vs ws hv.2 hw.2 htail
          exact ⟨rfl, hrests⟩
    | bool b => cases b <;> simp [kind] at hkind
    | _ => simp [kind] at hkind
  | obj members =>
    cases w with
    | obj members' =>
      cases members with
      | nil =>
        cases members' with
        | nil => exact ⟨rfl, List.append_cancel_left h⟩
        | cons m ms =>
          rw [render_obj_nil, render_obj_cons] at h
          simp [jsonString] at h
      | cons m ms =>
        cases members' with
        | nil =>
          rw [render_obj_nil, render_obj_cons] at h
          simp [jsonString] at h
        | cons m' ms' =>
          rw [render_obj_cons, render_obj_cons, List.cons.injEq] at h
          obtain ⟨hname, hcolon⟩ := jsonString_cancel h.2
          rw [List.cons.injEq] at hcolon
          obtain ⟨hvalue, htail⟩ := render_cancel m.2 m'.2 hv.1 hw.1 (stops_members ms rest)
            (stops_members ms' rest') hcolon.2
          obtain ⟨rfl, hrests⟩ := memberChars_cancel ms ms' hv.2 hw.2 htail
          rw [Prod.ext hname hvalue]
          exact ⟨rfl, hrests⟩
    | bool b => cases b <;> simp [kind] at hkind
    | _ => simp [kind] at hkind

theorem elementChars_cancel (values values' : List Json) (hv : PrintedAll values)
    (hw : PrintedAll values') {rest rest' : List Char}
    (h : elementChars values ++ ']' :: rest = elementChars values' ++ ']' :: rest') :
    values = values' ∧ rest = rest' := by
  cases values with
  | nil =>
    cases values' with
    | nil => exact ⟨rfl, (List.cons.inj h).2⟩
    | cons w ws =>
      rw [elementChars_cons] at h
      simp [elementChars, renderAll] at h
  | cons v vs =>
    cases values' with
    | nil =>
      rw [elementChars_cons] at h
      simp [elementChars, renderAll] at h
    | cons w ws =>
      rw [elementChars_cons, elementChars_cons, List.cons.injEq] at h
      obtain ⟨rfl, htail⟩ := render_cancel v w hv.1 hw.1 (stops_elements vs rest)
        (stops_elements ws rest') h.2
      obtain ⟨rfl, hrests⟩ := elementChars_cancel vs ws hv.2 hw.2 htail
      exact ⟨rfl, hrests⟩

theorem memberChars_cancel (members members' : List (String × Json)) (hv : PrintedMembers members)
    (hw : PrintedMembers members') {rest rest' : List Char}
    (h : memberChars members ++ '\x7d' :: rest = memberChars members' ++ '\x7d' :: rest') :
    members = members' ∧ rest = rest' := by
  cases members with
  | nil =>
    cases members' with
    | nil => exact ⟨rfl, (List.cons.inj h).2⟩
    | cons m ms =>
      rw [memberChars_cons] at h
      simp [memberChars, renderMembers] at h
  | cons m ms =>
    cases members' with
    | nil =>
      rw [memberChars_cons] at h
      simp [memberChars, renderMembers] at h
    | cons m' ms' =>
      rw [memberChars_cons, memberChars_cons, List.cons.injEq] at h
      obtain ⟨hname, hcolon⟩ := jsonString_cancel h.2
      rw [List.cons.injEq] at hcolon
      obtain ⟨hvalue, htail⟩ := render_cancel m.2 m'.2 hv.1 hw.1 (stops_members ms rest)
        (stops_members ms' rest') hcolon.2
      obtain ⟨rfl, hrests⟩ := memberChars_cancel ms ms' hv.2 hw.2 htail
      rw [Prod.ext hname hvalue]
      exact ⟨rfl, hrests⟩

end

theorem render_injective {v w : Json} (hv : v.Printed) (hw : w.Printed) (h : v.render = w.render) :
    v = w := by
  have hstops : Stops [] := by simp [Stops]
  exact (render_cancel v w hv hw hstops hstops (by rw [h])).1

end InstagramArchive.Json

import Mathlib.Data.List.Nodup
import Mathlib.Data.List.Induction

/-!
# Tables with a primary key

A table is the list of its rows in insertion order together with the proof that
no two rows share a key. The operations are the ones SQL statements are made of:
a checked insert, an update of the rows that satisfy a condition (which may not
touch the key), a delete and a lookup by key.
-/

namespace Relational

/-- A sublist whose last entry is none of `b` ends before `b`. -/
theorem concat_sublist_of_not_mem {α : Type} {l a b : List α} {x : α}
    (h : (l ++ [x]).Sublist (a ++ b)) (hx : x ∉ b) : (l ++ [x]).Sublist a := by
  induction b using List.reverseRecOn with
  | nil => rwa [List.append_nil] at h
  | append_singleton b y ih =>
    have hreverse : (x :: l.reverse).Sublist (y :: (a ++ b).reverse) := by
      simpa using h.reverse
    apply ih _ fun hm => hx (List.mem_append.mpr (Or.inl hm))
    cases hreverse with
    | cons _ hrest => simpa using hrest.reverse
    | cons_cons _ _ => exact (hx (by simp)).elim

/-- Rows of type `α` identified by `key`, in insertion order. -/
structure Table (α : Type) {κ : Type} (key : α → κ) where
  rows : List α
  nodup : (rows.map key).Nodup

namespace Table

variable {α κ : Type} {key : α → κ}

/-- The table without rows. -/
def empty : Table α key := ⟨[], List.nodup_nil⟩

instance : Membership α (Table α key) := ⟨fun t r => r ∈ t.rows⟩

theorem mem_rows {t : Table α key} {r : α} : r ∈ t ↔ r ∈ t.rows := Iff.rfl

@[simp] theorem rows_empty : (empty : Table α key).rows = [] := rfl

@[simp] theorem not_mem_empty (r : α) : ¬ r ∈ (empty : Table α key) := List.not_mem_nil

@[ext] theorem ext {t u : Table α key} (h : t.rows = u.rows) : t = u := by
  cases t; cases u; cases h; rfl

theorem eq_of_key_eq {t : Table α key} {r r' : α} (hr : r ∈ t) (hr' : r' ∈ t)
    (h : key r = key r') : r = r' :=
  List.inj_on_of_nodup_map t.nodup hr hr' h

/-- The rows a condition selects, when it selects one row and nothing with another key. -/
theorem filter_eq_singleton {t : Table α key} {r : α} {p : α → Bool} (hr : r ∈ t) (hp : p r = true)
    (hkey : ∀ x, p x = true → key x = key r) : t.rows.filter p = [r] := by
  have hmem : r ∈ t.rows.filter p := List.mem_filter.mpr ⟨hr, hp⟩
  have hall : ∀ x ∈ t.rows.filter p, x = r := by
    intro x hx
    obtain ⟨hx, hpx⟩ := List.mem_filter.mp hx
    exact eq_of_key_eq hx hr (hkey x hpx)
  have hnodup : (t.rows.filter p).Nodup := (List.Nodup.of_map key t.nodup).filter p
  cases hrows : t.rows.filter p with
  | nil => simp [hrows] at hmem
  | cons a rest =>
    rw [hrows] at hall hnodup
    obtain rfl := hall a (by simp)
    cases rest with
    | nil => rfl
    | cons b rest =>
      have hb := hall b (by simp)
      simp [hb] at hnodup

/-! ## Lookup -/

section Lookup

variable [DecidableEq κ]

/-- The row with key `k`. -/
def lookup (t : Table α key) (k : κ) : Option α := t.rows.find? fun r => key r = k

theorem lookup_eq_some {t : Table α key} {k : κ} {r : α} :
    t.lookup k = some r ↔ r ∈ t ∧ key r = k := by
  constructor
  · intro h
    exact ⟨List.mem_of_find?_eq_some h, by simpa using List.find?_some h⟩
  · rintro ⟨hr, rfl⟩
    cases h : t.lookup (key r) with
    | none => simpa using List.find?_eq_none.mp h r hr
    | some r' =>
      have hm : r' ∈ t := List.mem_of_find?_eq_some h
      have hk : key r' = key r := by simpa using List.find?_some h
      rw [eq_of_key_eq hm hr hk]

theorem lookup_eq_none {t : Table α key} {k : κ} :
    t.lookup k = none ↔ ∀ r ∈ t, key r ≠ k := by
  simp [lookup, List.find?_eq_none, mem_rows]

theorem lookup_mem {t : Table α key} {r : α} (h : r ∈ t) : t.lookup (key r) = some r :=
  lookup_eq_some.mpr ⟨h, rfl⟩

@[simp] theorem lookup_empty (k : κ) : (empty : Table α key).lookup k = none := rfl

/-! ## Insert -/

/-- Appends a row unless its key is taken. -/
def insert? (t : Table α key) (r : α) : Option (Table α key) :=
  if h : key r ∈ t.rows.map key then none
  else some ⟨t.rows ++ [r], by
    rw [List.map_append, List.map_singleton]
    exact List.nodup_append.mpr ⟨t.nodup, List.nodup_singleton _,
      fun a ha b hb => by rw [List.mem_singleton.mp hb]; exact fun e => h (e ▸ ha)⟩⟩

theorem insert?_eq_some {t t' : Table α key} {r : α} (h : t.insert? r = some t') :
    t'.rows = t.rows ++ [r] ∧ ∀ r' ∈ t, key r' ≠ key r := by
  unfold insert? at h
  split at h
  · cases h
  · rename_i hk
    cases h
    exact ⟨rfl, fun r' hr' e => hk (e ▸ List.mem_map_of_mem hr')⟩

theorem mem_of_insert? {t t' : Table α key} {r : α} (h : t.insert? r = some t') (x : α) :
    x ∈ t' ↔ x ∈ t ∨ x = r := by
  rw [mem_rows, (insert?_eq_some h).1, List.mem_append, List.mem_singleton, mem_rows]

theorem lookup_of_insert? {t t' : Table α key} {r : α} (h : t.insert? r = some t') (k : κ) :
    t'.lookup k = if key r = k then some r else t.lookup k := by
  obtain ⟨hrows, hfresh⟩ := insert?_eq_some h
  by_cases hk : key r = k
  · rw [if_pos hk]
    exact lookup_eq_some.mpr ⟨(mem_of_insert? h r).mpr (Or.inr rfl), hk⟩
  · rw [if_neg hk]
    simp [lookup, hrows, List.find?_append, hk]

/-- An insert leaves what is stored under a key. -/
theorem lookup_insert?_of_some {t t' : Table α key} {r x : α} (h : t.insert? r = some t') {k : κ}
    (hk : t.lookup k = some x) : t'.lookup k = some x := by
  obtain ⟨hx, hkey⟩ := lookup_eq_some.mp hk
  rw [lookup_of_insert? h, if_neg fun hr => (insert?_eq_some h).2 x hx (hkey.trans hr.symm)]
  exact hk

/-- Appends rows one after the other unless one of their keys is taken. -/
def insertAll? (t : Table α key) : List α → Option (Table α key)
  | [] => some t
  | r :: rest => (t.insert? r).bind fun t' => t'.insertAll? rest

theorem insertAll?_eq_some {t t' : Table α key} {rows : List α} (h : t.insertAll? rows = some t') :
    t'.rows = t.rows ++ rows := by
  induction rows generalizing t with
  | nil =>
    cases h
    rw [List.append_nil]
  | cons r rest ih =>
    obtain ⟨u, hu, h⟩ := Option.bind_eq_some_iff.mp h
    rw [ih h, (insert?_eq_some hu).1, List.append_assoc, List.singleton_append]

theorem insert?_isSome {t : Table α key} {r : α} (h : ∀ x ∈ t, key x ≠ key r) :
    ∃ t', t.insert? r = some t' := by
  unfold insert?
  rw [dif_neg]
  · exact ⟨_, rfl⟩
  · intro hm
    obtain ⟨x, hx, hk⟩ := List.mem_map.mp hm
    exact h x hx hk

theorem insertAll?_isSome {t : Table α key} {rows : List α} (hrows : (rows.map key).Nodup)
    (h : ∀ x ∈ t, ∀ r ∈ rows, key x ≠ key r) : ∃ t', t.insertAll? rows = some t' := by
  induction rows generalizing t with
  | nil => exact ⟨t, rfl⟩
  | cons r rest ih =>
    obtain ⟨hr, hrest⟩ := List.nodup_cons.mp hrows
    obtain ⟨u, hu⟩ := insert?_isSome fun x hx => h x hx r (List.mem_cons_self)
    obtain ⟨t', ht'⟩ := ih (t := u) hrest (by
      intro x hx y hy
      rcases (mem_of_insert? hu x).mp hx with hx | rfl
      · exact h x hx y (List.mem_cons_of_mem r hy)
      · exact fun hk => hr (List.mem_map.mpr ⟨y, hy, hk.symm⟩))
    exact ⟨t', by rw [insertAll?, hu]; exact ht'⟩

/-! ## Upsert -/

/-- Writes a row in place of the one with its key, if there is one. Rows have no order of
their own in SQL, so the written row moves to the end. -/
def upsert (t : Table α key) (r : α) : Table α key :=
  ⟨(t.rows.filter fun x => key x ≠ key r) ++ [r], by
    rw [List.map_append, List.map_singleton]
    refine List.nodup_append.mpr ⟨t.nodup.sublist (List.filter_sublist.map key),
      List.nodup_singleton _, ?_⟩
    intro a ha b hb
    obtain ⟨x, hx, rfl⟩ := List.mem_map.mp ha
    rw [List.mem_singleton.mp hb]
    simpa using (List.mem_filter.mp hx).2⟩

theorem mem_upsert {t : Table α key} {r x : α} :
    x ∈ t.upsert r ↔ (x ∈ t ∧ key x ≠ key r) ∨ x = r := by
  simp [mem_rows, upsert]

theorem lookup_upsert (t : Table α key) (r : α) (k : κ) :
    (t.upsert r).lookup k = if key r = k then some r else t.lookup k := by
  by_cases hk : key r = k
  · rw [if_pos hk]
    exact lookup_eq_some.mpr ⟨mem_upsert.mpr (Or.inr rfl), hk⟩
  · rw [if_neg hk]
    cases h : t.lookup k with
    | none =>
      refine lookup_eq_none.mpr fun x hx => ?_
      rcases mem_upsert.mp hx with ⟨hx, -⟩ | rfl
      · exact lookup_eq_none.mp h x hx
      · exact hk
    | some x =>
      obtain ⟨hx, rfl⟩ := lookup_eq_some.mp h
      exact lookup_mem (mem_upsert.mpr (Or.inl ⟨hx, fun e => hk e.symm⟩))

end Lookup

/-! ## Update and delete -/

/-- Rewrites the rows that satisfy `p`; the key is out of reach. -/
def update (t : Table α key) (p : α → Bool) (f : α → α)
    (hf : ∀ r, key (f r) = key r := by intro; rfl) : Table α key :=
  ⟨t.rows.map fun r => if p r then f r else r, by
    have h : (t.rows.map fun r => if p r then f r else r).map key = t.rows.map key := by
      rw [List.map_map]
      apply List.map_congr_left
      intro r _
      by_cases hp : p r <;> simp [hp, hf]
    rw [h]; exact t.nodup⟩

/-- Drops the rows that satisfy `p`. -/
def delete (t : Table α key) (p : α → Bool) : Table α key :=
  ⟨t.rows.filter fun r => !p r, t.nodup.sublist (List.filter_sublist.map key)⟩

section Update

variable (t : Table α key) (p : α → Bool) (f : α → α) (hf : ∀ r, key (f r) = key r)

theorem rows_update : (t.update p f hf).rows = t.rows.map fun r => if p r then f r else r := rfl

theorem mem_update (x : α) :
    x ∈ t.update p f hf ↔ ∃ r ∈ t, x = if p r then f r else r := by
  simp only [mem_rows, rows_update, List.mem_map, eq_comm]

variable {t p f} in
theorem exists_of_mem_update {x : α} (h : x ∈ t.rows.map fun r => if p r then f r else r) :
    ∃ r ∈ t, x = if p r then f r else r := by
  obtain ⟨r, hr, rfl⟩ := List.mem_map.mp h
  exact ⟨r, hr, rfl⟩

theorem mem_update_of_mem {r : α} (h : r ∈ t) : (if p r then f r else r) ∈ t.update p f hf :=
  (mem_update t p f hf _).mpr ⟨r, h, rfl⟩

/-- A row after an update is one the update passed over or a rewritten one. -/
theorem mem_update_iff (x : α) :
    x ∈ t.update p f hf ↔ (x ∈ t ∧ p x = false) ∨ ∃ r ∈ t, p r = true ∧ x = f r := by
  rw [mem_update]
  constructor
  · rintro ⟨r, hr, rfl⟩
    cases hp : p r with
    | true => exact Or.inr ⟨r, hr, hp, rfl⟩
    | false => exact Or.inl ⟨hr, hp⟩
  · rintro (⟨hx, hp⟩ | ⟨r, hr, hp, rfl⟩)
    · exact ⟨x, hx, by simp [hp]⟩
    · exact ⟨r, hr, by simp [hp]⟩

theorem lookup_update [DecidableEq κ] (k : κ) :
    (t.update p f hf).lookup k = (t.lookup k).map fun r => if p r then f r else r := by
  have hkey : ∀ r, key (if p r then f r else r) = key r := by
    intro r
    by_cases hp : p r <;> simp [hp, hf]
  simp only [lookup, rows_update, List.find?_map, Function.comp_def, hkey]

theorem rows_delete : (t.delete p).rows = t.rows.filter fun r => !p r := rfl

theorem mem_delete (x : α) : x ∈ t.delete p ↔ x ∈ t ∧ p x = false := by
  simp [mem_rows, delete]

/-- A selection that selects nothing deleted. -/
theorem filter_delete {q : α → Bool} (h : ∀ x, q x = true → p x = false) :
    (t.delete p).rows.filter q = t.rows.filter q := by
  rw [rows_delete, List.filter_filter]
  apply List.filter_congr
  intro x _
  cases hq : q x with
  | false => simp
  | true => simp [h x hq]

theorem any_delete {q : α → Bool} (h : ∀ x, q x = true → p x = false) :
    (t.delete p).rows.any q = t.rows.any q := by
  rw [rows_delete, List.any_filter]
  congr 1
  funext x
  cases hq : q x with
  | false => simp
  | true => simp [h x hq]

/-- What a delete passes over is found as before. -/
theorem lookup_delete [DecidableEq κ] {k : κ} (h : ∀ x ∈ t, key x = k → p x = false) :
    (t.delete p).lookup k = t.lookup k := by
  cases hfound : t.lookup k with
  | none =>
    rw [lookup_eq_none] at hfound ⊢
    intro x hx
    exact hfound x ((mem_delete t p x).mp hx).1
  | some r =>
    obtain ⟨hr, hk⟩ := lookup_eq_some.mp hfound
    exact lookup_eq_some.mpr ⟨(mem_delete t p r).mpr ⟨hr, h r hr hk⟩, hk⟩

/-- An insert does not see deleted rows with other keys. -/
theorem insert?_delete [DecidableEq κ] {r : α} (hr : p r = false)
    (h : ∀ x ∈ t, p x = true → key x ≠ key r) :
    (t.delete p).insert? r = (t.insert? r).map fun u => u.delete p := by
  cases hinsert : t.insert? r with
  | some u =>
    obtain ⟨hrows, hfresh⟩ := insert?_eq_some hinsert
    obtain ⟨v, hv⟩ := insert?_isSome (t := t.delete p) (r := r)
      fun x hx => hfresh x ((mem_delete t p x).mp hx).1
    rw [hv, Option.map_some, Option.some.injEq]
    apply ext
    rw [(insert?_eq_some hv).1, rows_delete, rows_delete, hrows, List.filter_append]
    simp [hr]
  | none =>
    unfold insert? at hinsert ⊢
    split at hinsert
    · rename_i hk
      obtain ⟨x, hx, hxk⟩ := List.mem_map.mp hk
      rw [Option.map_none, dif_pos]
      refine List.mem_map.mpr ⟨x, ?_, hxk⟩
      refine (mem_delete t p x).mpr ⟨hx, ?_⟩
      by_contra hp
      exact h x hx (by simpa using hp) hxk
    · cases hinsert

theorem update_delete (q : α → Bool) (hq : ∀ r, p r = true → q (f r) = q r) :
    (t.delete q).update p f hf = (t.update p f hf).delete q := by
  apply ext
  simp only [rows_update, delete, List.filter_map]
  congr 1
  apply List.filter_congr
  intro r _
  by_cases hp : p r = true
  · simp [hp, hq r hp]
  · simp [hp]

end Update

/-- An attribute that an update leaves alone reads the same column of values. -/
theorem map_update {β : Type} (g : α → β) (rows : List α) (p : α → Bool) (f : α → α)
    (hg : ∀ r, p r = true → g (f r) = g r) :
    (rows.map fun r => if p r then f r else r).map g = rows.map g := by
  rw [List.map_map]
  apply List.map_congr_left
  intro r _
  by_cases hp : p r = true
  · simp [hp, hg r hp]
  · simp [hp]

/-- A search by an attribute that an update leaves alone finds the same row, updated. -/
theorem find?_update (rows : List α) (p q : α → Bool) (f : α → α) (hq : ∀ r, q (f r) = q r) :
    (rows.map fun r => if p r then f r else r).find? q =
      (rows.find? q).map fun r => if p r then f r else r := by
  have hcomp : (q ∘ fun r => if p r then f r else r) = q := by
    funext r
    by_cases hp : p r <;> simp [hp, hq]
  rw [List.find?_map, hcomp]

/-- When an update moves exactly the rows of `p` into `q`, the rows of `q` afterwards are
those of `q` before and the moved ones. -/
theorem filter_update_perm (rows : List α) (p q : α → Bool) (f : α → α)
    (hp : ∀ r, p r = true → q r = false) (hf : ∀ r, p r = true → q (f r) = true) :
    ((rows.map fun r => if p r then f r else r).filter q).Perm
      (rows.filter q ++ (rows.filter p).map f) := by
  induction rows with
  | nil => simp
  | cons r rest ih =>
    by_cases hr : p r = true
    · simp only [List.map_cons, hr, if_true, List.filter_cons, hf r hr, hp r hr,
        Bool.false_eq_true, if_false]
      exact (ih.cons (f r)).trans List.perm_middle.symm
    · by_cases hq : q r = true
      · simp only [List.map_cons, hr, List.filter_cons, hq, if_true, Bool.false_eq_true, if_false,
          List.cons_append]
        exact ih.cons r
      · simp only [List.map_cons, hr, List.filter_cons, hq, Bool.false_eq_true, if_false]
        exact ih

end Table

end Relational

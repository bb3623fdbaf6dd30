import Mathlib.Data.List.Basic

/-!
# Framed texts

A field that ends at the first separator, and a sequence of codes of which each one shows where it
ends, are read back in one way only.
-/

namespace Machine

variable {α β : Type}

/-- A field without the separator ends where the separator is. -/
theorem split_inj {separator : β} :
    ∀ {a b x y : List β}, separator ∉ a → separator ∉ b →
      a ++ separator :: x = b ++ separator :: y → a = b ∧ x = y
  | [], [], x, y, _, _, h => ⟨rfl, (List.cons.inj h).2⟩
  | [], c :: b, x, y, _, hb, h => by
    rw [List.nil_append, List.cons_append] at h
    rw [← (List.cons.inj h).1] at hb
    exact absurd List.mem_cons_self hb
  | c :: a, [], x, y, ha, _, h => by
    rw [List.nil_append, List.cons_append] at h
    rw [(List.cons.inj h).1] at ha
    exact absurd List.mem_cons_self ha
  | c :: a, d :: b, x, y, ha, hb, h => by
    rw [List.cons_append, List.cons_append] at h
    obtain ⟨rfl, hrest⟩ := List.cons.inj h
    obtain ⟨rfl, rfl⟩ := split_inj (fun hmem => ha (List.mem_cons_of_mem _ hmem))
      (fun hmem => hb (List.mem_cons_of_mem _ hmem)) hrest
    exact ⟨rfl, rfl⟩

/-- A code of the values of `P` that shows where it ends. -/
structure SelfDelimiting (P : α → Prop) (code : α → List β) : Prop where
  nonempty : ∀ a, P a → code a ≠ []
  cancel : ∀ a b x y, P a → P b → code a ++ x = code b ++ y → a = b ∧ x = y

/-- A sequence of such codes determines the sequence of values. -/
theorem SelfDelimiting.flatMap_inj {P : α → Prop} {code : α → List β}
    (hcode : SelfDelimiting P code) {a b : List α} (ha : ∀ v ∈ a, P v) (hb : ∀ v ∈ b, P v)
    (h : a.flatMap code = b.flatMap code) : a = b := by
  induction a generalizing b with
  | nil =>
    cases b with
    | nil => rfl
    | cons v b =>
      have hv := hcode.nonempty v (hb v List.mem_cons_self)
      rw [List.flatMap_nil, List.flatMap_cons] at h
      exact absurd (List.append_eq_nil_iff.mp h.symm).1 hv
  | cons v a ih =>
    cases b with
    | nil =>
      have hv := hcode.nonempty v (ha v List.mem_cons_self)
      rw [List.flatMap_nil, List.flatMap_cons] at h
      exact absurd (List.append_eq_nil_iff.mp h).1 hv
    | cons w b =>
      rw [List.flatMap_cons, List.flatMap_cons] at h
      obtain ⟨rfl, hrest⟩ := hcode.cancel v w _ _ (ha v List.mem_cons_self)
        (hb w List.mem_cons_self) h
      rw [ih (fun u hu => ha u (List.mem_cons_of_mem _ hu))
        (fun u hu => hb u (List.mem_cons_of_mem _ hu)) hrest]

end Machine

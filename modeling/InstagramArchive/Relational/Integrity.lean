import InstagramArchive.Relational.Transaction

/-!
# Statements under constraints

A delete fails while another row refers to what it removes, and an update or an upsert
fails when the rows it writes break a constraint. Each constraint is checked at the end
of its statement, as an immediate constraint is.
-/

namespace Relational

/-- A foreign key onto rows of type `ρ`: its name, and whether some row of the store refers
to the given one. -/
structure Reference (σ ρ : Type) where
  name : String
  refers : σ → ρ → Bool

/-- The first foreign key that still refers to one of the rows. -/
def Reference.violated {σ ρ : Type} (references : List (Reference σ ρ)) (s : σ) (rows : List ρ) :
    Option SqlError :=
  references.findSome? fun r =>
    if rows.any (r.refers s) then some (.foreignKeyViolation r.name) else none

theorem Reference.violated_eq_none {σ ρ : Type} {references : List (Reference σ ρ)} {s : σ}
    {rows : List ρ} :
    Reference.violated references s rows = none ↔
      ∀ r ∈ references, ∀ row ∈ rows, r.refers s row = false := by
  simp [Reference.violated, List.findSome?_eq_none_iff]

namespace Tx

variable {σ ε ε' α : Type} [OfSql ε] {env : Env} {s s' : σ} {u : Unit}

/-- A write that fails on a violated constraint. -/
def executeChecked (guard : σ → Option SqlError) (f : σ → σ) : Tx σ ε Unit :=
  statement fun s => match guard s with
    | some e => .error e
    | none => .ok ((), f s)

/-- `delete from`: the statement fails while a reference to a row it removes remains. -/
def deleteFrom {ρ κ : Type} {key : ρ → κ} (get : σ → Table ρ key) (set : σ → Table ρ key → σ)
    (references : List (Reference σ ρ)) (p : ρ → Bool) : Tx σ ε Unit :=
  executeChecked (fun s => Reference.violated references s ((get s).rows.filter p))
    fun s => set s ((get s).delete p)

theorem Yields.executeChecked {guard : σ → Option SqlError} {f : σ → σ}
    (h : (Tx.executeChecked guard f : Tx σ ε Unit).Yields env s u s') :
    guard s = none ∧ s' = f s := by
  have h := Yields.statement h
  split at h
  · cases h
  · rename_i hguard
    simp only [Except.ok.injEq, Prod.mk.injEq] at h
    exact ⟨hguard, h.2.symm⟩

theorem Yields.deleteFrom {ρ κ : Type} {key : ρ → κ} {get : σ → Table ρ key}
    {set : σ → Table ρ key → σ} {references : List (Reference σ ρ)} {p : ρ → Bool}
    (h : (Tx.deleteFrom get set references p : Tx σ ε Unit).Yields env s u s') :
    (∀ r ∈ references, ∀ row ∈ get s, p row = true → r.refers s row = false) ∧
      s' = set s ((get s).delete p) := by
  obtain ⟨hguard, rfl⟩ := Yields.executeChecked h
  refine ⟨fun r hr row hrow hp => ?_, rfl⟩
  exact Reference.violated_eq_none.mp hguard r hr row (List.mem_filter.mpr ⟨hrow, hp⟩)

theorem Respects.executeChecked {R : σ → σ → Prop} {guard : σ → Option SqlError} {f : σ → σ}
    (h : ∀ s, R s (f s)) : (Tx.executeChecked guard f : Tx σ ε Unit).Respects R := by
  intro env s u s' hy
  rw [hy.executeChecked.2]
  exact h s

theorem Respects.deleteFrom {R : σ → σ → Prop} {ρ κ : Type} {key : ρ → κ} {get : σ → Table ρ key}
    {set : σ → Table ρ key → σ} {references : List (Reference σ ρ)} {p : ρ → Bool}
    (h : ∀ s t, R s (set s t)) :
    (Tx.deleteFrom get set references p : Tx σ ε Unit).Respects R :=
  Respects.executeChecked fun s => h s _

end Tx

end Relational

import InstagramArchive.Relational.Simulation

/-!
# Scripts by their transactions

`Each S` says that every transaction a script can run is one of `S`. A system of scripts that
are described so moves its store by transactions of `S` alone, and what each of these keeps, a
run of the system keeps, however the scripts interleave.
-/

namespace Relational

namespace Script

variable {σ ε ε' ρ ω ν α β : Type} {S : ∀ {ε α : Type}, Tx σ ε α → Prop}

/-- Every transaction of the script is one of `S`. -/
def Each (S : ∀ {ε α : Type}, Tx σ ε α → Prop) : Script σ ε ρ ω ν α → Prop
  | finish _ => True
  | transact x _ next => S x ∧ ∀ b, (next b).Each S
  | ask _ next => ∀ a, (next a).Each S

/-- The transaction the script runs next. -/
inductive Next : {ε ρ ω ν α β : Type} → Script σ ε ρ ω ν α → Tx σ ε β → Prop
  | transact {ε ρ ω ν α β : Type} (x : Tx σ ε β) (event : β → Option ν)
      (next : β → Script σ ε ρ ω ν α) : Next (Script.transact x event next) x

section Each

theorem Each.pure (a : α) : (Pure.pure a : Script σ ε ρ ω ν α).Each S := trivial

theorem Each.fail (e : ε) : (Script.fail e : Script σ ε ρ ω ν α).Each S := trivial

theorem Each.request (r : ρ) : (Script.request r : Script σ ε ρ ω ν ω).Each S := fun _ => trivial

theorem Each.emit {x : Tx σ ε α} {event : α → Option ν} (h : S x) :
    (Script.emit x event : Script σ ε ρ ω ν α).Each S := ⟨h, fun _ => trivial⟩

theorem Each.tx {x : Tx σ ε α} (h : S x) : (Script.tx x : Script σ ε ρ ω ν α).Each S :=
  ⟨h, fun _ => trivial⟩

theorem Each.bind {x : Script σ ε ρ ω ν α} {f : α → Script σ ε ρ ω ν β} (hx : x.Each S)
    (hf : ∀ a, (f a).Each S) : (x >>= f).Each S := by
  change (Script.bind x f).Each S
  induction x with
  | finish result =>
    cases result with
    | error e => trivial
    | ok a => exact hf a
  | transact x event next ih => exact ⟨hx.1, fun b => ih b (hx.2 b)⟩
  | ask request next ih => exact fun a => ih a (hx a)

theorem Each.attempt (hS : ∀ {ε ε' α : Type} (x : Tx σ ε α), S x →
      S (Tx.attempt x : Tx σ ε' (Except ε α))) {x : Script σ ε ρ ω ν α} (h : x.Each S) :
    (x.attempt : Script σ ε' ρ ω ν (Except ε α)).Each S := by
  induction x with
  | finish result => trivial
  | ask request next ih => exact fun a => ih a (h a)
  | transact x event next ih =>
    unfold Script.attempt
    refine ⟨hS x h.1, fun r => ?_⟩
    cases r with
    | ok b => exact ih b (h.2 b)
    | error e => trivial

theorem Each.next {x : Script σ ε ρ ω ν α} (h : x.Each S) {t : Tx σ ε β} (hx : x.Next t) :
    S t := by
  cases hx
  exact h.1

/-- What remains of a script after a step has no other transactions. -/
theorem Each.advance {x : Script σ ε ρ ω ν α} (h : x.Each S) (env : Env) (answer : ω) (s : σ) :
    (x.advance env answer s).1.Each S := by
  cases x with
  | finish result => trivial
  | ask request next => exact h answer
  | transact x event next =>
    rcases Tx.exec_cases x env s with ⟨b, s', he, -⟩ | ⟨e, he⟩
    · rw [advance_ok he]
      exact h.2 b
    · rw [advance_error he]
      trivial

end Each

/-- **A step of a script** leaves the store alone or commits the transaction it runs next. -/
theorem advance_cases (x : Script σ ε ρ ω ν α) (env : Env) (answer : ω) (s : σ) :
    (x.advance env answer s).2.1 = s ∨
      ∃ (β : Type) (t : Tx σ ε β) (b : β), x.Next t ∧
        t.Yields env s b (x.advance env answer s).2.1 := by
  cases x with
  | finish result => exact .inl rfl
  | ask request next => exact .inl rfl
  | transact x event next =>
    rcases Tx.exec_cases x env s with ⟨b, s', he, hy⟩ | ⟨e, he⟩
    · rw [advance_ok he]
      exact .inr ⟨_, x, b, .transact x event next, hy⟩
    · rw [advance_error he]
      exact .inl rfl

end Script

end Relational

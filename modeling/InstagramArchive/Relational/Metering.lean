import InstagramArchive.Relational.Script

/-!
# Metered scripts

A question can cost something: an allowance that shrinks, a reservation that has to exist. A
metering says how knowledge changes along a script: `Step` relates the knowledge before a
transaction to the stores around it, its event and the knowledge after, and `Asks` relates the
knowledge around a question. A script is metered from `k` when each of its transactions, from
any store, and each of its questions has such a successor, and its result meets `Post`.

A script ends, whatever it finds and is answered: `after` lets other programs rewrite the store
between any two of its steps.
-/

namespace Relational

/-- How knowledge `κ` changes along a script over the store `σ` with questions `ρ` and
events `ν`. -/
structure Metering (σ ρ ν κ : Type) where
  Step : κ → σ → Option ν → κ → σ → Prop
  Asks : κ → ρ → κ → Prop

namespace Script

variable {σ ε ρ ω ν α β κ : Type} {T : Metering σ ρ ν κ}

def Metered (T : Metering σ ρ ν κ) (Post : α → κ → Prop) : Script σ ε ρ ω ν α → κ → Prop
  | finish (.ok a), k => Post a k
  | finish (.error _), _ => True
  | transact x event next, k => ∀ env s b s', x.Yields env s b s' →
      ∃ k', T.Step k s (event b) k' s' ∧ (next b).Metered T Post k'
  | ask request next, k => ∃ k', T.Asks k request k' ∧ ∀ a, (next a).Metered T Post k'

section Metered

variable {Post : α → κ → Prop} {Then : β → κ → Prop} {k : κ}

theorem Metered.pure {a : α} (h : Post a k) :
    (Pure.pure a : Script σ ε ρ ω ν α).Metered T Post k := h

theorem Metered.fail {e : ε} : (Script.fail e : Script σ ε ρ ω ν α).Metered T Post k := trivial

theorem Metered.bind {x : Script σ ε ρ ω ν α} {f : α → Script σ ε ρ ω ν β}
    (hx : x.Metered T Post k) (hf : ∀ a k', Post a k' → (f a).Metered T Then k') :
    (x >>= f).Metered T Then k := by
  change (Script.bind x f).Metered T Then k
  induction x generalizing k with
  | finish result =>
    cases result with
    | error e => trivial
    | ok a => exact hf a k hx
  | transact x event next ih =>
    intro env s b s' hy
    obtain ⟨k', hstep, hnext⟩ := hx env s b s' hy
    exact ⟨k', hstep, ih b hnext⟩
  | ask request next ih =>
    obtain ⟨k', hasks, hnext⟩ := hx
    exact ⟨k', hasks, fun a => ih a (hnext a)⟩

theorem Metered.emit {x : Tx σ ε α} {event : α → Option ν}
    (h : ∀ env s a s', x.Yields env s a s' → ∃ k', T.Step k s (event a) k' s' ∧ Post a k') :
    (Script.emit x event : Script σ ε ρ ω ν α).Metered T Post k := h

theorem Metered.tx {x : Tx σ ε α}
    (h : ∀ env s a s', x.Yields env s a s' → ∃ k', T.Step k s none k' s' ∧ Post a k') :
    (Script.tx x : Script σ ε ρ ω ν α).Metered T Post k := h

theorem Metered.request {r : ρ} {Post : ω → κ → Prop} {k' : κ} (h : T.Asks k r k')
    (hpost : ∀ a, Post a k') : (Script.request r : Script σ ε ρ ω ν ω).Metered T Post k :=
  ⟨k', h, hpost⟩

theorem Metered.mono {x : Script σ ε ρ ω ν α} {Post' : α → κ → Prop} (h : x.Metered T Post k)
    (hpost : ∀ a k', Post a k' → Post' a k') : x.Metered T Post' k := by
  induction x generalizing k with
  | finish result =>
    cases result with
    | error e => trivial
    | ok a => exact hpost a k h
  | transact x event next ih =>
    intro env s b s' hy
    obtain ⟨k', hstep, hnext⟩ := h env s b s' hy
    exact ⟨k', hstep, ih b hnext⟩
  | ask request next ih =>
    obtain ⟨k', hasks, hnext⟩ := h
    exact ⟨k', hasks, fun a => ih a (hnext a)⟩

/-- **A step of a metered script** commits what its metering allows, answers the question it
waits on, or leaves the store alone. -/
theorem Metered.advance {x : Script σ ε ρ ω ν α} (h : x.Metered T Post k) (env : Env) (answer : ω)
    (s : σ) :
    (∃ request k', x.asked = some request ∧ (x.advance env answer s).2 = (s, none) ∧
        T.Asks k request k' ∧ (x.advance env answer s).1.Metered T Post k') ∨
      (x.asked = none ∧ (x.advance env answer s).2 = (s, none) ∧
        (x.advance env answer s).1.Metered T Post k) ∨
      (x.asked = none ∧ ∃ k', T.Step k s (x.advance env answer s).2.2 k'
          (x.advance env answer s).2.1 ∧ (x.advance env answer s).1.Metered T Post k') := by
  cases x with
  | finish result => exact .inr (.inl ⟨rfl, rfl, h⟩)
  | ask request next =>
    obtain ⟨k', hasks, hnext⟩ := h
    exact .inl ⟨request, k', rfl, rfl, hasks, hnext answer⟩
  | transact x event next =>
    rcases Tx.exec_cases x env s with ⟨b, s', he, hy⟩ | ⟨e, he⟩
    · rw [advance_ok he]
      exact .inr (.inr ⟨rfl, h env s b s' hy⟩)
    · rw [advance_error he]
      exact .inr (.inl ⟨rfl, rfl, trivial⟩)

end Metered

/-- The script after its first `n` turns; each turn has an environment, an answer and the store
the script finds. -/
def after : (turns : Nat → Env × ω × σ) → Nat → Script σ ε ρ ω ν α → Script σ ε ρ ω ν α
  | _, 0, x => x
  | turns, n + 1, x => after (fun k => turns (k + 1)) n
      (x.advance (turns 0).1 (turns 0).2.1 (turns 0).2.2).1

/-- **Termination.** Whatever other programs commit between its steps, a script ends. -/
theorem ends (x : Script σ ε ρ ω ν α) (turns : Nat → Env × ω × σ) :
    ∃ n result, x.after turns n = finish result := by
  induction x generalizing turns with
  | finish result => exact ⟨0, result, rfl⟩
  | ask request next ih =>
    obtain ⟨n, result, h⟩ := ih (turns 0).2.1 fun k => turns (k + 1)
    exact ⟨n + 1, result, h⟩
  | transact x event next ih =>
    rcases Tx.exec_cases x (turns 0).1 (turns 0).2.2 with ⟨b, s', he, -⟩ | ⟨e, he⟩
    · obtain ⟨n, result, h⟩ := ih b fun k => turns (k + 1)
      refine ⟨n + 1, result, ?_⟩
      rw [after, advance_ok he]
      exact h
    · refine ⟨1, .error e, ?_⟩
      rw [after, advance_error he]
      rfl

end Script

end Relational

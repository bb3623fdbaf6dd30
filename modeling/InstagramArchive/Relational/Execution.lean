import Mathlib.Data.List.Induction

/-!
# Runs of a step function

A system is a step function over states and actions; an action carries every
choice its step makes. A run is the fold of the step over a list of actions, and
a guarded run is one where every step meets a condition in the state before it.
-/

namespace Relational

universe u v

variable {σ : Type u} {ι : Type v} (step : σ → ι → σ)

/-- The state after a list of actions. -/
def run (s : σ) (actions : List ι) : σ := actions.foldl step s

@[simp] theorem run_nil (s : σ) : run step s [] = s := rfl

@[simp] theorem run_cons (s : σ) (a : ι) (rest : List ι) :
    run step s (a :: rest) = run step (step s a) rest := rfl

theorem run_append (s : σ) (first second : List ι) :
    run step s (first ++ second) = run step (run step s first) second := by
  simp [run]

theorem run_concat (s : σ) (actions : List ι) (a : ι) :
    run step s (actions ++ [a]) = step (run step s actions) a := by
  simp [run]

/-- Every step of the run meets `P` in the state before it. -/
def Guarded (P : σ → ι → Prop) (s : σ) : List ι → Prop
  | [] => True
  | a :: rest => P s a ∧ Guarded P (step s a) rest

instance decidableGuarded {P : σ → ι → Prop} [∀ s a, Decidable (P s a)] (s : σ) :
    (actions : List ι) → Decidable (Guarded step P s actions)
  | [] => instDecidableTrue
  | a :: rest => @instDecidableAnd _ _ _ (decidableGuarded (step s a) rest)

theorem guarded_append (P : σ → ι → Prop) (s : σ) (first second : List ι) :
    Guarded step P s (first ++ second) ↔
      Guarded step P s first ∧ Guarded step P (run step s first) second := by
  induction first generalizing s with
  | nil => simp [Guarded]
  | cons a rest ih => simp [Guarded, ih, and_assoc]

theorem guarded_of_forall {Q : ι → Prop} {s : σ} {actions : List ι} (h : ∀ a ∈ actions, Q a) :
    Guarded step (fun _ a => Q a) s actions := by
  induction actions generalizing s with
  | nil => trivial
  | cons a rest ih => exact ⟨h a (by simp), ih fun b hb => h b (by simp [hb])⟩

theorem guarded_of_all {P : σ → ι → Prop} (h : ∀ s a, P s a) (s : σ) (actions : List ι) :
    Guarded step P s actions := by
  induction actions generalizing s with
  | nil => trivial
  | cons a rest ih => exact ⟨h s a, ih (step s a)⟩

theorem Guarded.mono {P Q : σ → ι → Prop} (h : ∀ s a, P s a → Q s a) {s : σ} {actions : List ι}
    (hg : Guarded step P s actions) : Guarded step Q s actions := by
  induction actions generalizing s with
  | nil => trivial
  | cons a rest ih => exact ⟨h s a hg.1, ih hg.2⟩

theorem Guarded.and {P Q : σ → ι → Prop} {s : σ} {actions : List ι}
    (hp : Guarded step P s actions) (hq : Guarded step Q s actions) :
    Guarded step (fun s a => P s a ∧ Q s a) s actions := by
  induction actions generalizing s with
  | nil => trivial
  | cons a rest ih => exact ⟨⟨hp.1, hq.1⟩, ih hp.2 hq.2⟩

/-- **Invariant rule.** What holds at the start and is kept by every guarded
step holds after every guarded run. -/
theorem run_invariant (P : σ → ι → Prop) (Inv : σ → Prop)
    (hstep : ∀ s a, P s a → Inv s → Inv (step s a)) {s : σ} {actions : List ι}
    (hg : Guarded step P s actions) (hs : Inv s) : Inv (run step s actions) := by
  induction actions generalizing s with
  | nil => exact hs
  | cons a rest ih => exact ih hg.2 (hstep s a hg.1 hs)

/-- **First occurrence.** What holds at the end of a run and not at its start was brought
about by one of its steps. -/
theorem run_first_occurrence (P : σ → Prop) {s : σ} {actions : List ι} (hs : ¬ P s)
    (he : P (run step s actions)) :
    ∃ before a after, actions = before ++ a :: after ∧
      ¬ P (run step s before) ∧ P (step (run step s before) a) := by
  induction actions using List.reverseRecOn with
  | nil => exact (hs he).elim
  | append_singleton before a ih =>
    by_cases hb : P (run step s before)
    · obtain ⟨first, b, rest, rfl, h⟩ := ih hb
      exact ⟨first, b, rest ++ [a], by simp, h⟩
    · rw [run_concat] at he
      exact ⟨before, a, [], rfl, hb, he⟩

end Relational

import InstagramArchive.Relational.Ownership
import Mathlib.Logic.Function.Basic

/-!
# Jobs that share a store

A pool holds the store and the jobs that work on it; each step advances one job, and another
takes its step next. A `Discipline` says what a job may know and own, which steps it takes under
what it knows, and that such a step spares what the others know. One rule follows: as long as
every job keeps the discipline, what each of them knows holds after every step of any of them.
-/

namespace Relational

variable {σ ν κ : Type} {J : Type*}

/-- Jobs that share a store, and what their steps left behind, in order. -/
structure Pool (σ ν : Type) (J : Type*) where
  store : σ
  jobs : List J := []
  log : List ν := []

namespace Pool

def begin (p : Pool σ ν J) (job : J) : Pool σ ν J := { p with jobs := p.jobs ++ [job] }

/-- One job takes its next step. -/
def advance (step : J → σ → J × σ × Option ν) (i : Nat) (p : Pool σ ν J) : Pool σ ν J :=
  match p.jobs[i]? with
  | none => p
  | some job =>
    { store := (step job p.store).2.1
      jobs := p.jobs.set i (step job p.store).1
      log := p.log ++ (step job p.store).2.2.toList }

end Pool

/-- What jobs know and own, and the steps they take under it. -/
structure Discipline (σ ν κ : Type) (J : Type*) where
  /-- What a job knows before its first step. -/
  start : κ
  /-- What is known is so. -/
  Holds : κ → σ → Prop
  /-- Two jobs own different things. -/
  Apart : κ → κ → Prop
  /-- A step, with what is known before and after it. -/
  Writes : κ → σ → Option ν → κ → σ → Prop
  /-- From here the job takes no steps but those. -/
  Keeps : J → κ → Prop
  start_holds : ∀ s, Holds start s
  apart_symm : ∀ {k g}, Apart k g → Apart g k
  start_apart : ∀ k, Apart start k
  spares : ∀ {k s event k' s' g}, Writes k s event k' s' → Holds g s → Apart k g → Holds g s'
  stays_apart : ∀ {k s event k' s' g}, Writes k s event k' s' → Holds g s → Apart k g → Apart k' g

namespace Discipline

variable (D : Discipline σ ν κ J)

/-- The step of a job keeps the discipline. -/
def Follows (step : J → σ → J × σ × Option ν) : Prop := ∀ job k s, D.Keeps job k → D.Holds k s →
  ∃ k', D.Writes k s (step job s).2.2 k' (step job s).2.1 ∧ D.Holds k' (step job s).2.1 ∧
    D.Keeps (step job s).1 k'

/-- What holds between two steps; `know` is what each job knows. -/
structure Sound (know : Nat → κ) (p : Pool σ ν J) : Prop where
  keeps : ∀ (i : Nat) job, p.jobs[i]? = some job → D.Keeps job (know i)
  holds : ∀ i, D.Holds (know i) p.store
  apart : ∀ i j, i ≠ j → D.Apart (know i) (know j)
  idle : ∀ i : Nat, p.jobs[i]? = none → know i = D.start

variable {D} {know : Nat → κ} {p : Pool σ ν J}

theorem Sound.init (s : σ) : D.Sound (fun _ => D.start) ⟨s, [], []⟩ where
  keeps i job h := by simp at h
  holds i := D.start_holds s
  apart i j hij := D.start_apart D.start
  idle i _ := rfl

theorem Sound.begin (h : D.Sound know p) {job : J} (hjob : D.Keeps job D.start) :
    D.Sound know (p.begin job) where
  keeps i other hi := by
    rcases getElem?_concat_cases hi with hi | ⟨rfl, rfl⟩
    · exact h.keeps i other hi
    · rw [h.idle p.jobs.length (by simp)]
      exact hjob
  holds := h.holds
  apart := h.apart
  idle i hi := by
    apply h.idle
    rw [List.getElem?_eq_none_iff] at hi ⊢
    simp only [Pool.begin, List.length_append, List.length_singleton] at hi
    omega

/-- The store changes without the jobs, and what they know stays so. -/
theorem Sound.others (h : D.Sound know p) {s : σ} (hs : ∀ i, D.Holds (know i) s) :
    D.Sound know { p with store := s } := { h with holds := hs }

/-- **A step of one job** is one of the discipline and keeps the pool sound. -/
theorem Sound.advance (h : D.Sound know p) {step : J → σ → J × σ × Option ν}
    (hstep : D.Follows step) {i : Nat} {job : J} (hi : p.jobs[i]? = some job) :
    ∃ k', D.Writes (know i) p.store (step job p.store).2.2 k' (step job p.store).2.1 ∧
      D.Sound (Function.update know i k') (p.advance step i) := by
  obtain ⟨k', hwrites, hholds, hkeeps⟩ := hstep job (know i) p.store (h.keeps i job hi) (h.holds i)
  refine ⟨k', hwrites, ?_⟩
  have hstate : p.advance step i =
      { store := (step job p.store).2.1
        jobs := p.jobs.set i (step job p.store).1
        log := p.log ++ (step job p.store).2.2.toList } := by
    simp only [Pool.advance, hi]
  rw [hstate]
  have hnew : ∀ j, j ≠ i → D.Apart k' (know j) := fun j hj =>
    D.stays_apart hwrites (h.holds j) (h.apart i j (Ne.symm hj))
  constructor
  case keeps =>
    intro j other hj
    rcases getElem?_set_cases hj with ⟨rfl, rfl⟩ | ⟨hne, hj⟩
    · rw [Function.update_self]
      exact hkeeps
    · rw [Function.update_of_ne hne]
      exact h.keeps j other hj
  case holds =>
    intro j
    by_cases hj : j = i
    · rw [hj, Function.update_self]
      exact hholds
    · rw [Function.update_of_ne hj]
      exact D.spares hwrites (h.holds j) (h.apart i j (Ne.symm hj))
  case apart =>
    intro a b hab
    by_cases ha : a = i
    · have hb : b ≠ i := fun hb => hab (ha.trans hb.symm)
      rw [ha, Function.update_self, Function.update_of_ne hb]
      exact hnew b hb
    · rw [Function.update_of_ne ha]
      by_cases hb : b = i
      · rw [hb, Function.update_self]
        exact D.apart_symm (hnew a ha)
      · rw [Function.update_of_ne hb]
        exact h.apart a b hab
  case idle =>
    intro j hj
    have hne : j ≠ i := by
      rintro rfl
      rw [List.getElem?_set_self (List.getElem?_eq_some_iff.mp hi).1] at hj
      cases hj
    rw [Function.update_of_ne hne]
    apply h.idle
    rw [List.getElem?_eq_none_iff] at hj ⊢
    simpa using hj

end Discipline

end Relational

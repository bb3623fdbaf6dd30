import InstagramArchive.Relational.Execution

/-!
# At-least-once deliveries

A receiver handles deliveries one after another. Each delivery either commits or
leaves the state alone, and a committed one makes its key known. When a known key is
absorbed without effect, a run over any sequence of deliveries ends where the run over
the first committed delivery of each key ends.
-/

namespace Relational

/-- A receiver of keyed deliveries; `key` is `none` for a delivery it cannot read. -/
structure Receiver (σ ι κ : Type) where
  key : ι → Option κ
  known : σ → κ → Prop
  committed : σ → ι → Bool
  deliver : σ → ι → σ

/-- What makes a receiver idempotent. -/
structure Receiver.Idempotent {σ ι κ : Type} (r : Receiver σ ι κ) : Prop where
  aborted : ∀ s d, r.committed s d = false → r.deliver s d = s
  keyed : ∀ s d, r.committed s d = true → ∃ k, r.key d = some k
  absorbs : ∀ s d k, r.key d = some k → r.known s k → r.deliver s d = s
  learns : ∀ s d k, r.committed s d = true → r.key d = some k → r.known (r.deliver s d) k
  keeps : ∀ s d k, r.known s k → r.known (r.deliver s d) k
  adds : ∀ s d k, r.known (r.deliver s d) k →
    r.known s k ∨ (r.committed s d = true ∧ r.key d = some k)

namespace Receiver

variable {σ ι κ : Type} (r : Receiver σ ι κ)

/-- Whether a delivery repeats a key of `seen`. -/
def repeats [DecidableEq κ] (seen : List κ) (d : ι) : Bool := (r.key d).any fun k => seen.contains k

/-- The first committed delivery of each key, in order. -/
def firstCommitted [DecidableEq κ] : List κ → σ → List ι → List ι
  | _, _, [] => []
  | seen, s, d :: rest =>
    if r.committed s d && !r.repeats seen d then
      d :: firstCommitted ((r.key d).toList ++ seen) (r.deliver s d) rest
    else firstCommitted seen (r.deliver s d) rest

/-- The keys of the committed deliveries of a run. -/
def committedKeys : σ → List ι → List κ
  | _, [] => []
  | s, d :: rest =>
    (if r.committed s d then (r.key d).toList else []) ++ committedKeys (r.deliver s d) rest

theorem committedKeys_cons (s : σ) (d : ι) (rest : List ι) :
    r.committedKeys s (d :: rest) =
      (if r.committed s d then (r.key d).toList else []) ++ r.committedKeys (r.deliver s d) rest :=
  rfl

theorem repeats_iff [DecidableEq κ] {seen : List κ} {d : ι} :
    r.repeats seen d = true ↔ ∃ k ∈ seen, r.key d = some k := by
  unfold repeats
  cases r.key d with
  | none => simp
  | some k => simp

variable {r}

/-- What is known at the end of a run is what was known before it and what it
committed. -/
theorem Idempotent.known_run_iff (h : r.Idempotent) {s : σ} {k : κ} {ds : List ι} :
    r.known (run r.deliver s ds) k ↔ r.known s k ∨ k ∈ r.committedKeys s ds := by
  induction ds generalizing s with
  | nil => simp [committedKeys]
  | cons d rest ih =>
    rw [run_cons, ih, committedKeys_cons]
    constructor
    · rintro (hk | hk)
      · rcases h.adds s d k hk with hs | ⟨hc, hkey⟩
        · exact Or.inl hs
        · right
          simp [hc, hkey]
      · exact Or.inr (List.mem_append_right _ hk)
    · rintro (hk | hk)
      · exact Or.inl (h.keeps s d k hk)
      · rcases List.mem_append.mp hk with hd | hrest
        · split at hd
          · rename_i hc
            exact Or.inl (h.learns s d k hc (Option.mem_toList.mp hd))
          · simp at hd
        · exact Or.inr hrest

/-- **Deduplication.** Dropping everything but the first committed delivery of each
key does not change where a run ends. -/
theorem Idempotent.run_firstCommitted [DecidableEq κ] (h : r.Idempotent) (ds : List ι) {seen : List κ} {s : σ}
    (hseen : ∀ k ∈ seen, r.known s k) :
    run r.deliver s (r.firstCommitted seen s ds) = run r.deliver s ds := by
  induction ds generalizing seen s with
  | nil => rfl
  | cons d rest ih =>
    unfold firstCommitted
    by_cases hc : r.committed s d = true
    · by_cases hr : r.repeats seen d = true
      · obtain ⟨k, hk, hkey⟩ := (repeats_iff r).mp hr
        have hsame : r.deliver s d = s := h.absorbs s d k hkey (hseen k hk)
        simp only [hc, hr, Bool.not_true, Bool.and_false, Bool.false_eq_true, if_false, run_cons,
          hsame]
        exact ih hseen
      · simp only [hc, hr, Bool.not_false, Bool.and_self, if_true, run_cons]
        apply ih
        intro k hk
        rcases List.mem_append.mp hk with hd | hs
        · exact h.learns s d k hc (Option.mem_toList.mp hd)
        · exact h.keeps s d k (hseen k hs)
    · have hsame : r.deliver s d = s := h.aborted s d (by simpa using hc)
      simp only [hc, Bool.false_and, Bool.false_eq_true, if_false, run_cons, hsame]
      exact ih hseen

end Receiver

end Relational

import InstagramArchive.Relational.Commit
import InstagramArchive.Relational.Script

/-!
# Parts of a store and who owns them

`zoom` runs a transaction on a part of the store. `Tracks` follows what a script knows from
one transaction to the next, when the knowledge includes what the script owns: a step relates
what was known before it to what is known after it, so that a system of scripts can keep the
things they own apart. `Completes` is the total reading: a script that runs alone comes to an
answer.
-/

namespace Relational

namespace Tx

variable {σ τ ε ε' α β : Type} {env : Env}

/-- A transaction on a part of the store. -/
def zoom (get : τ → σ) (set : τ → σ → τ) (x : Tx σ ε α) : Tx τ ε α := fun env ses =>
  match x env ⟨get ses.store, ses.tick⟩ with
  | .ok (a, part) => .ok (a, ⟨set ses.store part.store, part.tick⟩)
  | .error e => .error e

variable {get : τ → σ} {set : τ → σ → τ} {t t' : τ} {a : α}

theorem Yields.zoom {x : Tx σ ε α} (h : (x.zoom get set).Yields env t a t') :
    ∃ s', x.Yields env (get t) a s' ∧ t' = set t s' := by
  obtain ⟨k, k', h⟩ := h
  unfold Tx.zoom at h
  cases hx : x env ⟨get t, k⟩ with
  | error e => rw [hx] at h; cases h
  | ok r =>
    rw [hx] at h
    cases h
    exact ⟨r.2.store, ⟨k, r.2.tick, hx⟩, rfl⟩

theorem exec_zoom {x : Tx σ ε α} {s' : σ} (h : x.exec env (get t) = (.ok a, s')) :
    (x.zoom get set).exec env t = (.ok a, set t s') := by
  unfold exec at h ⊢
  unfold Tx.zoom
  cases hx : x env ⟨get t, 0⟩ with
  | error e => rw [hx] at h; cases h
  | ok r =>
    rw [hx] at h
    cases h
    rfl

theorem exec_attempt {x : Tx σ ε α} {s s' : σ} (h : x.exec env s = (.ok a, s')) :
    (x.attempt : Tx σ ε' (Except ε α)).exec env s = (.ok (.ok a), s') := by
  unfold exec at h ⊢
  unfold attempt
  cases hx : x env ⟨s, 0⟩ with
  | error e => rw [hx] at h; cases h
  | ok r =>
    rw [hx] at h
    cases h
    rfl

end Tx

namespace Script

variable {σ ε ρ ω ν α β κ : Type}

/-- Under what the script knows, each of its transactions is a step of `T` to what it knows
afterwards, and its answer comes with the knowledge of `Post`. -/
def Tracks (Holds : κ → σ → Prop) (T : κ → Env → σ → Option ν → κ → σ → Prop)
    (Post : α → κ → Prop) : Script σ ε ρ ω ν α → κ → Prop
  | finish (.ok a), k => Post a k
  | finish (.error _), _ => True
  | transact x event next, k =>
    ∀ env s b s', Holds k s → x.Yields env s b s' →
      ∃ k', T k env s (event b) k' s' ∧ Holds k' s' ∧ (next b).Tracks Holds T Post k'
  | ask _ next, k => ∀ a, (next a).Tracks Holds T Post k

section Tracks

variable {Holds : κ → σ → Prop} {T : κ → Env → σ → Option ν → κ → σ → Prop} {k : κ}
  {Post : α → κ → Prop}

theorem Tracks.pure {a : α} (h : Post a k) :
    (Pure.pure a : Script σ ε ρ ω ν α).Tracks Holds T Post k := h

theorem Tracks.fail (e : ε) : (Script.fail e : Script σ ε ρ ω ν α).Tracks Holds T Post k := trivial

theorem Tracks.emit {x : Tx σ ε α} {event : α → Option ν}
    (h : ∀ env s b s', Holds k s → x.Yields env s b s' →
      ∃ k', T k env s (event b) k' s' ∧ Holds k' s' ∧ Post b k') :
    (Script.emit x event : Script σ ε ρ ω ν α).Tracks Holds T Post k := h

theorem Tracks.tx {x : Tx σ ε α}
    (h : ∀ env s b s', Holds k s → x.Yields env s b s' →
      ∃ k', T k env s none k' s' ∧ Holds k' s' ∧ Post b k') :
    (Script.tx x : Script σ ε ρ ω ν α).Tracks Holds T Post k := h

theorem Tracks.mono {Q : α → κ → Prop} {x : Script σ ε ρ ω ν α} (h : x.Tracks Holds T Q k)
    (hq : ∀ a k', Q a k' → Post a k') : x.Tracks Holds T Post k := by
  induction x generalizing k with
  | finish result =>
    cases result with
    | error e => trivial
    | ok a => exact hq a k h
  | transact x event next ih =>
    intro env s b s' hs hy
    obtain ⟨k', hT, hk', hnext⟩ := h env s b s' hs hy
    exact ⟨k', hT, hk', ih b hnext⟩
  | ask request next ih => exact fun a => ih a (h a)

theorem Tracks.bind {Q : β → κ → Prop} {x : Script σ ε ρ ω ν β} {f : β → Script σ ε ρ ω ν α}
    (hx : x.Tracks Holds T Q k) (hf : ∀ b k', Q b k' → (f b).Tracks Holds T Post k') :
    (x >>= f).Tracks Holds T Post k := by
  change (Script.bind x f).Tracks Holds T Post k
  induction x generalizing k with
  | finish result =>
    cases result with
    | error e => trivial
    | ok b => exact hf b k hx
  | transact x event next ih =>
    intro env s b s' hs hy
    obtain ⟨k', hT, hk', hnext⟩ := hx env s b s' hs hy
    exact ⟨k', hT, hk', ih b hnext⟩
  | ask request next ih => exact fun a => ih a (hx a)

/-- **A step of a tracked script** leaves the store and its knowledge alone or is a step of
`T`. -/
theorem Tracks.advance {x : Script σ ε ρ ω ν α} {s : σ} (h : x.Tracks Holds T Post k)
    (hs : Holds k s) (env : Env) (answer : ω) :
    ∃ k', ((x.advance env answer s).2 = (s, none) ∧ k' = k ∨
        T k env s (x.advance env answer s).2.2 k' (x.advance env answer s).2.1) ∧
      Holds k' (x.advance env answer s).2.1 ∧
      (x.advance env answer s).1.Tracks Holds T Post k' := by
  cases x with
  | finish result => exact ⟨k, Or.inl ⟨rfl, rfl⟩, hs, h⟩
  | ask request next => exact ⟨k, Or.inl ⟨rfl, rfl⟩, hs, h answer⟩
  | transact x event next =>
    rcases Tx.exec_cases x env s with ⟨b, s', he, hy⟩ | ⟨e, he⟩
    · rw [advance_ok he]
      obtain ⟨k', hT, hk', hnext⟩ := h env s b s' hs hy
      exact ⟨k', Or.inr hT, hk', hnext⟩
    · rw [advance_error he]
      exact ⟨k, Or.inl ⟨rfl, rfl⟩, hs, trivial⟩

end Tracks

/-! ## Requests served by a script -/

/-- The script on a part of the store, with a script that serves its requests. -/
def handle {τ ρ' ω' ν' : Type} (get : τ → σ) (set : τ → σ → τ) (relay : ν → Option ν')
    (serve : ρ → Script τ ε ρ' ω' ν' ω) : Script σ ε ρ ω ν α → Script τ ε ρ' ω' ν' α
  | finish result => finish result
  | transact x event next =>
    transact (x.zoom get set) (fun b => (event b).bind relay) fun b =>
      (next b).handle get set relay serve
  | ask request next => serve request >>= fun a => (next a).handle get set relay serve

section Handle

variable {τ ρ' ω' ν' : Type} {get : τ → σ} {set : τ → σ → τ} {relay : ν → Option ν'}
  {serve : ρ → Script τ ε ρ' ω' ν' ω} {Holds : κ → τ → Prop}
  {T : κ → Env → τ → Option ν' → κ → τ → Prop} {k : κ}

theorem Tracks.handle_pure {Post : α → κ → Prop} {a : α} (h : Post a k) :
    ((Pure.pure a : Script σ ε ρ ω ν α).handle get set relay serve).Tracks Holds T Post k := h

/-- One transaction of the served script. -/
theorem Tracks.handle_tx {Post : α → κ → Prop} {x : Tx σ ε β} {f : β → Script σ ε ρ ω ν α}
    (h : ∀ env t b s', Holds k t → x.Yields env (get t) b s' →
      ∃ k', T k env t none k' (set t s') ∧ Holds k' (set t s') ∧
        ((f b).handle get set relay serve).Tracks Holds T Post k') :
    ((Script.tx x >>= f).handle get set relay serve).Tracks Holds T Post k := by
  intro env t b t' ht hy
  obtain ⟨s', hs', rfl⟩ := hy.zoom
  exact h env t b s' ht hs'

/-- A request of the served script. -/
theorem Tracks.handle_request {Post : α → κ → Prop} {Q : ω → κ → Prop} {r : ρ}
    {f : ω → Script σ ε ρ ω ν α} (hserve : (serve r).Tracks Holds T Q k)
    (hf : ∀ a k', Q a k' → ((f a).handle get set relay serve).Tracks Holds T Post k') :
    ((Script.request r >>= f).handle get set relay serve).Tracks Holds T Post k :=
  hserve.bind hf

end Handle

/-- Run alone from step `n`, the script comes to an answer with `Q`. -/
def Completes (turns : Nat → Env × (ρ → ω)) (Q : α → Nat → σ → Prop) :
    Script σ ε ρ ω ν α → Nat → σ → Prop
  | finish (.ok a), n, s => Q a n s
  | finish (.error _), _, _ => False
  | transact x _ next, n, s =>
    ∃ b s', x.exec (turns n).1 s = (.ok b, s') ∧ (next b).Completes turns Q (n + 1) s'
  | ask request next, n, s => (next ((turns n).2 request)).Completes turns Q (n + 1) s

section Completes

variable {turns : Nat → Env × (ρ → ω)} {Q : α → Nat → σ → Prop} {n : Nat} {s : σ}

theorem Completes.pure {a : α} (h : Q a n s) :
    (Pure.pure a : Script σ ε ρ ω ν α).Completes turns Q n s := h

theorem Completes.emit {x : Tx σ ε α} {event : α → Option ν} {a : α} {s' : σ}
    (hx : x.exec (turns n).1 s = (.ok a, s')) (h : Q a (n + 1) s') :
    (Script.emit x event : Script σ ε ρ ω ν α).Completes turns Q n s := ⟨a, s', hx, h⟩

theorem Completes.tx {x : Tx σ ε α} {a : α} {s' : σ} (hx : x.exec (turns n).1 s = (.ok a, s'))
    (h : Q a (n + 1) s') : (Script.tx x : Script σ ε ρ ω ν α).Completes turns Q n s :=
  ⟨a, s', hx, h⟩

theorem Completes.bind {R : β → Nat → σ → Prop} {x : Script σ ε ρ ω ν β}
    {f : β → Script σ ε ρ ω ν α} (hx : x.Completes turns R n s)
    (hf : ∀ b n' s', R b n' s' → (f b).Completes turns Q n' s') :
    (x >>= f).Completes turns Q n s := by
  change (Script.bind x f).Completes turns Q n s
  induction x generalizing n s with
  | finish result =>
    cases result with
    | error e => exact hx.elim
    | ok b => exact hf b n s hx
  | transact x event next ih =>
    obtain ⟨b, s', he, hnext⟩ := hx
    exact ⟨b, s', he, ih b hnext⟩
  | ask request next ih => exact ih _ hx

/-- One transaction of a served script. -/
theorem Completes.handle_tx {τ ρ' ω' ν' : Type} {get : τ → σ} {set : τ → σ → τ}
    {relay : ν → Option ν'} {serve : ρ → Script τ ε ρ' ω' ν' ω} {turns : Nat → Env × (ρ' → ω')}
    {Q : α → Nat → τ → Prop} {t : τ} {x : Tx σ ε β} {f : β → Script σ ε ρ ω ν α} {b : β} {s' : σ}
    (hx : x.exec (turns n).1 (get t) = (.ok b, s'))
    (h : ((f b).handle get set relay serve).Completes turns Q (n + 1) (set t s')) :
    ((Script.tx x >>= f).handle get set relay serve).Completes turns Q n t :=
  ⟨b, set t s', Tx.exec_zoom hx, h⟩

/-- One request of a served script. -/
theorem Completes.handle_request {τ ρ' ω' ν' : Type} {get : τ → σ} {set : τ → σ → τ}
    {relay : ν → Option ν'} {serve : ρ → Script τ ε ρ' ω' ν' ω} {turns : Nat → Env × (ρ' → ω')}
    {Q : α → Nat → τ → Prop} {R : ω → Nat → τ → Prop} {t : τ} {r : ρ} {f : ω → Script σ ε ρ ω ν α}
    (hserve : (serve r).Completes turns R n t)
    (hf : ∀ a n' t', R a n' t' → ((f a).handle get set relay serve).Completes turns Q n' t') :
    ((Script.request r >>= f).handle get set relay serve).Completes turns Q n t :=
  hserve.bind hf

/-- **A script that completes** answers what its run answers. -/
theorem Completes.run {x : Script σ ε ρ ω ν α} (h : x.Completes turns Q n s) :
    ∃ a n' s' events, x.run turns n s = (.ok a, s', events) ∧ Q a n' s' := by
  induction x generalizing n s with
  | finish result =>
    cases result with
    | error e => exact h.elim
    | ok a => exact ⟨a, n, s, [], rfl, h⟩
  | transact x event next ih =>
    obtain ⟨b, s', he, hnext⟩ := h
    obtain ⟨a, n', s'', events, hrun, hq⟩ := ih b hnext
    refine ⟨a, n', s'', (event b).toList ++ events, ?_, hq⟩
    simp only [Script.run, he, hrun]
  | ask request next ih => exact ih _ h

end Completes

end Script

/-! ## Lists of scripts -/

theorem getElem?_concat_cases {α : Type*} {l : List α} {a c : α} {i : Nat}
    (h : (l ++ [a])[i]? = some c) : l[i]? = some c ∨ (i = l.length ∧ c = a) := by
  rw [List.getElem?_append] at h
  split at h
  · exact Or.inl h
  · rename_i hi
    obtain ⟨hlt, hget⟩ := List.getElem?_eq_some_iff.mp h
    simp only [List.length_singleton] at hlt
    exact Or.inr ⟨by omega, by simpa using hget.symm⟩

theorem getElem?_set_cases {α : Type*} {l : List α} {a c : α} {i j : Nat}
    (h : (l.set i a)[j]? = some c) : (j = i ∧ c = a) ∨ (j ≠ i ∧ l[j]? = some c) := by
  rw [List.getElem?_set] at h
  split at h
  · rename_i hij
    split at h
    · exact Or.inl ⟨hij.symm, by simpa using h.symm⟩
    · cases h
  · rename_i hij
    exact Or.inr ⟨Ne.symm hij, h⟩

end Relational

import InstagramArchive.Relational.Ownership

/-!
# Errors of scripts, and scripts in two stores

`attempt` hands the error of a script to its caller. `eval` is a script run alone, with the
number of the step it comes to, so that what follows it can be run from there.

A transaction commutes with a map between stores when it does in the image what it does in the
original: the same answer, and the image of the same store. A script whose transactions all
commute evaluates alike in both stores.
-/

namespace Relational

namespace Script

variable {σ ε ε' ρ ω ν α β κ : Type}

/-- Runs `x` and hands its error to the caller. What a failed transaction would have left is
dropped, what the earlier ones committed stays. -/
def attempt : Script σ ε ρ ω ν α → Script σ ε' ρ ω ν (Except ε α)
  | finish result => finish (.ok result)
  | transact x event next =>
    transact (Tx.attempt x)
      (fun r => match r with
        | .ok b => event b
        | .error _ => none)
      fun r => match r with
        | .ok b => (next b).attempt
        | .error e => finish (.ok (.error e))
  | ask request next => ask request fun a => (next a).attempt

theorem Tracks.attempt {Holds : κ → σ → Prop} {T : κ → Env → σ → Option ν → κ → σ → Prop}
    {Post : α → κ → Prop} {x : Script σ ε ρ ω ν α} {k : κ}
    (hidle : ∀ k env s, T k env s none k s) (h : x.Tracks Holds T Post k) :
    (x.attempt : Script σ ε' ρ ω ν (Except ε α)).Tracks Holds T
      (fun r k' => ∀ a, r = .ok a → Post a k') k := by
  induction x generalizing k with
  | finish result =>
    show ∀ a, result = .ok a → Post a k
    rintro a rfl
    exact h
  | ask request next ih => exact fun a => ih a (h a)
  | transact x event next ih =>
    unfold Script.attempt
    intro env s r s' hs hy
    rcases hy.attempt with ⟨b, rfl, hx⟩ | ⟨e, rfl, rfl, -⟩
    · obtain ⟨k', hT, hk', hnext⟩ := h env s b s' hs hx
      exact ⟨k', hT, hk', ih b hnext⟩
    · refine ⟨k, hidle k env s, hs, ?_⟩
      show ∀ a, Except.error e = .ok a → Post a k
      simp

/-- The script run alone from step `n`: its answer, the step it comes to and the store. -/
def eval (turns : Nat → Env × (ρ → ω)) : Script σ ε ρ ω ν α → Nat → σ → Except ε α × Nat × σ
  | finish result, n, s => (result, n, s)
  | transact x _ next, n, s =>
    match x.exec (turns n).1 s with
    | (.ok b, s') => (next b).eval turns (n + 1) s'
    | (.error e, s') => (.error e, n + 1, s')
  | ask request next, n, s => (next ((turns n).2 request)).eval turns (n + 1) s

section Eval

variable {turns : Nat → Env × (ρ → ω)}

theorem eval_bind (x : Script σ ε ρ ω ν α) (f : α → Script σ ε ρ ω ν β) (n : Nat) (s : σ) :
    (x >>= f).eval turns n s =
      match x.eval turns n s with
      | (.ok a, n', s') => (f a).eval turns n' s'
      | (.error e, n', s') => (.error e, n', s') := by
  change (Script.bind x f).eval turns n s = _
  induction x generalizing n s with
  | finish result => cases result <;> rfl
  | ask request next ih => exact ih _ _ _
  | transact x event next ih =>
    simp only [Script.bind, eval]
    cases x.exec (turns n).1 s with
    | mk result s' =>
      cases result with
      | ok b => exact ih b _ _
      | error e => rfl

theorem eval_attempt (x : Script σ ε ρ ω ν α) (n : Nat) (s : σ) :
    (x.attempt : Script σ ε' ρ ω ν (Except ε α)).eval turns n s =
      (.ok (x.eval turns n s).1, (x.eval turns n s).2) := by
  induction x generalizing n s with
  | finish result => rfl
  | ask request next ih => exact ih _ _ _
  | transact x event next ih =>
    have hexec : (Tx.attempt x : Tx σ ε' _).exec (turns n).1 s =
        (.ok (x.exec (turns n).1 s).1, (x.exec (turns n).1 s).2) := by
      unfold Tx.exec Tx.attempt
      cases x (turns n).1 ⟨s, 0⟩ <;> rfl
    simp only [attempt, eval, hexec]
    cases x.exec (turns n).1 s with
    | mk result s' =>
      cases result with
      | ok b => exact ih b _ _
      | error e => rfl

theorem eval_tx (x : Tx σ ε α) (n : Nat) (s : σ) :
    (Script.tx x : Script σ ε ρ ω ν α).eval turns n s =
      ((x.exec (turns n).1 s).1, n + 1, (x.exec (turns n).1 s).2) := by
  simp only [Script.tx, eval]
  cases x.exec (turns n).1 s with
  | mk result s' => cases result <;> rfl

theorem eval_request (r : ρ) (n : Nat) (s : σ) :
    (Script.request r : Script σ ε ρ ω ν ω).eval turns n s = (.ok ((turns n).2 r), n + 1, s) := rfl

theorem eval_fetchOne [OfSql ε] {e : ε} {f : σ → Option α} {a : α} {n : Nat} {s : σ}
    (hfault : (turns n).1.fault 0 = false) (h : f s = some a) :
    (Script.tx (Tx.fetchOne e f) : Script σ ε ρ ω ν α).eval turns n s = (.ok a, n + 1, s) := by
  have hread : (Tx.fetchOne e f : Tx σ ε α) (turns n).1 ⟨s, 0⟩ = .ok (a, ⟨s, 1⟩) := by
    have hquery : (Tx.query f : Tx σ ε (Option α)) (turns n).1 ⟨s, 0⟩ = .ok (some a, ⟨s, 1⟩) := by
      simp [Tx.query, Tx.statement, hfault, h]
    unfold Tx.fetchOne
    simp only [Bind.bind, hquery]
    rfl
  rw [eval_tx]
  unfold Tx.exec
  rw [hread]

end Eval

/-! ## What a script keeps while it runs alone -/

theorem Respects.attempt {R : σ → σ → Prop} [IsPreorder σ R] {x : Script σ ε ρ ω ν α}
    (h : x.Respects R) : (x.attempt : Script σ ε' ρ ω ν (Except ε α)).Respects R := by
  induction x with
  | finish result => trivial
  | ask request next ih => exact fun a => ih a (h a)
  | transact x event next ih =>
    unfold Script.attempt
    refine ⟨fun env s r s' hy => ?_, fun r => ?_⟩
    · rcases hy.attempt with ⟨b, -, hx⟩ | ⟨e, -, rfl, -⟩
      · exact h.1 env s b s' hx
      · exact Std.Refl.refl s
    · cases r with
      | ok b => exact ih b (h.2 b)
      | error e => trivial

/-- A script that respects a preorder moves the store along it. -/
theorem Respects.eval {R : σ → σ → Prop} [IsPreorder σ R] {x : Script σ ε ρ ω ν α}
    (h : x.Respects R) (turns : Nat → Env × (ρ → ω)) (n : Nat) (s : σ) :
    R s (x.eval turns n s).2.2 := by
  induction x generalizing n s with
  | finish result => exact Std.Refl.refl s
  | ask request next ih => exact ih _ (h _) _ _
  | transact x event next ih =>
    unfold Script.eval
    rcases Tx.exec_cases x (turns n).1 s with ⟨b, s', he, hy⟩ | ⟨e, he⟩
    · rw [he]
      exact IsTrans.trans s s' _ (h.1 _ s b s' hy) (ih b (h.2 b) _ _)
    · rw [he]
      exact Std.Refl.refl s

end Script

/-! ## What a script answers when it runs alone -/

namespace Script

variable {σ ε ε' ρ ω ν α β : Type} {s : σ}

/-- Run alone from the store, whatever the script answers comes with `Q`. -/
def Ensures (Q : Except ε α → σ → Prop) : Script σ ε ρ ω ν α → σ → Prop
  | finish result, s => Q result s
  | transact x _ next, s =>
    (∀ env a s', x.Yields env s a s' → (next a).Ensures Q s') ∧
      ∀ env e, x.Fails env s e → Q (.error e) s
  | ask _ next, s => ∀ a, (next a).Ensures Q s

section Ensures

variable {Q : Except ε α → σ → Prop} {R : Except ε β → σ → Prop}

theorem Ensures.pure {a : α} (h : Q (.ok a) s) :
    (Pure.pure a : Script σ ε ρ ω ν α).Ensures Q s := h

theorem Ensures.fail {e : ε} (h : Q (.error e) s) :
    (Script.fail e : Script σ ε ρ ω ν α).Ensures Q s := h

theorem Ensures.request {r : ρ} {Q : Except ε ω → σ → Prop} (h : ∀ a, Q (.ok a) s) :
    (Script.request r : Script σ ε ρ ω ν ω).Ensures Q s := h

theorem Ensures.tx {x : Tx σ ε α} (h : ∀ env a s', x.Yields env s a s' → Q (.ok a) s')
    (he : ∀ env e, x.Fails env s e → Q (.error e) s) :
    (Script.tx x : Script σ ε ρ ω ν α).Ensures Q s := ⟨h, he⟩

theorem Ensures.emit {x : Tx σ ε α} {event : α → Option ν}
    (h : ∀ env a s', x.Yields env s a s' → Q (.ok a) s')
    (he : ∀ env e, x.Fails env s e → Q (.error e) s) :
    (Script.emit x event : Script σ ε ρ ω ν α).Ensures Q s := ⟨h, he⟩

theorem Ensures.bind {x : Script σ ε ρ ω ν α} {f : α → Script σ ε ρ ω ν β}
    (hx : x.Ensures Q s) (hok : ∀ a s', Q (.ok a) s' → (f a).Ensures R s')
    (herror : ∀ e s', Q (.error e) s' → R (.error e) s') : (x >>= f).Ensures R s := by
  change (Script.bind x f).Ensures R s
  induction x generalizing s with
  | finish result =>
    cases result with
    | ok a => exact hok a s hx
    | error e => exact herror e s hx
  | ask request next ih => exact fun a => ih a (hx a)
  | transact x event next ih =>
    exact ⟨fun env a s' hy => ih a (hx.1 env a s' hy), fun env e hf => herror e s (hx.2 env e hf)⟩

theorem Ensures.attempt {x : Script σ ε ρ ω ν α} (h : x.Ensures Q s) :
    (x.attempt : Script σ ε' ρ ω ν (Except ε α)).Ensures
      (fun r s' => ∃ a, r = .ok a ∧ Q a s') s := by
  induction x generalizing s with
  | finish result => exact ⟨result, rfl, h⟩
  | ask request next ih => exact fun a => ih a (h a)
  | transact x event next ih =>
    unfold Script.attempt
    refine ⟨fun env r s' hy => ?_, fun env e hf => ?_⟩
    · rcases hy.attempt with ⟨b, rfl, hx⟩ | ⟨e, rfl, rfl, hf⟩
      · exact ih b (h.1 env b s' hx)
      · exact ⟨.error e, rfl, h.2 env e hf⟩
    · obtain ⟨k, hk⟩ := hf
      unfold Tx.attempt at hk
      split at hk <;> cases hk

theorem Ensures.eval {x : Script σ ε ρ ω ν α} (h : x.Ensures Q s) (turns : Nat → Env × (ρ → ω))
    (n : Nat) : Q (x.eval turns n s).1 (x.eval turns n s).2.2 := by
  induction x generalizing n s with
  | finish result => exact h
  | ask request next ih => exact ih _ (h _) _
  | transact x event next ih =>
    unfold Script.eval
    rcases Tx.exec_cases x (turns n).1 s with ⟨b, s', he, hy⟩ | ⟨e, he⟩
    · rw [he]
      exact ih b (h.1 _ b s' hy) _
    · rw [he]
      exact h.2 _ e (Tx.exec_fails (by rw [he]))

theorem Ensures.run {x : Script σ ε ρ ω ν α} (h : x.Ensures Q s) (turns : Nat → Env × (ρ → ω))
    (n : Nat) : Q (x.run turns n s).1 (x.run turns n s).2.1 := by
  induction x generalizing n s with
  | finish result => exact h
  | ask request next ih => exact ih _ (h _) _
  | transact x event next ih =>
    unfold Script.run
    rcases Tx.exec_cases x (turns n).1 s with ⟨b, s', he, hy⟩ | ⟨e, he⟩
    · rw [he]
      exact ih b (h.1 _ b s' hy) _
    · rw [he]
      exact h.2 _ e (Tx.exec_fails (by rw [he]))

/-- One transaction of a served script. -/
theorem Ensures.handle_tx {τ ρ' ω' ν' : Type} {get : τ → σ} {set : τ → σ → τ}
    {relay : ν → Option ν'} {serve : ρ → Script τ ε ρ' ω' ν' ω} {Q : Except ε α → τ → Prop} {t : τ}
    {x : Tx σ ε β} {f : β → Script σ ε ρ ω ν α}
    (h : ∀ env b s', x.Yields env (get t) b s' →
      ((f b).handle get set relay serve).Ensures Q (set t s')) (he : ∀ e, Q (.error e) t) :
    ((Script.tx x >>= f).handle get set relay serve).Ensures Q t := by
  refine ⟨fun env b t' hy => ?_, fun _ e _ => he e⟩
  obtain ⟨s', hs', rfl⟩ := hy.zoom
  exact h env b s' hs'

/-- One request of a served script. -/
theorem Ensures.handle_request {τ ρ' ω' ν' : Type} {get : τ → σ} {set : τ → σ → τ}
    {relay : ν → Option ν'} {serve : ρ → Script τ ε ρ' ω' ν' ω} {Q : Except ε α → τ → Prop}
    {R : Except ε ω → τ → Prop} {t : τ} {r : ρ} {f : ω → Script σ ε ρ ω ν α}
    (hserve : (serve r).Ensures R t)
    (hf : ∀ a t', R (.ok a) t' → ((f a).handle get set relay serve).Ensures Q t')
    (he : ∀ e t', R (.error e) t' → Q (.error e) t') :
    ((Script.request r >>= f).handle get set relay serve).Ensures Q t :=
  hserve.bind hf he

end Ensures

end Script

/-! ## Errors a transaction does not answer -/

namespace Tx

variable {σ ε ε' α β : Type} {bad : ε → Prop}

/-- Whatever the transaction fails with, it is not `bad`. -/
def Avoids (bad : ε → Prop) (x : Tx σ ε α) : Prop := ∀ env s e, x.Fails env s e → ¬ bad e

theorem Avoids.bind {x : Tx σ ε α} {f : α → Tx σ ε β} (hx : x.Avoids bad)
    (hf : ∀ a, (f a).Avoids bad) : (x >>= f).Avoids bad := by
  intro env s e h
  rcases h.bind with h | ⟨a, m, -, h⟩
  · exact hx env s e h
  · exact hf a env m e h

theorem Avoids.pure (a : α) : (Pure.pure a : Tx σ ε α).Avoids bad :=
  fun _ _ _ h => (Fails.pure h).elim

theorem Avoids.throw {e : ε} (h : ¬ bad e) : (Tx.throw e : Tx σ ε α).Avoids bad := by
  intro env s x hf
  rwa [← hf.throw]

theorem Avoids.nowV7 : (Tx.nowV7 : Tx σ ε Nat).Avoids bad := fun _ _ _ h => h.nowV7.elim

theorem Avoids.nowUtc : (Tx.nowUtc : Tx σ ε Int).Avoids bad := by
  rintro env s e ⟨k, h⟩
  cases h

theorem Avoids.mapError {x : Tx σ ε α} {g : ε → ε'} {bad : ε' → Prop}
    (h : x.Avoids fun e => bad (g e)) : (x.mapError g).Avoids bad := by
  intro env s e hf
  obtain ⟨e', rfl, hx⟩ := hf.mapError
  exact h env s e' hx

theorem Avoids.anything {x : Tx σ ε α} (h : ∀ e, ¬ bad e) : x.Avoids bad := fun _ _ e _ => h e

section Statements

variable [OfSql ε] {ρ κ : Type} [DecidableEq κ] {key : ρ → κ} {primaryKey : String}
  {get : σ → Table ρ key} {set : σ → Table ρ key → σ} {guard : σ → Option SqlError}
  {conflict : σ → Bool} {row : ρ}

theorem Avoids.statement {f : σ → Except SqlError (α × σ)}
    (h : ∀ q, ¬ bad (OfSql.ofSql q : ε)) : (Tx.statement f : Tx σ ε α).Avoids bad := by
  intro env s e hf
  obtain ⟨q, rfl⟩ := hf.statement
  exact h q

theorem Avoids.query {f : σ → α} (h : ∀ q, ¬ bad (OfSql.ofSql q : ε)) :
    (Tx.query f : Tx σ ε α).Avoids bad := .statement h

theorem Avoids.commit (h : ∀ q, ¬ bad (OfSql.ofSql q : ε)) :
    (Tx.commit : Tx σ ε Unit).Avoids bad := .query h

theorem Avoids.executeChecked {f : σ → σ} (h : ∀ q, ¬ bad (OfSql.ofSql q : ε)) :
    (Tx.executeChecked guard f : Tx σ ε Unit).Avoids bad := .statement h

theorem Avoids.insertInto (h : ∀ q, ¬ bad (OfSql.ofSql q : ε)) :
    (Tx.insertInto primaryKey get set guard row : Tx σ ε Unit).Avoids bad := .statement h

theorem Avoids.insertUnless (h : ∀ q, ¬ bad (OfSql.ofSql q : ε)) :
    (Tx.insertUnless primaryKey get set guard conflict row : Tx σ ε Bool).Avoids bad :=
  .statement h

end Statements

end Tx

/-! ## Transactions in two stores -/

namespace Tx

variable {σ ε ε' α β : Type} {φ : σ → σ} {P : σ → Prop} {env : Env} {V : α → Prop} {a : α}

/-- From a store with `P`, the transaction does in the image of the store what it does in the
store; it answers with `V` and keeps `P`. -/
def Commutes (φ : σ → σ) (P : σ → Prop) (env : Env) (V : α → Prop) (x : Tx σ ε α) : Prop :=
  ∀ ses, P ses.store →
    x env ⟨φ ses.store, ses.tick⟩ = (x env ses).map (fun r => (r.1, ⟨φ r.2.store, r.2.tick⟩)) ∧
      ∀ a ses', x env ses = .ok (a, ses') → V a ∧ P ses'.store

theorem Commutes.pure (h : V a) : Commutes φ P env V (Pure.pure a : Tx σ ε α) := by
  intro ses hs
  refine ⟨rfl, fun b ses' hx => ?_⟩
  cases hx
  exact ⟨h, hs⟩

theorem Commutes.bind {x : Tx σ ε α} {f : α → Tx σ ε β} {W : β → Prop}
    (hx : Commutes φ P env V x) (hf : ∀ a, V a → Commutes φ P env W (f a)) :
    Commutes φ P env W (x >>= f) := by
  intro ses hs
  obtain ⟨hsame, hkeeps⟩ := hx ses hs
  rw [bind_apply, bind_apply, hsame]
  cases hcase : x env ses with
  | error e => exact ⟨rfl, fun b ses' h => by cases h⟩
  | ok r =>
    obtain ⟨a, ses'⟩ := r
    obtain ⟨hv, hs'⟩ := hkeeps a ses' hcase
    exact hf a hv ses' hs'

theorem Commutes.throw {e : ε} : Commutes φ P env V (Tx.throw e : Tx σ ε α) :=
  fun _ _ => ⟨rfl, fun _ _ h => by cases h⟩

theorem Commutes.ofExcept {r : Except ε α} (h : ∀ a, r = .ok a → V a) :
    Commutes φ P env V (Tx.ofExcept r : Tx σ ε α) := by
  cases r with
  | error e => exact .throw
  | ok a => exact .pure (h a rfl)

theorem Commutes.mapError {x : Tx σ ε α} {g : ε → ε'} (h : Commutes φ P env V x) :
    Commutes φ P env V (x.mapError g) := by
  intro ses hs
  obtain ⟨hsame, hkeeps⟩ := h ses hs
  unfold Tx.mapError
  rw [hsame]
  cases hcase : x env ses with
  | error e => exact ⟨rfl, fun b ses' h => by cases h⟩
  | ok r =>
    refine ⟨rfl, fun b ses' h => ?_⟩
    cases h
    exact hkeeps _ _ hcase

theorem Commutes.attempt {x : Tx σ ε α} (h : Commutes φ P env V x) :
    Commutes φ P env (fun _ => True) (x.attempt : Tx σ ε' (Except ε α)) := by
  intro ses hs
  obtain ⟨hsame, hkeeps⟩ := h ses hs
  unfold Tx.attempt
  rw [hsame]
  cases hcase : x env ses with
  | error e =>
    refine ⟨rfl, fun b ses' h => ?_⟩
    cases h
    exact ⟨trivial, hs⟩
  | ok r =>
    refine ⟨rfl, fun b ses' h => ?_⟩
    cases h
    exact ⟨trivial, (hkeeps _ _ hcase).2⟩

theorem Commutes.nowV7 {W : Nat → Prop} (h : ∀ n, W (env.uuid n)) :
    Commutes φ P env W (Tx.nowV7 : Tx σ ε Nat) := by
  intro ses hs
  refine ⟨rfl, fun u ses' hx => ?_⟩
  cases hx
  exact ⟨h ses.tick, hs⟩

theorem Commutes.nowUtc : Commutes φ P env (fun _ => True) (Tx.nowUtc : Tx σ ε Int) := by
  intro ses hs
  refine ⟨rfl, fun u ses' hx => ?_⟩
  cases hx
  exact ⟨trivial, hs⟩

variable [OfSql ε]

theorem Commutes.statement {f : σ → Except SqlError (α × σ)}
    (h : ∀ s, P s → f (φ s) = (f s).map (fun r => (r.1, φ r.2)) ∧
      ∀ a s', f s = .ok (a, s') → V a ∧ P s') :
    Commutes φ P env V (Tx.statement f : Tx σ ε α) := by
  intro ses hs
  obtain ⟨hsame, hkeeps⟩ := h ses.store hs
  unfold Tx.statement
  dsimp only
  rw [hsame]
  by_cases hfault : env.fault ses.tick = true
  · simp only [hfault, if_true]
    exact ⟨rfl, fun b ses' h => by cases h⟩
  · simp only [hfault, Bool.false_eq_true, if_false]
    cases hcase : f ses.store with
    | error e => exact ⟨rfl, fun b ses' h => by cases h⟩
    | ok r =>
      refine ⟨rfl, fun b ses' h => ?_⟩
      cases h
      exact hkeeps _ _ hcase

theorem Commutes.query {f : σ → α} (h : ∀ s, P s → f (φ s) = f s ∧ V (f s)) :
    Commutes φ P env V (Tx.query f : Tx σ ε α) := by
  refine .statement fun s hs => ?_
  obtain ⟨hsame, hv⟩ := h s hs
  refine ⟨by rw [hsame]; rfl, fun a s' he => ?_⟩
  cases he
  exact ⟨hv, hs⟩

theorem Commutes.fetchOne {e : ε} {f : σ → Option α}
    (h : ∀ s, P s → f (φ s) = f s ∧ ∀ a, f s = some a → V a) :
    Commutes φ P env V (Tx.fetchOne e f : Tx σ ε α) := by
  have hquery : Commutes φ P env (fun r : Option α => ∀ a, r = some a → V a)
      (Tx.query f : Tx σ ε (Option α)) := .query h
  refine .bind hquery fun r hr => ?_
  cases r with
  | none => exact .throw
  | some a => exact .pure (hr a rfl)

theorem Commutes.executeChecked {guard : σ → Option SqlError} {f : σ → σ}
    (h : ∀ s, P s → guard (φ s) = guard s ∧ f (φ s) = φ (f s) ∧ P (f s)) :
    Commutes φ P env (fun _ => True) (Tx.executeChecked guard f : Tx σ ε Unit) := by
  refine .statement fun s hs => ?_
  obtain ⟨hguard, hf, hkeeps⟩ := h s hs
  rw [hguard]
  cases guard s with
  | some e => exact ⟨rfl, fun a s' he => by cases he⟩
  | none =>
    refine ⟨by rw [hf]; rfl, fun a s' he => ?_⟩
    cases he
    exact ⟨trivial, hkeeps⟩

section Insert

variable {ρ κ : Type} [DecidableEq κ] {key : ρ → κ} {primaryKey : String}
  {get : σ → Table ρ key} {set : σ → Table ρ key → σ} {guard : σ → Option SqlError}
  {conflict : σ → Bool} {row : ρ} {ψ : Table ρ key → Table ρ key}

theorem Commutes.insertInto
    (h : ∀ s, P s → guard (φ s) = guard s ∧
      (get (φ s)).insert? row = ((get s).insert? row).map ψ ∧
      ∀ t, (get s).insert? row = some t → set (φ s) (ψ t) = φ (set s t) ∧ P (set s t)) :
    Commutes φ P env (fun _ => True) (Tx.insertInto primaryKey get set guard row : Tx σ ε Unit) := by
  refine .statement fun s hs => ?_
  obtain ⟨hguard, hinsert, hset⟩ := h s hs
  rw [hguard, hinsert]
  cases guard s with
  | some e => exact ⟨rfl, fun a s' he => by cases he⟩
  | none =>
    cases hcase : (get s).insert? row with
    | none => exact ⟨rfl, fun a s' he => by cases he⟩
    | some t =>
      obtain ⟨hsame, hkeeps⟩ := hset t hcase
      refine ⟨by simp [hsame, Except.map], fun a s' he => ?_⟩
      cases he
      exact ⟨trivial, hkeeps⟩

theorem Commutes.insertUnless
    (h : ∀ s, P s → conflict (φ s) = conflict s ∧ guard (φ s) = guard s ∧
      (get (φ s)).insert? row = ((get s).insert? row).map ψ ∧
      ∀ t, (get s).insert? row = some t → set (φ s) (ψ t) = φ (set s t) ∧ P (set s t)) :
    Commutes φ P env (fun _ => True)
      (Tx.insertUnless primaryKey get set guard conflict row : Tx σ ε Bool) := by
  refine .statement fun s hs => ?_
  obtain ⟨hconflict, hguard, hinsert, hset⟩ := h s hs
  rw [hconflict, hguard, hinsert]
  cases conflict s with
  | true =>
    refine ⟨rfl, fun a s' he => ?_⟩
    cases he
    exact ⟨trivial, hs⟩
  | false =>
    cases guard s with
    | some e => exact ⟨rfl, fun a s' he => by cases he⟩
    | none =>
      cases hcase : (get s).insert? row with
      | none => exact ⟨rfl, fun a s' he => by cases he⟩
      | some t =>
        obtain ⟨hsame, hkeeps⟩ := hset t hcase
        refine ⟨by simp [hsame, Except.map], fun a s' he => ?_⟩
        cases he
        exact ⟨trivial, hkeeps⟩

end Insert

omit [OfSql ε] in
theorem Commutes.exec {x : Tx σ ε α} (h : Commutes φ P env V x) {s : σ} (hs : P s) :
    x.exec env (φ s) = ((x.exec env s).1, φ (x.exec env s).2) ∧ P (x.exec env s).2 := by
  obtain ⟨hsame, hkeeps⟩ := h ⟨s, 0⟩ hs
  unfold Tx.exec
  rw [hsame]
  cases hcase : x env ⟨s, 0⟩ with
  | error e => exact ⟨rfl, hs⟩
  | ok r => exact ⟨rfl, (hkeeps _ _ hcase).2⟩

end Tx

namespace Script

variable {σ ε ε' ρ ω ν α β : Type} {φ : σ → σ} {P : σ → Prop} {E : Env → Prop}

/-- Every transaction of the script commutes, in every environment of `E`. -/
def Commutes (φ : σ → σ) (P : σ → Prop) (E : Env → Prop) : Script σ ε ρ ω ν α → Prop
  | finish _ => True
  | transact x _ next =>
    (∀ env, E env → Tx.Commutes φ P env (fun _ => True) x) ∧ ∀ b, (next b).Commutes φ P E
  | ask _ next => ∀ a, (next a).Commutes φ P E

theorem Commutes.pure (a : α) :
    (Pure.pure a : Script σ ε ρ ω ν α).Commutes φ P E := trivial

theorem Commutes.fail (e : ε) : (Script.fail e : Script σ ε ρ ω ν α).Commutes φ P E := trivial

theorem Commutes.request (r : ρ) : (Script.request r : Script σ ε ρ ω ν ω).Commutes φ P E :=
  fun _ => trivial

theorem Commutes.tx {x : Tx σ ε α} (h : ∀ env, E env → Tx.Commutes φ P env (fun _ => True) x) :
    (Script.tx x : Script σ ε ρ ω ν α).Commutes φ P E := ⟨h, fun _ => trivial⟩

theorem Commutes.bind {x : Script σ ε ρ ω ν α} {f : α → Script σ ε ρ ω ν β}
    (hx : x.Commutes φ P E) (hf : ∀ a, (f a).Commutes φ P E) : (x >>= f).Commutes φ P E := by
  change (Script.bind x f).Commutes φ P E
  induction x with
  | finish result =>
    cases result with
    | error e => trivial
    | ok a => exact hf a
  | transact x event next ih => exact ⟨hx.1, fun b => ih b (hx.2 b)⟩
  | ask request next ih => exact fun a => ih a (hx a)

theorem Commutes.attempt {x : Script σ ε ρ ω ν α} (h : x.Commutes φ P E) :
    (x.attempt : Script σ ε' ρ ω ν (Except ε α)).Commutes φ P E := by
  induction x with
  | finish result => trivial
  | ask request next ih => exact fun a => ih a (h a)
  | transact x event next ih =>
    unfold Script.attempt
    refine ⟨fun env he => (h.1 env he).attempt, fun r => ?_⟩
    cases r with
    | ok b => exact ih b (h.2 b)
    | error e => trivial

/-- **A script whose transactions commute evaluates alike in both stores.** -/
theorem Commutes.eval {x : Script σ ε ρ ω ν α} (h : x.Commutes φ P E)
    {turns : Nat → Env × (ρ → ω)} (hturns : ∀ n, E (turns n).1) (n : Nat) {s : σ} (hs : P s) :
    x.eval turns n (φ s) =
        ((x.eval turns n s).1, (x.eval turns n s).2.1, φ (x.eval turns n s).2.2) ∧
      P (x.eval turns n s).2.2 := by
  induction x generalizing n s with
  | finish result => exact ⟨rfl, hs⟩
  | ask request next ih => exact ih _ (h _) _ hs
  | transact x event next ih =>
    obtain ⟨hexec, hkeeps⟩ := (h.1 _ (hturns n)).exec hs
    unfold Script.eval
    rw [hexec]
    cases hcase : x.exec (turns n).1 s with
    | mk result s' =>
      rw [hcase] at hkeeps
      cases result with
      | ok b => exact ih b (h.2 b) _ hkeeps
      | error e => exact ⟨rfl, hkeeps⟩

end Script

end Relational

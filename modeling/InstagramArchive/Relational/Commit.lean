import InstagramArchive.Relational.Integrity

/-!
# Transactions with their statement count

`Commits` is `Yields` with the statement count, for arguments that need to know which of the
environment's identifiers a statement drew: an identifier drawn later is another one.
`Ends` is the total reading: from a session the transaction reaches an answer and a session
with a given property, so no statement fails.
-/

namespace Relational.Tx

variable {σ ε ε' α β : Type} {env : Env} {ses ses' : Session σ} {a : α}

/-- From the session `ses` the transaction returns `a` and leaves the session `ses'`. -/
def Commits (x : Tx σ ε α) (env : Env) (ses : Session σ) (a : α) (ses' : Session σ) : Prop :=
  x env ses = .ok (a, ses')

theorem Yields.commits {x : Tx σ ε α} {s s' : σ} (h : x.Yields env s a s') :
    ∃ k k', x.Commits env ⟨s, k⟩ a ⟨s', k'⟩ := h

theorem Commits.yields {x : Tx σ ε α} (h : x.Commits env ses a ses') :
    x.Yields env ses.store a ses'.store := ⟨ses.tick, ses'.tick, h⟩

theorem Commits.bind {x : Tx σ ε α} {f : α → Tx σ ε β} {b : β}
    (h : (x >>= f).Commits env ses b ses') :
    ∃ a m, x.Commits env ses a m ∧ (f a).Commits env m b ses' := by
  unfold Commits at h
  rw [bind_apply] at h
  cases hx : x env ses with
  | error e => rw [hx] at h; cases h
  | ok r =>
    rw [hx] at h
    exact ⟨r.1, r.2, hx, h⟩

theorem Commits.pure {b : α} (h : (Pure.pure a : Tx σ ε α).Commits env ses b ses') :
    b = a ∧ ses = ses' := by
  cases h
  exact ⟨rfl, rfl⟩

theorem Commits.statement [OfSql ε] {f : σ → Except SqlError (α × σ)}
    (h : (Tx.statement f : Tx σ ε α).Commits env ses a ses') :
    f ses.store = .ok (a, ses'.store) ∧ ses'.tick = ses.tick + 1 := by
  refine ⟨h.yields.statement, ?_⟩
  unfold Commits Tx.statement at h
  split at h
  · cases h
  · split at h
    · cases h
      rfl
    · cases h

theorem Commits.query [OfSql ε] {f : σ → α} (h : (Tx.query f : Tx σ ε α).Commits env ses a ses') :
    a = f ses.store ∧ ses'.store = ses.store ∧ ses'.tick = ses.tick + 1 := by
  obtain ⟨hf, ht⟩ := Commits.statement h
  simp only [Except.ok.injEq, Prod.mk.injEq] at hf
  exact ⟨hf.1.symm, hf.2.symm, ht⟩

theorem Commits.insertUnless [OfSql ε] {ρ κ : Type} [DecidableEq κ] {key : ρ → κ}
    {primaryKey : String} {get : σ → Table ρ key} {set : σ → Table ρ key → σ}
    {guard : σ → Option SqlError} {conflict : σ → Bool} {row : ρ} {b : Bool}
    (h : (Tx.insertUnless primaryKey get set guard conflict row : Tx σ ε Bool).Commits env ses b
      ses') :
    ((conflict ses.store = true ∧ b = false ∧ ses'.store = ses.store) ∨
      (conflict ses.store = false ∧ b = true ∧
        ∃ t, (get ses.store).insert? row = some t ∧ ses'.store = set ses.store t)) ∧
      ses'.tick = ses.tick + 1 := by
  refine ⟨?_, (Commits.statement h).2⟩
  rcases h.yields.insertUnless with ⟨hc, hb, hs⟩ | ⟨hc, hb, -, t, ht, hs⟩
  · exact Or.inl ⟨hc, hb, hs.symm⟩
  · exact Or.inr ⟨hc, hb, t, ht, hs⟩

theorem Commits.nowV7 {u : Nat} (h : (Tx.nowV7 : Tx σ ε Nat).Commits env ses u ses') :
    u = env.uuid ses.tick ∧ ses'.store = ses.store ∧ ses'.tick = ses.tick + 1 := by
  cases h
  exact ⟨rfl, rfl, rfl⟩

/-- A minted identifier is one of the environment's. -/
theorem Yields.drawn {u : Nat} {s s' : σ} (h : (Tx.nowV7 : Tx σ ε Nat).Yields env s u s') :
    (∃ n, u = env.uuid n) ∧ s = s' := by
  obtain ⟨k, k', h⟩ := h.commits
  obtain ⟨hu, hs, -⟩ := h.nowV7
  exact ⟨⟨k, hu⟩, hs.symm⟩

theorem Commits.throw {e : ε} (h : (Tx.throw e : Tx σ ε α).Commits env ses a ses') : False := by
  cases h

theorem Commits.ofExcept {r : Except ε α} (h : (Tx.ofExcept r : Tx σ ε α).Commits env ses a ses') :
    r = .ok a ∧ ses = ses' := by
  cases r with
  | error e => exact (Commits.throw h).elim
  | ok b =>
    obtain ⟨rfl, rfl⟩ := Commits.pure h
    exact ⟨rfl, rfl⟩

/-! ## Total transactions -/

/-- From the session the transaction ends in an answer and a session that satisfy `Q`. -/
def Ends (x : Tx σ ε α) (env : Env) (ses : Session σ) (Q : α → Session σ → Prop) : Prop :=
  ∃ a ses', x.Commits env ses a ses' ∧ Q a ses'

section Ends

variable {Q : α → Session σ → Prop}

theorem Ends.mono {x : Tx σ ε α} {R : α → Session σ → Prop} (h : x.Ends env ses Q)
    (hR : ∀ a ses', Q a ses' → R a ses') : x.Ends env ses R := by
  obtain ⟨a, ses', hc, hq⟩ := h
  exact ⟨a, ses', hc, hR a ses' hq⟩

theorem Ends.pure (h : Q a ses) : (Pure.pure a : Tx σ ε α).Ends env ses Q := ⟨a, ses, rfl, h⟩

theorem Ends.bind {x : Tx σ ε α} {f : α → Tx σ ε β} {R : β → Session σ → Prop}
    (h : x.Ends env ses fun a m => (f a).Ends env m R) : (x >>= f).Ends env ses R := by
  obtain ⟨a, m, hx, b, ses', hf, hR⟩ := h
  refine ⟨b, ses', ?_, hR⟩
  unfold Commits
  rw [bind_apply, show x env ses = .ok (a, m) from hx]
  exact hf

theorem Ends.statement [OfSql ε] {f : σ → Except SqlError (α × σ)} {s' : σ} (hq : env.Quiet)
    (hf : f ses.store = .ok (a, s')) (h : Q a ⟨s', ses.tick + 1⟩) :
    (Tx.statement f : Tx σ ε α).Ends env ses Q := by
  refine ⟨a, ⟨s', ses.tick + 1⟩, ?_, h⟩
  simp [Commits, Tx.statement, hq ses.tick, hf]

theorem Ends.query [OfSql ε] {f : σ → α} (hq : env.Quiet)
    (h : Q (f ses.store) ⟨ses.store, ses.tick + 1⟩) : (Tx.query f : Tx σ ε α).Ends env ses Q :=
  .statement hq rfl h

theorem Ends.execute [OfSql ε] {f : σ → σ} {R : Unit → Session σ → Prop} (hq : env.Quiet)
    (h : R () ⟨f ses.store, ses.tick + 1⟩) : (Tx.execute f : Tx σ ε Unit).Ends env ses R :=
  .statement hq rfl h

theorem Ends.commit [OfSql ε] {R : Unit → Session σ → Prop} (hq : env.Quiet)
    (h : R () ⟨ses.store, ses.tick + 1⟩) : (Tx.commit : Tx σ ε Unit).Ends env ses R :=
  .query hq h

theorem Ends.executeChecked [OfSql ε] {guard : σ → Option SqlError} {f : σ → σ}
    {R : Unit → Session σ → Prop} (hq : env.Quiet) (hguard : guard ses.store = none)
    (h : R () ⟨f ses.store, ses.tick + 1⟩) :
    (Tx.executeChecked guard f : Tx σ ε Unit).Ends env ses R :=
  .statement hq (by rw [hguard]) h

theorem Ends.insertInto [OfSql ε] {ρ κ : Type} [DecidableEq κ] {key : ρ → κ} {primaryKey : String}
    {get : σ → Table ρ key} {set : σ → Table ρ key → σ} {guard : σ → Option SqlError} {row : ρ}
    {R : Unit → Session σ → Prop} (hq : env.Quiet) (hguard : guard ses.store = none)
    (hkey : ∀ r ∈ get ses.store, key r ≠ key row)
    (h : ∀ t, (get ses.store).insert? row = some t → R () ⟨set ses.store t, ses.tick + 1⟩) :
    (Tx.insertInto primaryKey get set guard row : Tx σ ε Unit).Ends env ses R := by
  obtain ⟨t, ht⟩ := Table.insert?_isSome hkey
  exact .statement hq (by rw [hguard, ht]) (h t ht)

theorem Ends.insertUnless [OfSql ε] {ρ κ : Type} [DecidableEq κ] {key : ρ → κ}
    {primaryKey : String} {get : σ → Table ρ key} {set : σ → Table ρ key → σ}
    {guard : σ → Option SqlError} {conflict : σ → Bool} {row : ρ} {R : Bool → Session σ → Prop}
    (hq : env.Quiet) (hold : conflict ses.store = true → R false ⟨ses.store, ses.tick + 1⟩)
    (hnew : conflict ses.store = false → guard ses.store = none ∧
      (∀ r ∈ get ses.store, key r ≠ key row) ∧
      ∀ t, (get ses.store).insert? row = some t → R true ⟨set ses.store t, ses.tick + 1⟩) :
    (Tx.insertUnless primaryKey get set guard conflict row : Tx σ ε Bool).Ends env ses R := by
  cases hconflict : conflict ses.store with
  | true => exact .statement hq (by rw [if_pos hconflict]) (hold hconflict)
  | false =>
    obtain ⟨hguard, hkey, h⟩ := hnew hconflict
    obtain ⟨t, ht⟩ := Table.insert?_isSome hkey
    refine .statement hq ?_ (h t ht)
    rw [if_neg (by simp [hconflict]), hguard, ht]

theorem Ends.nowV7 {R : Nat → Session σ → Prop}
    (h : R (env.uuid ses.tick) ⟨ses.store, ses.tick + 1⟩) :
    (Tx.nowV7 : Tx σ ε Nat).Ends env ses R := ⟨_, _, rfl, h⟩

theorem Ends.now {R : Int → Session σ → Prop} (h : R env.now ses) :
    (Tx.now : Tx σ ε Int).Ends env ses R := ⟨_, _, rfl, h⟩

theorem Ends.nowUtc {R : Int → Session σ → Prop}
    (h : R (env.wall ses.tick) ⟨ses.store, ses.tick + 1⟩) :
    (Tx.nowUtc : Tx σ ε Int).Ends env ses R := ⟨_, _, rfl, h⟩

theorem Ends.fetchOne [OfSql ε] {e : ε} {f : σ → Option α} (hq : env.Quiet)
    (hf : f ses.store = some a) (h : Q a ⟨ses.store, ses.tick + 1⟩) :
    (Tx.fetchOne e f : Tx σ ε α).Ends env ses Q := by
  refine .bind (.query hq ?_)
  rw [hf]
  exact .pure h

theorem Ends.ofExcept {r : Except ε α} (hr : r = .ok a) (h : Q a ses) :
    (Tx.ofExcept r : Tx σ ε α).Ends env ses Q := by
  rw [hr]
  exact .pure h

theorem Ends.mapError {g : ε → ε'} {x : Tx σ ε α} (h : x.Ends env ses Q) :
    (x.mapError g).Ends env ses Q := by
  obtain ⟨a, ses', hx, hq⟩ := h
  refine ⟨a, ses', ?_, hq⟩
  unfold Commits Tx.mapError
  rw [show x env ses = .ok (a, ses') from hx]

/-- A total transaction commits. -/
theorem Ends.exec {x : Tx σ ε α} {s : σ} (h : x.Ends env ⟨s, 0⟩ Q) :
    ∃ a ses', x.exec env s = (.ok a, ses'.store) ∧ Q a ses' := by
  obtain ⟨a, ses', hx, hq⟩ := h
  refine ⟨a, ses', ?_, hq⟩
  unfold Tx.exec
  rw [show x env ⟨s, 0⟩ = .ok (a, ses') from hx]

end Ends

theorem exec_query [OfSql ε] (hq : env.Quiet) (f : σ → α) (s : σ) :
    (Tx.query f : Tx σ ε α).exec env s = (.ok (f s), s) := by
  simp [Tx.exec, Tx.query, Tx.statement, hq 0]

theorem exec_execute [OfSql ε] (hq : env.Quiet) (f : σ → σ) (s : σ) :
    (Tx.execute f : Tx σ ε Unit).exec env s = (.ok (), f s) := by
  simp [Tx.exec, Tx.execute, Tx.statement, hq 0]

theorem exec_fetchOne [OfSql ε] (hq : env.Quiet) {e : ε} {f : σ → Option α} {a : α} {s : σ}
    (hf : f s = some a) : (Tx.fetchOne e f : Tx σ ε α).exec env s = (.ok a, s) := by
  have hends : (Tx.fetchOne e f : Tx σ ε α).Ends env ⟨s, 0⟩ fun b ses => b = a ∧ ses.store = s :=
    .fetchOne hq hf ⟨rfl, rfl⟩
  obtain ⟨b, ses, hexec, rfl, rfl⟩ := hends.exec
  exact hexec

/-! ## Transactions that stop -/

/-- From the session the transaction fails with `e`. -/
def Stops (x : Tx σ ε α) (env : Env) (ses : Session σ) (e : ε) : Prop := x env ses = .error e

section Stops

variable {e : ε}

theorem Stops.bind {x : Tx σ ε α} {f : α → Tx σ ε β} (h : x.Stops env ses e) :
    (x >>= f).Stops env ses e := by
  unfold Stops
  rw [bind_apply, show x env ses = .error e from h]

theorem Stops.bind_of_commits {x : Tx σ ε α} {f : α → Tx σ ε β} (hx : x.Commits env ses a ses')
    (h : (f a).Stops env ses' e) : (x >>= f).Stops env ses e := by
  unfold Stops
  rw [bind_apply, show x env ses = .ok (a, ses') from hx]
  exact h

/-- What comes first ends, and what comes then stops. -/
theorem Ends.stops {x : Tx σ ε α} {f : α → Tx σ ε β} {Q : α → Session σ → Prop}
    (hx : x.Ends env ses Q) (h : ∀ a ses', Q a ses' → (f a).Stops env ses' e) :
    (x >>= f).Stops env ses e := by
  obtain ⟨a, ses', hc, hq⟩ := hx
  exact .bind_of_commits hc (h a ses' hq)

theorem Stops.mapError {g : ε → ε'} {x : Tx σ ε α} (h : x.Stops env ses e) :
    (x.mapError g).Stops env ses (g e) := by
  unfold Stops Tx.mapError
  rw [show x env ses = .error e from h]

theorem Stops.exec {x : Tx σ ε α} {s : σ} (h : x.Stops env ⟨s, 0⟩ e) :
    x.exec env s = (.error e, s) := by
  unfold Tx.exec
  rw [show x env ⟨s, 0⟩ = .error e from h]

end Stops

end Relational.Tx

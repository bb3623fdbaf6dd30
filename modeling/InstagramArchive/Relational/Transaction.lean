import InstagramArchive.Relational.Table
import Mathlib.Order.Defs.Unbundled

/-!
# Transactions

A transaction is a state transformer over a store that may stop with an error at
any of its statements. `Env` holds what one transaction takes from outside: the
transaction time, wall-clock readings, fresh identifiers, and which statement
the connection fails at. `exec` is the semantics of `begin .. commit`: the whole
effect on success and no effect on an error.

`Yields` is the relation between the store a transaction starts from and the
value and store it ends with; its lemmas peel a transaction apart statement by
statement.
-/

namespace Relational

/-- What one transaction takes from outside, indexed by its statement count. -/
structure Env where
  /-- The transaction time, constant during the transaction. -/
  now : Int
  wall : Nat → Int
  uuid : Nat → Nat
  /-- Whether the connection fails at a statement. -/
  fault : Nat → Bool

/-- The connection never fails. -/
def Env.Quiet (env : Env) : Prop := ∀ n, env.fault n = false

/-- Why a statement fails. -/
inductive SqlError where
  | connection
  | uniqueViolation (constraint : String)
  | foreignKeyViolation (constraint : String)
  | checkViolation (constraint : String)
  | rowNotFound
  | columnDecode (column : String)
  /-- A text with a character the database does not store. -/
  | untranslatableCharacter
  /-- An integer that its column does not hold. -/
  | numericValueOutOfRange
  deriving DecidableEq, Repr

/-- Error types that statement failures can be reported in. -/
class OfSql (ε : Type) where
  ofSql : SqlError → ε

instance : OfSql SqlError := ⟨id⟩

theorem mapError_ok {ε ε' α : Type} {g : ε → ε'} {r : Except ε α} {a : α}
    (h : r.mapError g = .ok a) : r = .ok a := by
  cases r with
  | error e => cases h
  | ok b => cases h; rfl

/-- The store as the open transaction sees it. -/
structure Session (σ : Type) where
  store : σ
  tick : Nat

/-- A transaction body over `σ` with errors in `ε`. -/
def Tx (σ ε α : Type) : Type := Env → Session σ → Except ε (α × Session σ)

namespace Tx

variable {σ ε ε' α β : Type}

instance : Monad (Tx σ ε) where
  pure a := fun _ ses => .ok (a, ses)
  bind x f := fun env ses =>
    match x env ses with
    | .ok (a, ses') => f a env ses'
    | .error e => .error e

theorem bind_apply (x : Tx σ ε α) (f : α → Tx σ ε β) (env : Env) (ses : Session σ) :
    (x >>= f) env ses = match x env ses with
      | .ok (a, ses') => f a env ses'
      | .error e => .error e := rfl

/-- One SQL statement: it reads and writes the store or fails. -/
def statement [OfSql ε] (f : σ → Except SqlError (α × σ)) : Tx σ ε α := fun env ses =>
  if env.fault ses.tick then .error (OfSql.ofSql .connection)
  else match f ses.store with
    | .ok (a, store) => .ok (a, ⟨store, ses.tick + 1⟩)
    | .error e => .error (OfSql.ofSql e)

/-- A statement that only reads. -/
def query [OfSql ε] (f : σ → α) : Tx σ ε α := statement fun s => .ok (f s, s)

/-- A statement that only writes and cannot violate a constraint. -/
def execute [OfSql ε] (f : σ → σ) : Tx σ ε Unit := statement fun s => .ok ((), f s)

def commit [OfSql ε] : Tx σ ε Unit := query fun _ => ()

/-- `insert into`: the statement fails on a taken primary key and on a violated
`guard`, the first constraint the row breaks. -/
def insertInto [OfSql ε] {ρ κ : Type} [DecidableEq κ] {key : ρ → κ} (primaryKey : String)
    (get : σ → Table ρ key) (set : σ → Table ρ key → σ) (guard : σ → Option SqlError) (row : ρ) :
    Tx σ ε Unit := statement fun s =>
  match guard s, (get s).insert? row with
  | some e, _ => .error e
  | none, none => .error (.uniqueViolation primaryKey)
  | none, some t => .ok ((), set s t)

/-- `insert into .. on conflict do nothing`: whether a row was inserted. -/
def insertUnless [OfSql ε] {ρ κ : Type} [DecidableEq κ] {key : ρ → κ} (primaryKey : String)
    (get : σ → Table ρ key) (set : σ → Table ρ key → σ) (guard : σ → Option SqlError)
    (conflict : σ → Bool) (row : ρ) : Tx σ ε Bool := statement fun s =>
  if conflict s then .ok (false, s)
  else match guard s, (get s).insert? row with
    | some e, _ => .error e
    | none, none => .error (.uniqueViolation primaryKey)
    | none, some t => .ok (true, set s t)

def throw (e : ε) : Tx σ ε α := fun _ _ => .error e

def ofExcept : Except ε α → Tx σ ε α
  | .ok a => pure a
  | .error e => throw e

/-- A read of one row that fails with `e` when there is none. -/
def fetchOne [OfSql ε] (e : ε) (f : σ → Option α) : Tx σ ε α := do
  match ← query f with
  | some a => return a
  | none => throw e

/-- The transaction time. -/
def now : Tx σ ε Int := fun env ses => .ok (env.now, ses)

/-- A wall-clock reading. -/
def nowUtc : Tx σ ε Int := fun env ses => .ok (env.wall ses.tick, ⟨ses.store, ses.tick + 1⟩)

/-- A freshly minted identifier. -/
def nowV7 : Tx σ ε Nat := fun env ses => .ok (env.uuid ses.tick, ⟨ses.store, ses.tick + 1⟩)

def mapError (g : ε → ε') (x : Tx σ ε α) : Tx σ ε' α := fun env ses =>
  match x env ses with
  | .ok r => .ok r
  | .error e => .error (g e)

/-- Runs `x` and hands its error to the caller, who still owns the transaction. -/
def attempt (x : Tx σ ε α) : Tx σ ε' (Except ε α) := fun env ses =>
  match x env ses with
  | .ok (a, ses') => .ok (.ok a, ses')
  | .error e => .ok (.error e, ses)

/-- `begin .. commit`: all of the effect, or none of it and an error. -/
def exec (x : Tx σ ε α) (env : Env) (s : σ) : Except ε α × σ :=
  match x env ⟨s, 0⟩ with
  | .ok (a, ses) => (.ok a, ses.store)
  | .error e => (.error e, s)

/-! ## What a transaction can end with -/

/-- From store `s` the transaction can return `a` and leave the store `s'`. -/
def Yields (x : Tx σ ε α) (env : Env) (s : σ) (a : α) (s' : σ) : Prop :=
  ∃ k k', x env ⟨s, k⟩ = .ok (a, ⟨s', k'⟩)

/-- From store `s` the transaction can stop with the error `e`. -/
def Fails (x : Tx σ ε α) (env : Env) (s : σ) (e : ε) : Prop := ∃ k, x env ⟨s, k⟩ = .error e

variable {env : Env} {s s' : σ} {a : α}

theorem Yields.bind {x : Tx σ ε α} {f : α → Tx σ ε β} {b : β} (h : (x >>= f).Yields env s b s') :
    ∃ a m, x.Yields env s a m ∧ (f a).Yields env m b s' := by
  obtain ⟨k, k', h⟩ := h
  rw [bind_apply] at h
  cases hx : x env ⟨s, k⟩ with
  | error e => rw [hx] at h; cases h
  | ok r =>
    obtain ⟨a, m, j⟩ := r
    rw [hx] at h
    exact ⟨a, m, ⟨k, j, hx⟩, ⟨j, k', h⟩⟩

theorem yields_pure {b : α} : (pure a : Tx σ ε α).Yields env s b s' ↔ b = a ∧ s = s' := by
  constructor
  · rintro ⟨k, k', h⟩
    cases h
    exact ⟨rfl, rfl⟩
  · rintro ⟨rfl, rfl⟩
    exact ⟨0, 0, rfl⟩

theorem Yields.statement [OfSql ε] {f : σ → Except SqlError (α × σ)}
    (h : (Tx.statement f : Tx σ ε α).Yields env s a s') : f s = .ok (a, s') := by
  obtain ⟨k, k', h⟩ := h
  unfold Tx.statement at h
  split at h
  · cases h
  · cases hf : f s with
    | error e => simp [hf] at h
    | ok r =>
      obtain ⟨b, t⟩ := r
      simp only [hf, Except.ok.injEq, Prod.mk.injEq, Session.mk.injEq] at h
      rw [h.1, h.2.1]

theorem Yields.query [OfSql ε] {f : σ → α} (h : (Tx.query f : Tx σ ε α).Yields env s a s') :
    a = f s ∧ s = s' := by
  have h := Yields.statement h
  simp only [Except.ok.injEq, Prod.mk.injEq] at h
  exact ⟨h.1.symm, h.2⟩

theorem Yields.execute [OfSql ε] {f : σ → σ} {u : Unit}
    (h : (Tx.execute f : Tx σ ε Unit).Yields env s u s') : s' = f s := by
  have h := Yields.statement h
  simp only [Except.ok.injEq, Prod.mk.injEq] at h
  exact h.2.symm

theorem Yields.commit [OfSql ε] {u : Unit} (h : (Tx.commit : Tx σ ε Unit).Yields env s u s') :
    s = s' := (Yields.query h).2

theorem Yields.insertInto [OfSql ε] {ρ κ : Type} [DecidableEq κ] {key : ρ → κ} {primaryKey : String}
    {get : σ → Table ρ key} {set : σ → Table ρ key → σ} {guard : σ → Option SqlError} {row : ρ}
    {u : Unit} (h : (Tx.insertInto primaryKey get set guard row : Tx σ ε Unit).Yields env s u s') :
    guard s = none ∧ ∃ t, (get s).insert? row = some t ∧ s' = set s t := by
  have h := Yields.statement h
  split at h
  · cases h
  · cases h
  · rename_i t hguard hinsert
    simp only [Except.ok.injEq, Prod.mk.injEq] at h
    exact ⟨hguard, t, hinsert, h.2.symm⟩

theorem Yields.insertUnless [OfSql ε] {ρ κ : Type} [DecidableEq κ] {key : ρ → κ}
    {primaryKey : String} {get : σ → Table ρ key} {set : σ → Table ρ key → σ}
    {guard : σ → Option SqlError} {conflict : σ → Bool} {row : ρ} {b : Bool}
    (h : (Tx.insertUnless primaryKey get set guard conflict row : Tx σ ε Bool).Yields env s b s') :
    (conflict s = true ∧ b = false ∧ s = s') ∨
      (conflict s = false ∧ b = true ∧ guard s = none ∧
        ∃ t, (get s).insert? row = some t ∧ s' = set s t) := by
  have h := Yields.statement h
  split at h
  · rename_i hconflict
    simp only [Except.ok.injEq, Prod.mk.injEq] at h
    exact Or.inl ⟨hconflict, h.1.symm, h.2⟩
  · rename_i hconflict
    split at h
    · cases h
    · cases h
    · rename_i t hguard hinsert
      simp only [Except.ok.injEq, Prod.mk.injEq] at h
      exact Or.inr ⟨by simpa using hconflict, h.1.symm, hguard, t, hinsert, h.2.symm⟩

theorem Yields.throw {e : ε} (h : (Tx.throw e : Tx σ ε α).Yields env s a s') : False := by
  obtain ⟨k, k', h⟩ := h
  cases h

theorem Yields.ofExcept {r : Except ε α}
    (h : (Tx.ofExcept r : Tx σ ε α).Yields env s a s') : r = .ok a ∧ s = s' := by
  cases r with
  | error e => exact (Yields.throw h).elim
  | ok b =>
    obtain ⟨rfl, rfl⟩ := yields_pure.mp h
    exact ⟨rfl, rfl⟩

theorem Yields.fetchOne [OfSql ε] {e : ε} {f : σ → Option α}
    (h : (Tx.fetchOne e f : Tx σ ε α).Yields env s a s') : f s = some a ∧ s = s' := by
  obtain ⟨row, m, hq, hr⟩ := Yields.bind h
  obtain ⟨hrow, rfl⟩ := Yields.query hq
  cases row with
  | none => exact (Yields.throw hr).elim
  | some b =>
    obtain ⟨rfl, rfl⟩ := yields_pure.mp hr
    exact ⟨hrow.symm, rfl⟩

theorem Yields.now {t : Int} (h : (Tx.now : Tx σ ε Int).Yields env s t s') :
    t = env.now ∧ s = s' := by
  obtain ⟨k, k', h⟩ := h
  cases h
  exact ⟨rfl, rfl⟩

theorem Yields.nowUtc {t : Int} (h : (Tx.nowUtc : Tx σ ε Int).Yields env s t s') : s = s' := by
  obtain ⟨k, k', h⟩ := h
  cases h
  rfl

theorem Yields.nowV7 {u : Nat} (h : (Tx.nowV7 : Tx σ ε Nat).Yields env s u s') : s = s' := by
  obtain ⟨k, k', h⟩ := h
  cases h
  rfl

theorem Yields.mapError {g : ε → ε'} {x : Tx σ ε α} (h : (x.mapError g).Yields env s a s') :
    x.Yields env s a s' := by
  obtain ⟨k, k', h⟩ := h
  unfold Tx.mapError at h
  cases hx : x env ⟨s, k⟩ with
  | error e => rw [hx] at h; cases h
  | ok r => rw [hx] at h; cases h; exact ⟨k, k', hx⟩

theorem Yields.attempt {x : Tx σ ε α} {r : Except ε α}
    (h : (x.attempt : Tx σ ε' (Except ε α)).Yields env s r s') :
    (∃ a, r = .ok a ∧ x.Yields env s a s') ∨
      (∃ e, r = .error e ∧ s = s' ∧ x.Fails env s e) := by
  obtain ⟨k, k', h⟩ := h
  unfold Tx.attempt at h
  cases hx : x env ⟨s, k⟩ with
  | error e =>
    rw [hx] at h
    cases h
    exact Or.inr ⟨e, rfl, rfl, k, hx⟩
  | ok p =>
    obtain ⟨a, m, j⟩ := p
    rw [hx] at h
    cases h
    exact Or.inl ⟨a, rfl, k, k', hx⟩

/-! ## What a transaction keeps -/

/-- Whatever the transaction yields is related to the store it started from. -/
def Respects (R : σ → σ → Prop) (x : Tx σ ε α) : Prop :=
  ∀ env s a s', x.Yields env s a s' → R s s'

section Respects

variable {R : σ → σ → Prop}

theorem Respects.execute [OfSql ε] {f : σ → σ} (h : ∀ s, R s (f s)) :
    (Tx.execute f : Tx σ ε Unit).Respects R := by
  intro env s u s' hy
  rw [hy.execute]
  exact h s

theorem Respects.mapError {g : ε → ε'} {x : Tx σ ε α} (h : x.Respects R) :
    (x.mapError g).Respects R := fun env s a s' hy => h env s a s' hy.mapError

theorem Respects.throw {e : ε} : (Tx.throw e : Tx σ ε α).Respects R :=
  fun _ _ _ _ hy => hy.throw.elim

theorem Respects.insertInto [OfSql ε] {ρ κ : Type} [DecidableEq κ] {key : ρ → κ}
    {primaryKey : String} {get : σ → Table ρ key} {set : σ → Table ρ key → σ}
    {guard : σ → Option SqlError} {row : ρ} (h : ∀ s t, R s (set s t)) :
    (Tx.insertInto primaryKey get set guard row : Tx σ ε Unit).Respects R := by
  intro env s u s' hy
  obtain ⟨-, t, -, rfl⟩ := hy.insertInto
  exact h s t

variable [IsPreorder σ R]

theorem Respects.bind {x : Tx σ ε α} {f : α → Tx σ ε β} (hx : x.Respects R)
    (hf : ∀ a, (f a).Respects R) : (x >>= f).Respects R := by
  intro env s b s' h
  obtain ⟨a, m, h1, h2⟩ := h.bind
  exact IsTrans.trans s m s' (hx env s a m h1) (hf a env m b s' h2)

theorem Respects.pure (a : α) : (Pure.pure a : Tx σ ε α).Respects R := by
  intro env s b s' hy
  obtain ⟨-, rfl⟩ := yields_pure.mp hy
  exact Std.Refl.refl s

theorem Respects.query [OfSql ε] (f : σ → α) : (Tx.query f : Tx σ ε α).Respects R := by
  intro env s a s' hy
  obtain ⟨-, rfl⟩ := hy.query
  exact Std.Refl.refl s

theorem Respects.ofExcept (r : Except ε α) : (Tx.ofExcept r : Tx σ ε α).Respects R := by
  intro env s a s' hy
  obtain ⟨-, rfl⟩ := hy.ofExcept
  exact Std.Refl.refl s

theorem Respects.fetchOne [OfSql ε] (e : ε) (f : σ → Option α) :
    (Tx.fetchOne e f : Tx σ ε α).Respects R := by
  intro env s a s' hy
  obtain ⟨-, rfl⟩ := hy.fetchOne
  exact Std.Refl.refl s

theorem Respects.now : (Tx.now : Tx σ ε Int).Respects R := by
  intro env s t s' hy
  obtain ⟨-, rfl⟩ := hy.now
  exact Std.Refl.refl s

theorem Respects.nowUtc : (Tx.nowUtc : Tx σ ε Int).Respects R := by
  intro env s t s' hy
  rw [hy.nowUtc]
  exact Std.Refl.refl s'

theorem Respects.nowV7 : (Tx.nowV7 : Tx σ ε Nat).Respects R := by
  intro env s u s' hy
  rw [hy.nowV7]
  exact Std.Refl.refl s'

theorem Respects.insertUnless [OfSql ε] {ρ κ : Type} [DecidableEq κ] {key : ρ → κ}
    {primaryKey : String} {get : σ → Table ρ key} {set : σ → Table ρ key → σ}
    {guard : σ → Option SqlError} {conflict : σ → Bool} {row : ρ} (h : ∀ s t, R s (set s t)) :
    (Tx.insertUnless primaryKey get set guard conflict row : Tx σ ε Bool).Respects R := by
  intro env s b s' hy
  rcases hy.insertUnless with ⟨-, -, rfl⟩ | ⟨-, -, -, t, -, rfl⟩
  · exact Std.Refl.refl s
  · exact h s t

end Respects

/-! ## What a transaction can fail with -/

variable {e : ε}

theorem Fails.bind {x : Tx σ ε α} {f : α → Tx σ ε β} (h : (x >>= f).Fails env s e) :
    x.Fails env s e ∨ ∃ a m, x.Yields env s a m ∧ (f a).Fails env m e := by
  obtain ⟨k, h⟩ := h
  rw [bind_apply] at h
  cases hx : x env ⟨s, k⟩ with
  | error e' =>
    rw [hx] at h
    cases h
    exact Or.inl ⟨k, hx⟩
  | ok r =>
    obtain ⟨a, m, j⟩ := r
    rw [hx] at h
    exact Or.inr ⟨a, m, ⟨k, j, hx⟩, j, h⟩

theorem Fails.pure (h : (Pure.pure a : Tx σ ε α).Fails env s e) : False := by
  obtain ⟨k, h⟩ := h
  cases h

theorem Fails.throw {e' : ε} (h : (Tx.throw e' : Tx σ ε α).Fails env s e) : e' = e := by
  obtain ⟨k, h⟩ := h
  cases h
  rfl

theorem Fails.ofExcept {r : Except ε α} (h : (Tx.ofExcept r : Tx σ ε α).Fails env s e) :
    r = .error e := by
  cases r with
  | error e' => rw [Fails.throw h]
  | ok a => exact (Fails.pure h).elim

theorem Fails.statement [OfSql ε] {f : σ → Except SqlError (α × σ)}
    (h : (Tx.statement f : Tx σ ε α).Fails env s e) : ∃ q, e = OfSql.ofSql q := by
  obtain ⟨k, h⟩ := h
  unfold Tx.statement at h
  split at h
  · cases h
    exact ⟨_, rfl⟩
  · split at h
    · cases h
    · cases h
      exact ⟨_, rfl⟩

/-- A statement fails with the connection or with what it answers. -/
theorem Fails.of_statement [OfSql ε] {f : σ → Except SqlError (α × σ)}
    (h : (Tx.statement f : Tx σ ε α).Fails env s e) :
    e = OfSql.ofSql .connection ∨ ∃ q, f s = .error q ∧ e = OfSql.ofSql q := by
  obtain ⟨k, h⟩ := h
  unfold Tx.statement at h
  split at h
  · cases h
    exact Or.inl rfl
  · split at h
    · cases h
    · rename_i q hq
      cases h
      exact Or.inr ⟨q, hq, rfl⟩

theorem Fails.insertInto [OfSql ε] {ρ κ : Type} [DecidableEq κ] {key : ρ → κ} {primaryKey : String}
    {get : σ → Table ρ key} {set : σ → Table ρ key → σ} {guard : σ → Option SqlError} {row : ρ}
    (h : (Tx.insertInto primaryKey get set guard row : Tx σ ε Unit).Fails env s e) :
    e = OfSql.ofSql .connection ∨
      (((get s).lookup (key row)).isSome ∧ e = OfSql.ofSql (.uniqueViolation primaryKey)) ∨
      ∃ q, guard s = some q ∧ e = OfSql.ofSql q := by
  rcases Fails.of_statement h with h | ⟨q, hq, rfl⟩
  · exact Or.inl h
  · split at hq
    · rename_i q' hguard
      cases hq
      exact Or.inr (Or.inr ⟨_, hguard, rfl⟩)
    · rename_i htaken
      cases hq
      refine Or.inr (Or.inl ⟨?_, rfl⟩)
      cases hlookup : (get s).lookup (key row) with
      | some r => rfl
      | none =>
        obtain ⟨t, ht⟩ := Table.insert?_isSome (Table.lookup_eq_none.mp hlookup)
        rw [ht] at htaken
        cases htaken
    · cases hq

theorem Fails.mapError {g : ε → ε'} {x : Tx σ ε α} {e' : ε'} (h : (x.mapError g).Fails env s e') :
    ∃ e, e' = g e ∧ x.Fails env s e := by
  obtain ⟨k, h⟩ := h
  unfold Tx.mapError at h
  cases hx : x env ⟨s, k⟩ with
  | error e =>
    rw [hx] at h
    cases h
    exact ⟨e, rfl, k, hx⟩
  | ok r =>
    rw [hx] at h
    cases h

theorem Fails.fetchOne [OfSql ε] {e' : ε} {f : σ → Option α}
    (h : (Tx.fetchOne e' f : Tx σ ε α).Fails env s e) : e = e' ∨ ∃ q, e = OfSql.ofSql q := by
  rcases Fails.bind h with h | ⟨row, m, -, h⟩
  · exact Or.inr h.statement
  · cases row with
    | none => exact Or.inl h.throw.symm
    | some a => exact (Fails.pure h).elim

theorem Fails.nowV7 (h : (Tx.nowV7 : Tx σ ε Nat).Fails env s e) : False := by
  obtain ⟨k, h⟩ := h
  cases h

theorem Fails.now (h : (Tx.now : Tx σ ε Int).Fails env s e) : False := by
  obtain ⟨k, h⟩ := h
  cases h

/-- Every error the transaction can fail with satisfies `P`. -/
def FailsWith (P : ε → Prop) (x : Tx σ ε α) : Prop := ∀ env s e, x.Fails env s e → P e

section FailsWith

variable {P : ε → Prop}

theorem FailsWith.bind {x : Tx σ ε α} {f : α → Tx σ ε β} (hx : x.FailsWith P)
    (hf : ∀ a, (f a).FailsWith P) : (x >>= f).FailsWith P := by
  intro env s e h
  rcases Fails.bind h with h | ⟨a, m, -, h⟩
  · exact hx env s e h
  · exact hf a env m e h

theorem FailsWith.pure (a : α) : (Pure.pure a : Tx σ ε α).FailsWith P :=
  fun _ _ _ h => (Fails.pure h).elim

theorem FailsWith.throw {e : ε} (he : P e) : (Tx.throw e : Tx σ ε α).FailsWith P :=
  fun _ _ _ h => Fails.throw h ▸ he

theorem FailsWith.ofExcept {r : Except ε α} (h : ∀ e, r = .error e → P e) :
    (Tx.ofExcept r : Tx σ ε α).FailsWith P := fun _ _ e hf => h e hf.ofExcept

theorem FailsWith.statement [OfSql ε] (h : ∀ q, P (OfSql.ofSql q))
    (f : σ → Except SqlError (α × σ)) : (Tx.statement f : Tx σ ε α).FailsWith P := by
  intro env s e hf
  obtain ⟨q, rfl⟩ := hf.statement
  exact h q

theorem FailsWith.execute [OfSql ε] (h : ∀ q, P (OfSql.ofSql q)) (f : σ → σ) :
    (Tx.execute f : Tx σ ε Unit).FailsWith P := .statement h _

theorem FailsWith.query [OfSql ε] (h : ∀ q, P (OfSql.ofSql q)) (f : σ → α) :
    (Tx.query f : Tx σ ε α).FailsWith P := .statement h _

theorem FailsWith.commit [OfSql ε] (h : ∀ q, P (OfSql.ofSql q)) :
    (Tx.commit : Tx σ ε Unit).FailsWith P := .query h _

theorem FailsWith.insertUnless [OfSql ε] {ρ κ : Type} [DecidableEq κ] {key : ρ → κ}
    {primaryKey : String} {get : σ → Table ρ key} {set : σ → Table ρ key → σ}
    {guard : σ → Option SqlError} {conflict : σ → Bool} {row : ρ} (h : ∀ q, P (OfSql.ofSql q)) :
    (Tx.insertUnless primaryKey get set guard conflict row : Tx σ ε Bool).FailsWith P :=
  .statement h _

theorem FailsWith.mapError {g : ε' → ε} (h : ∀ e, P (g e)) (x : Tx σ ε' α) :
    (x.mapError g).FailsWith P := by
  intro env s e hf
  obtain ⟨e', rfl, -⟩ := hf.mapError
  exact h e'

theorem FailsWith.attempt (x : Tx σ ε' α) :
    (Tx.attempt x : Tx σ ε (Except ε' α)).FailsWith P := by
  rintro env s e ⟨k, h⟩
  unfold Tx.attempt at h
  split at h
  · cases h
  · cases h

theorem FailsWith.now : (Tx.now : Tx σ ε Int).FailsWith P := fun _ _ _ h => h.now.elim

end FailsWith

/-- A transaction either commits what it yields or leaves the store alone. -/
theorem exec_cases (x : Tx σ ε α) (env : Env) (s : σ) :
    (∃ a s', x.exec env s = (.ok a, s') ∧ x.Yields env s a s') ∨
      (∃ e, x.exec env s = (.error e, s)) := by
  unfold exec
  cases h : x env ⟨s, 0⟩ with
  | error e => exact Or.inr ⟨e, rfl⟩
  | ok r => exact Or.inl ⟨r.1, r.2.store, rfl, 0, r.2.tick, h⟩

theorem exec_ok {x : Tx σ ε α} (h : x.exec env s = (.ok a, s')) : x.Yields env s a s' := by
  rcases exec_cases x env s with ⟨b, t, he, hy⟩ | ⟨e, he⟩
  · rw [he] at h
    cases h
    exact hy
  · rw [he] at h
    cases h

/-- What commits yields its answer and the store it leaves. -/
theorem exec_yields {x : Tx σ ε α} (h : (x.exec env s).1 = .ok a) :
    x.Yields env s a (x.exec env s).2 := exec_ok (Prod.ext h rfl)

theorem exec_fails {x : Tx σ ε α} {e : ε} (h : (x.exec env s).1 = .error e) : x.Fails env s e := by
  unfold exec at h
  cases hx : x env ⟨s, 0⟩ with
  | error e' =>
    rw [hx] at h
    cases h
    exact ⟨0, hx⟩
  | ok r =>
    rw [hx] at h
    cases h

theorem exec_error {x : Tx σ ε α} {e : ε} (h : x.exec env s = (.error e, s')) : s' = s := by
  rcases exec_cases x env s with ⟨b, t, he, _⟩ | ⟨e', he⟩
  · rw [he] at h
    cases h
  · rw [he] at h
    cases h
    rfl

/-- A relation that is reflexive and holds for everything `x` yields holds
between the stores around `exec`. -/
theorem exec_rel (R : σ → σ → Prop) (x : Tx σ ε α) (env : Env) (s : σ) (hrefl : R s s)
    (h : ∀ a s', x.Yields env s a s' → R s s') : R s (x.exec env s).2 := by
  rcases exec_cases x env s with ⟨a, t, he, hy⟩ | ⟨e, he⟩
  · rw [he]
    exact h a t hy
  · rw [he]
    exact hrefl

/-- A transaction that only renames the errors of `x` and its answer stores what `x` does. -/
theorem exec_mapError_then (x : Tx σ ε α) (g : ε → ε') (b : β) (env : Env) (s : σ) :
    ((x.mapError g >>= fun _ => pure b : Tx σ ε' β).exec env s).2 = (x.exec env s).2 := by
  unfold exec
  change (match (match x.mapError g env ⟨s, 0⟩ with
    | .ok (_, ses') => Except.ok (b, ses')
    | .error e => .error e) with
    | .ok (a, ses) => (Except.ok a, ses.store)
    | .error e => (.error e, s)).2 = _
  unfold Tx.mapError
  cases x env ⟨s, 0⟩ with
  | error e => rfl
  | ok r => rfl

end Tx

end Relational

import InstagramArchive.Relational.Transaction

/-!
# Programs of several transactions

A script is a program that commits one transaction after the other and, in between, asks
something outside the store and waits for the answer. Other programs commit between any
two of its steps, and a crash is a script that is never advanced again. A committed
transaction may leave an event.

`Protocol` is an abstract machine over events together with the relation between its
states and the stores that represent them. A script follows a protocol when each of its
transactions, from any store that represents the machine, leaves an event the machine
allows and a store that represents the machine afterwards.
-/

namespace Relational

/-- A program over the store `σ` that fails with `ε`, asks `ρ`, is answered `ω` and leaves
events `ν`. -/
inductive Script (σ ε ρ ω ν α : Type) : Type 1
  | finish (result : Except ε α)
  | transact {β : Type} (x : Tx σ ε β) (event : β → Option ν) (next : β → Script σ ε ρ ω ν α)
  | ask (request : ρ) (next : ω → Script σ ε ρ ω ν α)

namespace Script

variable {σ ε ρ ω ν α β M : Type}

def bind : Script σ ε ρ ω ν α → (α → Script σ ε ρ ω ν β) → Script σ ε ρ ω ν β
  | finish (.ok a), f => f a
  | finish (.error e), _ => finish (.error e)
  | transact x event next, f => transact x event fun b => (next b).bind f
  | ask request next, f => ask request fun a => (next a).bind f

instance : Monad (Script σ ε ρ ω ν) where
  pure a := finish (.ok a)
  bind := bind

/-- One transaction that leaves no event. -/
def tx (x : Tx σ ε α) : Script σ ε ρ ω ν α := transact x (fun _ => none) fun a => finish (.ok a)

/-- One transaction and the event it leaves when it commits. -/
def emit (x : Tx σ ε α) (event : α → Option ν) : Script σ ε ρ ω ν α :=
  transact x event fun a => finish (.ok a)

/-- One question and its answer. -/
def request (r : ρ) : Script σ ε ρ ω ν ω := ask r fun a => finish (.ok a)

def fail (e : ε) : Script σ ε ρ ω ν α := finish (.error e)

/-! ## Steps -/

/-- One step: a transaction commits or aborts, or a question is answered. An aborted
transaction ends the script. -/
def advance (env : Env) (answer : ω) (s : σ) :
    Script σ ε ρ ω ν α → Script σ ε ρ ω ν α × σ × Option ν
  | finish result => (finish result, s, none)
  | transact x event next =>
    match x.exec env s with
    | (.ok b, s') => (next b, s', event b)
    | (.error e, s') => (finish (.error e), s', none)
  | ask _ next => (next answer, s, none)

/-- The question the script waits on. -/
def asked : Script σ ε ρ ω ν α → Option ρ
  | ask request _ => some request
  | _ => none

section Transact

variable {γ : Type} {x : Tx σ ε γ} {event : γ → Option ν} {next : γ → Script σ ε ρ ω ν α}
  {env : Env} {answer : ω} {s s' : σ}

theorem advance_ok {b : γ} (h : x.exec env s = (.ok b, s')) :
    (transact x event next).advance env answer s = (next b, s', event b) := by
  simp only [advance, h]

theorem advance_error {e : ε} (h : x.exec env s = (.error e, s')) :
    (transact x event next : Script σ ε ρ ω ν α).advance env answer s =
      (finish (.error e), s', none) := by
  simp only [advance, h]

end Transact

/-- The script to its end with nothing in between; the `n`-th of `turns` is what step `n`
takes from outside: an environment, and the answer to the question it may ask. -/
def run (turns : Nat → Env × (ρ → ω)) : Script σ ε ρ ω ν α → Nat → σ → Except ε α × σ × List ν
  | finish result, _, s => (result, s, [])
  | transact x event next, n, s =>
    match x.exec (turns n).1 s with
    | (.ok b, s') =>
      match (next b).run turns (n + 1) s' with
      | (result, s'', events) => (result, s'', (event b).toList ++ events)
    | (.error e, s') => (.error e, s', [])
  | ask request next, n, s => (next ((turns n).2 request)).run turns (n + 1) s

section Run

variable {turns : Nat → Env × (ρ → ω)} {n : Nat} {s : σ}

theorem run_emit {x : Tx σ ε β} {event : β → Option ν} {f : β → Script σ ε ρ ω ν α} :
    (emit x event >>= f).run turns n s =
      match x.exec (turns n).1 s with
      | (.ok b, s') =>
        (((f b).run turns (n + 1) s').1, ((f b).run turns (n + 1) s').2.1,
          (event b).toList ++ ((f b).run turns (n + 1) s').2.2)
      | (.error e, s') => (.error e, s', []) := by
  change (transact x event fun b => f b).run turns n s = _
  rw [run]

theorem run_tx {x : Tx σ ε β} {f : β → Script σ ε ρ ω ν α} :
    (tx x >>= f).run turns n s =
      match x.exec (turns n).1 s with
      | (.ok b, s') => (f b).run turns (n + 1) s'
      | (.error e, s') => (.error e, s', []) := run_emit

theorem run_request {r : ρ} {f : ω → Script σ ε ρ ω ν α} :
    (request r >>= f).run turns n s = (f ((turns n).2 r)).run turns (n + 1) s := by
  change (ask r fun a => f a).run turns n s = _
  rw [run]

theorem run_emit_ok {x : Tx σ ε β} {event : β → Option ν} {f : β → Script σ ε ρ ω ν α} {b : β}
    {s' : σ} (h : x.exec (turns n).1 s = (.ok b, s')) :
    (emit x event >>= f).run turns n s =
      (((f b).run turns (n + 1) s').1, ((f b).run turns (n + 1) s').2.1,
        (event b).toList ++ ((f b).run turns (n + 1) s').2.2) := by
  rw [run_emit, h]

theorem run_tx_ok {x : Tx σ ε β} {f : β → Script σ ε ρ ω ν α} {b : β} {s' : σ}
    (h : x.exec (turns n).1 s = (.ok b, s')) :
    (tx x >>= f).run turns n s = (f b).run turns (n + 1) s' := by
  rw [run_tx, h]

theorem run_tx_error {x : Tx σ ε β} {f : β → Script σ ε ρ ω ν α} {e : ε} {s' : σ}
    (h : x.exec (turns n).1 s = (.error e, s')) :
    (tx x >>= f).run turns n s = (.error e, s', []) := by
  rw [run_tx, h]

theorem run_answer {r : ρ} {f : ω → Script σ ε ρ ω ν α} {a : ω} (h : (turns n).2 r = a) :
    (request r >>= f).run turns n s = (f a).run turns (n + 1) s := by
  rw [run_request, h]

/-- A read answers, or the connection fails. -/
theorem run_read [OfSql ε] {g : σ → β} {f : β → Script σ ε ρ ω ν α} :
    (tx (Tx.query g) >>= f).run turns n s =
      if (turns n).1.fault 0 then (.error (OfSql.ofSql .connection), s, [])
      else (f (g s)).run turns (n + 1) s := by
  rw [run_tx]
  cases hfault : (turns n).1.fault 0 <;> simp [Tx.exec, Tx.query, Tx.statement, hfault]

end Run

/-! ## What every transaction of a script keeps -/

/-- Every transaction of the script respects the relation. -/
def Respects (R : σ → σ → Prop) : Script σ ε ρ ω ν α → Prop
  | finish _ => True
  | transact x _ next => x.Respects R ∧ ∀ b, (next b).Respects R
  | ask _ next => ∀ a, (next a).Respects R

section Respects

variable {R : σ → σ → Prop}

theorem Respects.bind {x : Script σ ε ρ ω ν α} {f : α → Script σ ε ρ ω ν β} (hx : x.Respects R)
    (hf : ∀ a, (f a).Respects R) : (x >>= f).Respects R := by
  change (Script.bind x f).Respects R
  induction x with
  | finish result =>
    cases result with
    | error e => trivial
    | ok a => exact hf a
  | transact x event next ih => exact ⟨hx.1, fun b => ih b (hx.2 b)⟩
  | ask request next ih => exact fun a => ih a (hx a)

theorem Respects.pure (a : α) : (Pure.pure a : Script σ ε ρ ω ν α).Respects R := trivial

theorem Respects.fail (e : ε) : (Script.fail e : Script σ ε ρ ω ν α).Respects R := trivial

theorem Respects.request (r : ρ) : (Script.request r : Script σ ε ρ ω ν ω).Respects R :=
  fun _ => trivial

theorem Respects.tx {x : Tx σ ε α} (h : x.Respects R) :
    (Script.tx x : Script σ ε ρ ω ν α).Respects R := ⟨h, fun _ => trivial⟩

theorem Respects.emit {x : Tx σ ε α} {event : α → Option ν} (h : x.Respects R) :
    (Script.emit x event : Script σ ε ρ ω ν α).Respects R := ⟨h, fun _ => trivial⟩

theorem Respects.mono {S : σ → σ → Prop} {x : Script σ ε ρ ω ν α} (h : x.Respects R)
    (hRS : ∀ s s', R s s' → S s s') : x.Respects S := by
  induction x with
  | finish result => trivial
  | transact x event next ih =>
    exact ⟨fun env s b s' hy => hRS s s' (h.1 env s b s' hy), fun b => ih b (h.2 b)⟩
  | ask request next ih => exact fun a => ih a (h a)

/-- A step of a program whose first part respects a preorder, while that part has not ended. -/
theorem Respects.advance_bind [IsPreorder σ R] {x : Script σ ε ρ ω ν α} (h : x.Respects R)
    (f : α → Script σ ε ρ ω ν β) (hx : ∀ a, x ≠ finish (.ok a)) (env : Env) (answer : ω) (s : σ) :
    R s ((x >>= f).advance env answer s).2.1 ∧
      ∃ y : Script σ ε ρ ω ν α, y.Respects R ∧ ((x >>= f).advance env answer s).1 = y >>= f := by
  cases x with
  | finish result =>
    cases result with
    | ok a => exact (hx a rfl).elim
    | error e => exact ⟨Std.Refl.refl s, finish (.error e), trivial, rfl⟩
  | ask request next => exact ⟨Std.Refl.refl s, next answer, h answer, rfl⟩
  | transact x event next =>
    change R s ((transact x event fun b => next b >>= f).advance env answer s).2.1 ∧
      ∃ y : Script σ ε ρ ω ν α, y.Respects R ∧
        ((transact x event fun b => next b >>= f).advance env answer s).1 = y >>= f
    rcases Tx.exec_cases x env s with ⟨b, s', he, hy⟩ | ⟨e, he⟩
    · rw [advance_ok he]
      exact ⟨h.1 env s b s' hy, next b, h.2 b, rfl⟩
    · rw [advance_error he]
      exact ⟨Std.Refl.refl s, finish (.error e), trivial, rfl⟩

/-- A step of a script that respects a preorder moves the store along it. -/
theorem Respects.advance [IsPreorder σ R] {x : Script σ ε ρ ω ν α} (h : x.Respects R) (env : Env)
    (answer : ω) (s : σ) :
    R s (x.advance env answer s).2.1 ∧ (x.advance env answer s).1.Respects R := by
  cases x with
  | finish result => exact ⟨Std.Refl.refl s, trivial⟩
  | ask request next => exact ⟨Std.Refl.refl s, h answer⟩
  | transact x event next =>
    rcases Tx.exec_cases x env s with ⟨b, s', he, hy⟩ | ⟨e, he⟩
    · rw [advance_ok he]
      exact ⟨h.1 env s b s' hy, h.2 b⟩
    · rw [advance_error he]
      exact ⟨Std.Refl.refl s, trivial⟩

end Respects

/-! ## What a script knows -/

/-- Under what the script knows, each of its transactions is a step of `R`, after which it
knows something that holds again. Knowledge is what other programs do not take away. -/
def Grounded {κ : Type} (Holds : κ → σ → Prop) (R : κ → Env → σ → Option ν → σ → Prop) :
    Script σ ε ρ ω ν α → κ → Prop
  | finish _, _ => True
  | transact x event next, k =>
    ∀ env s b s', Holds k s → x.Yields env s b s' →
      R k env s (event b) s' ∧ ∃ k', Holds k' s' ∧ (next b).Grounded Holds R k'
  | ask _ next, k => ∀ a, (next a).Grounded Holds R k

section Grounded

variable {κ : Type} {Holds : κ → σ → Prop} {R : κ → Env → σ → Option ν → σ → Prop} {k : κ}

theorem Grounded.emit {x : Tx σ ε β} {event : β → Option ν} {f : β → Script σ ε ρ ω ν α}
    (h : ∀ env s b s', Holds k s → x.Yields env s b s' →
      R k env s (event b) s' ∧ ∃ k', Holds k' s' ∧ (f b).Grounded Holds R k') :
    (Script.emit x event >>= f).Grounded Holds R k := h

theorem Grounded.tx {x : Tx σ ε β} {f : β → Script σ ε ρ ω ν α}
    (h : ∀ env s b s', Holds k s → x.Yields env s b s' →
      R k env s none s' ∧ ∃ k', Holds k' s' ∧ (f b).Grounded Holds R k') :
    (Script.tx x >>= f).Grounded Holds R k := h

/-- A transaction that reads. -/
theorem Grounded.read [OfSql ε] {g : σ → β} {f : β → Script σ ε ρ ω ν α}
    (hR : ∀ k env s, R k env s none s)
    (h : ∀ s, Holds k s → ∃ k', Holds k' s ∧ (f (g s)).Grounded Holds R k') :
    (Script.tx (Tx.query g) >>= f).Grounded Holds R k := by
  refine .tx fun env s b s' hs hy => ?_
  obtain ⟨rfl, rfl⟩ := hy.query
  exact ⟨hR k env s, h s hs⟩

theorem Grounded.request {r : ρ} {f : ω → Script σ ε ρ ω ν α}
    (h : ∀ a, (f a).Grounded Holds R k) : (Script.request r >>= f).Grounded Holds R k := h

/-- **A step of a grounded script** leaves the store alone or is a step of `R`. -/
theorem Grounded.advance {x : Script σ ε ρ ω ν α} {s : σ} (h : x.Grounded Holds R k)
    (hs : Holds k s) (env : Env) (answer : ω) :
    ((x.advance env answer s).2 = (s, none) ∨
        R k env s (x.advance env answer s).2.2 (x.advance env answer s).2.1) ∧
      ∃ k', Holds k' (x.advance env answer s).2.1 ∧
        (x.advance env answer s).1.Grounded Holds R k' := by
  cases x with
  | finish result => exact ⟨Or.inl rfl, k, hs, trivial⟩
  | ask request next => exact ⟨Or.inl rfl, k, hs, h answer⟩
  | transact x event next =>
    rcases Tx.exec_cases x env s with ⟨b, s', he, hy⟩ | ⟨e, he⟩
    · rw [advance_ok he]
      obtain ⟨hR, hnext⟩ := h env s b s' hs hy
      exact ⟨Or.inr hR, hnext⟩
    · rw [advance_error he]
      exact ⟨Or.inl rfl, k, hs, trivial⟩

end Grounded

end Script

/-! ## Protocols -/

/-- An abstract machine with states `M` that moves by events `ν`, and what it means for a
store to represent a state. -/
structure Protocol (σ ρ ω ν M : Type) where
  /-- The store represents the state. -/
  Represents : M → σ → Prop
  /-- The answers the outside may give. -/
  Answers : ρ → ω → Prop
  /-- The machine allows the event. -/
  Allows : M → ν → Prop
  apply : M → ν → M
  /-- What a transaction with or without an event keeps between the stores around it. -/
  Keeps : Option ν → σ → σ → Prop

namespace Protocol

variable {σ ε ρ ω ν α β M : Type} (P : Protocol σ ρ ω ν M)

def after (m : M) : Option ν → M
  | none => m
  | some e => P.apply m e

/-- From the state `m`, the transaction may commit with the event and move the store from
`s` to `s'`. -/
structure Moves (m : M) (event : Option ν) (s s' : σ) : Prop where
  allowed : ∀ e, event = some e → P.Allows m e
  represents : P.Represents (P.after m event) s'
  keeps : P.Keeps event s s'

variable {P}

theorem Moves.of_event {m : M} {e : ν} {s s' : σ} (ha : P.Allows m e)
    (hr : P.Represents (P.apply m e) s') (hk : P.Keeps (some e) s s') :
    P.Moves m (some e) s s' := by
  refine ⟨fun e' he => ?_, hr, hk⟩
  cases he
  exact ha

end Protocol

namespace Script

variable {σ ε ρ ω ν α β M : Type} {P : Protocol σ ρ ω ν M}

/-- The script follows the protocol from `m` and ends in `Post`. -/
def Follows (P : Protocol σ ρ ω ν M) (Post : Except ε α → M → Prop) :
    Script σ ε ρ ω ν α → M → Prop
  | finish result, m => Post result m
  | transact x event next, m =>
    (∀ e, Post (.error e) m) ∧
      ∀ env s b s', P.Represents m s → x.Yields env s b s' →
        P.Moves m (event b) s s' ∧ (next b).Follows P Post (P.after m (event b))
  | ask request next, m => ∀ a, P.Answers request a → (next a).Follows P Post m

variable {Post : Except ε α → M → Prop} {m : M}

theorem Follows.emit {x : Tx σ ε β} {event : β → Option ν} {f : β → Script σ ε ρ ω ν α}
    (herror : ∀ e, Post (.error e) m)
    (h : ∀ env s b s', P.Represents m s → x.Yields env s b s' →
      P.Moves m (event b) s s' ∧ (f b).Follows P Post (P.after m (event b))) :
    (Script.emit x event >>= f).Follows P Post m := ⟨herror, h⟩

theorem Follows.tx {x : Tx σ ε β} {f : β → Script σ ε ρ ω ν α} (herror : ∀ e, Post (.error e) m)
    (h : ∀ env s b s', P.Represents m s → x.Yields env s b s' →
      P.Moves m none s s' ∧ (f b).Follows P Post m) :
    (Script.tx x >>= f).Follows P Post m := ⟨herror, h⟩

/-- A transaction that reads. -/
theorem Follows.read [OfSql ε] {g : σ → β} {f : β → Script σ ε ρ ω ν α}
    (herror : ∀ e, Post (.error e) m) (hkeeps : ∀ s, P.Keeps none s s)
    (h : ∀ s, P.Represents m s → (f (g s)).Follows P Post m) :
    (Script.tx (Tx.query g) >>= f).Follows P Post m := by
  refine .tx herror fun env s b s' hs hy => ?_
  obtain ⟨rfl, rfl⟩ := hy.query
  exact ⟨⟨fun e he => absurd he (by simp), hs, hkeeps s⟩, h s hs⟩

theorem Follows.request {r : ρ} {f : ω → Script σ ε ρ ω ν α}
    (h : ∀ a, P.Answers r a → (f a).Follows P Post m) :
    (Script.request r >>= f).Follows P Post m := h

/-- **A step of a script that follows its protocol.** -/
theorem Follows.advance {x : Script σ ε ρ ω ν α} {s : σ} (h : x.Follows P Post m)
    (hs : P.Represents m s) (hk : P.Keeps none s s) (env : Env) (answer : ω)
    (ha : ∀ request ∈ x.asked, P.Answers request answer) :
    P.Moves m (x.advance env answer s).2.2 s (x.advance env answer s).2.1 ∧
      (x.advance env answer s).1.Follows P Post (P.after m (x.advance env answer s).2.2) := by
  have hstay : P.Moves m none s s := ⟨fun e he => absurd he (by simp), hs, hk⟩
  cases x with
  | finish result => exact ⟨hstay, h⟩
  | ask request next => exact ⟨hstay, h answer (ha request rfl)⟩
  | transact x event next =>
    rcases Tx.exec_cases x env s with ⟨b, s', he, hy⟩ | ⟨e, he⟩
    · rw [advance_ok he]
      exact h.2 env s b s' hs hy
    · rw [advance_error he]
      exact ⟨hstay, h.1 e⟩

end Script

end Relational

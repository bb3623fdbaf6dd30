import InstagramArchive.Relational.Execution
import InstagramArchive.Relational.Transaction

/-!
# A broker that delivers at least once

A message stays open until an acknowledgement or a termination of it reaches the broker. Until
then it is delivered any number of times, also while an earlier delivery of it is being handled
or settled; a settlement may be lost. The consumer handles a delivery in one transaction on a
store that other actions work on as well.

The verdict rule says what a settled message owes to the deliveries of it: what every handling
with a verdict establishes, and later steps keep, holds of every message settled so.
-/

namespace Relational

/-- What a consumer answers to a delivery. -/
inductive Verdict where
  | ack
  | nak
  | term
  deriving DecidableEq, Repr

/-- A message at the broker; `settled` is `none` while it is open. -/
structure Posted (μ : Type) where
  message : μ
  settled : Option Verdict := none

/-- The broker's messages, the settlements on their way to it, and the store of the consumer. -/
structure Broker (σ μ : Type) where
  store : σ
  posted : List (Posted μ) := []
  settling : List (Nat × Verdict) := []

inductive BrokerAction (ι μ : Type) where
  | post (message : μ)
  /-- A delivery of an open message is handled. -/
  | deliver (env : Env) (message : Nat)
  /-- A settlement reaches the broker. -/
  | settle (settlement : Nat)
  /-- A settlement is lost. -/
  | lose (settlement : Nat)
  /-- Another action on the store. -/
  | other (a : ι)

namespace Broker

variable {σ μ ι : Type}

/-- The message a delivery hands to the consumer. -/
def openMessage (b : Broker σ μ) (i : Nat) : Option μ :=
  (b.posted[i]?).bind fun p => if p.settled.isNone then some p.message else none

/-- A negative acknowledgement leaves a message open, and the first settlement stays. -/
def settledBy (v : Verdict) (p : Posted μ) : Posted μ :=
  if v = .nak ∨ p.settled.isSome then p else { p with settled := some v }

variable (handle : Env → σ → μ → Verdict × σ) (other : σ → ι → σ)

def step (b : Broker σ μ) : BrokerAction ι μ → Broker σ μ
  | .post message => { b with posted := b.posted ++ [{ message }] }
  | .deliver env i =>
    match b.openMessage i with
    | none => b
    | some message =>
      { b with
        store := (handle env b.store message).2
        settling := b.settling ++ [(i, (handle env b.store message).1)] }
  | .settle k =>
    match b.settling[k]? with
    | none => b
    | some (i, v) =>
      { b with posted := b.posted.modify i (settledBy v), settling := b.settling.eraseIdx k }
  | .lose k => { b with settling := b.settling.eraseIdx k }
  | .other a => { b with store := other b.store a }

variable {handle other}

theorem openMessage_eq_some {b : Broker σ μ} {i : Nat} {message : μ} :
    b.openMessage i = some message ↔
      ∃ p, b.posted[i]? = some p ∧ p.settled = none ∧ p.message = message := by
  unfold openMessage
  cases b.posted[i]? with
  | none => simp
  | some p => simp

theorem settledBy_message (v : Verdict) (p : Posted μ) : (settledBy v p).message = p.message := by
  unfold settledBy
  split
  · rfl
  · rfl

theorem settledBy_settled {v w : Verdict} {p : Posted μ} (h : (settledBy v p).settled = some w) :
    p.settled = some w ∨ v = w ∧ w ≠ .nak := by
  unfold settledBy at h
  split at h
  · exact Or.inl h
  · rename_i hopen
    obtain rfl := Option.some.inj h
    exact Or.inr ⟨rfl, fun hv => hopen (Or.inl hv)⟩

/-- **No message is lost**: every step keeps it, and the settlement it has. -/
theorem step_posted (b : Broker σ μ) (a : BrokerAction ι μ) {i : Nat} {p : Posted μ}
    (h : b.posted[i]? = some p) : ∃ p', (step handle other b a).posted[i]? = some p' ∧
      p'.message = p.message ∧ (p.settled.isSome → p'.settled = p.settled) := by
  cases a with
  | post message =>
    refine ⟨p, ?_, rfl, fun _ => rfl⟩
    exact List.getElem?_append_left (List.getElem?_eq_some_iff.mp h).1 ▸ h
  | deliver env j =>
    refine ⟨p, ?_, rfl, fun _ => rfl⟩
    simp only [step]
    split
    · exact h
    · exact h
  | settle k =>
    simp only [step]
    split
    · exact ⟨p, h, rfl, fun _ => rfl⟩
    · rename_i j v hk
      rw [List.getElem?_modify, h]
      by_cases hj : j = i
      · refine ⟨settledBy v p, by simp [hj], settledBy_message v p, fun hs => ?_⟩
        simp [settledBy, hs]
      · exact ⟨p, by simp [hj], rfl, fun _ => rfl⟩
  | lose k => exact ⟨p, h, rfl, fun _ => rfl⟩
  | other a => exact ⟨p, h, rfl, fun _ => rfl⟩

/-- What the settlements on their way and the settled messages rest on. -/
structure Justified (P : μ → Verdict → Prop) (b : Broker σ μ) : Prop where
  settling : ∀ i v, (i, v) ∈ b.settling → ∃ p, b.posted[i]? = some p ∧ P p.message v
  posted : ∀ p ∈ b.posted, ∀ v, p.settled = some v → v ≠ .nak ∧ P p.message v

theorem Justified.mono {P Q : μ → Verdict → Prop} {b : Broker σ μ} (h : Justified P b)
    (hPQ : ∀ m v, P m v → Q m v) : Justified Q b where
  settling i v hv := by
    obtain ⟨p, hp, hP⟩ := h.settling i v hv
    exact ⟨p, hp, hPQ _ _ hP⟩
  posted p hp v hv := ⟨(h.posted p hp v hv).1, hPQ _ _ (h.posted p hp v hv).2⟩

/-- A step keeps the reasons, if the handling of a delivery gives one for its verdict. -/
theorem Justified.step {P : μ → Verdict → Prop} {b : Broker σ μ} (h : Justified P b)
    (a : BrokerAction ι μ) (hdeliver : ∀ env i m, a = .deliver env i → b.openMessage i = some m →
      P m (handle env b.store m).1) : Justified P (step handle other b a) := by
  have hkept : ∀ i v, (i, v) ∈ b.settling →
      ∃ p, (Broker.step handle other b a).posted[i]? = some p ∧ P p.message v := by
    intro i v hv
    obtain ⟨p, hp, hP⟩ := h.settling i v hv
    obtain ⟨p', hp', hmessage, -⟩ := step_posted b a hp
    exact ⟨p', hp', hmessage ▸ hP⟩
  cases a with
  | post message =>
    refine ⟨hkept, ?_⟩
    intro p hp v hv
    rcases List.mem_append.mp hp with hp | hp
    · exact h.posted p hp v hv
    · rw [List.mem_singleton.mp hp] at hv
      cases hv
  | deliver env j =>
    simp only [Broker.step] at hkept ⊢
    cases hm : b.openMessage j with
    | none => exact h
    | some m =>
      rw [hm] at hkept
      refine ⟨?_, h.posted⟩
      intro i v hv
      rcases List.mem_append.mp hv with hv | hv
      · exact hkept i v hv
      · obtain ⟨rfl, rfl⟩ := Prod.mk.inj (List.mem_singleton.mp hv)
        obtain ⟨p, hp, -, rfl⟩ := openMessage_eq_some.mp hm
        exact ⟨p, hp, hdeliver env i _ rfl hm⟩
  | settle k =>
    simp only [Broker.step] at hkept ⊢
    cases hk : b.settling[k]? with
    | none => exact h
    | some settlement =>
      obtain ⟨j, w⟩ := settlement
      rw [hk] at hkept
      refine ⟨fun i v hv => hkept i v (List.mem_of_mem_eraseIdx hv), ?_⟩
      intro p hp v hv
      obtain ⟨i, hi⟩ := List.mem_iff_getElem?.mp hp
      rw [List.getElem?_modify] at hi
      obtain ⟨old, hold, rfl⟩ := Option.map_eq_some_iff.mp hi
      split at hv
      · rename_i hj
        obtain rfl := hj
        rw [if_pos rfl, settledBy_message]
        rcases settledBy_settled hv with hv | ⟨rfl, hne⟩
        · exact h.posted old (List.mem_of_getElem? hold) v hv
        · obtain ⟨p', hp', hP⟩ := h.settling j w (List.mem_of_getElem? hk)
          rw [hold] at hp'
          obtain rfl := Option.some.inj hp'
          exact ⟨hne, hP⟩
      · rename_i hj
        rw [if_neg hj]
        exact h.posted old (List.mem_of_getElem? hold) v hv
  | lose k => exact ⟨fun i v hv => hkept i v (List.mem_of_mem_eraseIdx hv), h.posted⟩
  | other a => exact ⟨hkept, h.posted⟩

/-- **Verdict rule.** `P` may speak of the run so far: what the handling of a delivery gives for
its verdict, and every further step keeps, holds of every settled message. -/
theorem justified_run (P : List (BrokerAction ι μ) → μ → Verdict → Prop) (store : σ)
    (hkept : ∀ actions a m v, P actions m v → P (actions ++ [a]) m v)
    (hdeliver : ∀ actions env i m,
      (run (step handle other) { store } actions).openMessage i = some m →
        P (actions ++ [.deliver env i]) m
          (handle env (run (step handle other) { store } actions).store m).1)
    (actions : List (BrokerAction ι μ)) :
    Justified (P actions) (run (step handle other) { store } actions) := by
  induction actions using List.reverseRecOn with
  | nil => exact ⟨fun i v hv => (List.not_mem_nil hv).elim, fun p hp => (List.not_mem_nil hp).elim⟩
  | append_singleton before a ih =>
    rw [run_concat]
    refine (ih.mono fun m v => hkept before a m v).step a ?_
    rintro env i m rfl hm
    exact hdeliver before env i m hm

/-! ## Runs of the store -/

/-- The action on the store that a step makes, if it makes one; `act` is that of a delivery. -/
def onStore (act : Env → σ → μ → Option ι) (b : Broker σ μ) : BrokerAction ι μ → Option ι
  | .deliver env i => (b.openMessage i).bind (act env b.store)
  | .other a => some a
  | _ => none

/-- The actions on the store that a run makes. -/
def trace (handle : Env → σ → μ → Verdict × σ) (other : σ → ι → σ)
    (act : Env → σ → μ → Option ι) : Broker σ μ → List (BrokerAction ι μ) → List ι
  | _, [] => []
  | b, a :: rest => (b.onStore act a).toList ++ trace handle other act (step handle other b a) rest

section Trace

variable {act : Env → σ → μ → Option ι}
  (hact : ∀ env s m, (handle env s m).2 = run other s (act env s m).toList)
include hact

theorem step_store (b : Broker σ μ) (a : BrokerAction ι μ) :
    (step handle other b a).store = run other b.store (b.onStore act a).toList := by
  cases a with
  | deliver env i =>
    simp only [step, onStore]
    cases b.openMessage i with
    | none => rfl
    | some m => exact hact env b.store m
  | settle k =>
    simp only [step, onStore]
    split
    · rfl
    · rfl
  | _ => rfl

/-- **The store of a run is a run of the store.** -/
theorem run_store (b : Broker σ μ) (actions : List (BrokerAction ι μ)) :
    (run (step handle other) b actions).store =
      run other b.store (trace handle other act b actions) := by
  induction actions generalizing b with
  | nil => rfl
  | cons a rest ih =>
    rw [trace, run_append, ← step_store hact]
    exact ih (step handle other b a)

end Trace

/-- An action on the store came from a step of the run. -/
theorem mem_trace {act : Env → σ → μ → Option ι} {x : ι} {b : Broker σ μ}
    {actions : List (BrokerAction ι μ)} (h : x ∈ trace handle other act b actions) :
    ∃ before a after, actions = before ++ a :: after ∧
      (run (step handle other) b before).onStore act a = some x := by
  induction actions generalizing b with
  | nil => exact (List.not_mem_nil h).elim
  | cons a rest ih =>
    rcases List.mem_append.mp h with hfirst | hrest
    · exact ⟨[], a, rest, rfl, Option.mem_toList.mp hfirst⟩
    · obtain ⟨before, a', after, rfl, hact⟩ := ih hrest
      exact ⟨a :: before, a', after, rfl, hact⟩

end Broker

end Relational

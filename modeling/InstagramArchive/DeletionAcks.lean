import InstagramArchive.RemovalDelivery
import InstagramArchive.Relational.Broker

/-!
# Knowledge's deletion acknowledgements

A removal is published until Knowledge answers it. The answers arrive at least once on a durable
that every producer's acknowledgements pass through, so a message that is not a valid
acknowledgement from Knowledge is terminated, one that names no open removal is acknowledged
and ignored, and a failure of the store is redelivered.

Between two deliveries every other step of the archive runs. A removal stays unanswered, in
the outbox, until a message of Knowledge that names it and its tenant is handled.
-/

namespace InstagramArchive

open Relational Relational.Tx

/-! ## Messages -/

/-- `DeletionAckFamily`; the other families name rows of sibling producers. -/
inductive DeletionAckFamily where
  | social
  | other
  deriving DecidableEq, Repr

/-- `DeletionAckOutcome`, which may grow further values. -/
inductive DeletionAckOutcome where
  | applied
  | refused
  | other
  deriving DecidableEq, Repr

/-- The payload `knowledge.deletion.acknowledged.v1`; its owner is in wire form. -/
structure KnowledgeDeletionAcknowledged where
  acknowledgedEventId : Uuid
  owner : String
  family : DeletionAckFamily
  outcome : DeletionAckOutcome
  deriving DecidableEq, Repr

/-- An envelope of the events stream; `payload` is `none` when it is of another type. -/
structure AckEnvelope where
  producer : String
  tenantId : Option String
  payload : Option KnowledgeDeletionAcknowledged
  deriving DecidableEq, Repr

/-- What a message's bytes hold, if they are an envelope at all. -/
abbrev AckMessage := Option AckEnvelope

/-- The only producer an acknowledgement may come from. -/
def knowledge : String := "ratatoskr-knowledge"

/-- The envelope must be Knowledge's, for the tenant its payload names. -/
def decodeAck (message : AckMessage) : Option KnowledgeDeletionAcknowledged :=
  match message with
  | none => none
  | some envelope =>
    if envelope.producer ≠ knowledge then none
    else envelope.payload.filter fun acknowledgement =>
      envelope.tenantId = some acknowledgement.owner

def DeletionAckOutcome.ackOutcome : DeletionAckOutcome → Option AckOutcome
  | .applied => some .applied
  | .refused => some .refused
  | .other => none

/-! ## The consumer -/

/-- What one valid message did. -/
inductive AckHandled where
  | applied
  | refused
  | ignored
  deriving DecidableEq, Repr

/-- Why one message was not applied. -/
inductive AckRejected where
  /-- Not a valid acknowledgement from Knowledge. -/
  | unattributable
  /-- The database failed; the message is redelivered. -/
  | database
  deriving DecidableEq, Repr

instance : OfSql AckRejected := ⟨fun _ => .database⟩

def ackHandled (changed : Bool) (outcome : AckOutcome) : AckHandled :=
  match changed, outcome with
  | false, _ => .ignored
  | true, .applied => .applied
  | true, .refused => .refused

/-- `apply` of the consumer: one statement on the outbox at most. -/
def applyAck (message : AckMessage) : ArchiveTx AckRejected AckHandled :=
  match decodeAck message with
  | none => Tx.throw .unattributable
  | some acknowledgement =>
    if acknowledgement.family ≠ .social then return .ignored
    else match acknowledgement.outcome.ackOutcome with
      | none => Tx.throw .unattributable
      | some outcome => do
        let changed ← mapError (fun _ => .database)
          (acknowledge acknowledgement.acknowledgedEventId acknowledgement.owner outcome)
        return ackHandled changed outcome

/-- How the consumer settles a delivery. -/
def ackVerdict : Except AckRejected AckHandled → Verdict
  | .ok _ => .ack
  | .error .unattributable => .term
  | .error .database => .nak

/-- One delivery, handled in one transaction. -/
def consumeAck (env : Env) (s : System) (message : AckMessage) : Verdict × System :=
  (ackVerdict ((applyAck message).exec env s.db).1,
    { s with db := ((applyAck message).exec env s.db).2 })

abbrev AckBroker := Broker System AckMessage

abbrev AckAction := BrokerAction Action AckMessage

/-- One step of the broker, of the consumer, or of the archive. -/
abbrev ackStep (lib : Externals) : AckBroker → AckAction → AckBroker :=
  Broker.step consumeAck (step lib)

/-! ## AnswersRemoval -/

/-- The message is Knowledge's answer `outcome` to the row. -/
def AnswersRemoval (message : AckMessage) (outcome : AckOutcome) (e : OutboxEvent) : Prop :=
  ∃ acknowledgement, decodeAck message = some acknowledgement ∧
    acknowledgement.family = .social ∧ acknowledgement.outcome.ackOutcome = some outcome ∧
    acknowledgement.acknowledgedEventId = e.eventId ∧ acknowledgement.owner = e.payload.tenantId

/-- A step of the run handled a delivery of a message with the property. -/
def Handles (lib : Externals) (b : AckBroker) (actions : List AckAction)
    (P : Env → AckMessage → Prop) : Prop :=
  ∃ before env i after m, actions = before ++ .deliver env i :: after ∧
    (run (ackStep lib) b before).openMessage i = some m ∧ P env m

/-- The archive's own call that a delivery amounts to. -/
def ackAction (env : Env) (_ : System) (message : AckMessage) : Option Action :=
  (decodeAck message).bind fun acknowledgement =>
    if acknowledgement.family ≠ .social then none
    else acknowledgement.outcome.ackOutcome.map fun outcome =>
      .acknowledge env acknowledgement.acknowledgedEventId acknowledgement.owner outcome

theorem ackAction_eq_some {env : Env} {s : System} {message : AckMessage} {a : Action}
    (h : ackAction env s message = some a) :
    ∃ acknowledgement outcome, decodeAck message = some acknowledgement ∧
      acknowledgement.family = .social ∧ acknowledgement.outcome.ackOutcome = some outcome ∧
      a = .acknowledge env acknowledgement.acknowledgedEventId acknowledgement.owner outcome := by
  obtain ⟨acknowledgement, hdecode, h⟩ := Option.bind_eq_some_iff.mp h
  split at h
  · cases h
  · rename_i hfamily
    obtain ⟨outcome, houtcome, rfl⟩ := Option.map_eq_some_iff.mp h
    exact ⟨acknowledgement, outcome, hdecode, by simpa using hfamily, houtcome, rfl⟩

/-- A transaction that maps the error of another and computes with its answer leaves the same
store. -/
theorem exec_mapError_map {σ ε ε' α β : Type} (x : Tx σ ε α) (g : ε → ε') (f : α → β) (env : Env)
    (s : σ) : ((do let a ← mapError g x; return f a : Tx σ ε' β).exec env s).2 = (x.exec env s).2 := by
  unfold Tx.exec
  rw [bind_apply]
  unfold mapError
  cases x env ⟨s, 0⟩ with
  | error e => rfl
  | ok r => rfl

/-- **A handled delivery is a call of the archive**, or it leaves the archive alone. -/
theorem consumeAck_store (lib : Externals) (env : Env) (s : System) (message : AckMessage) :
    (consumeAck env s message).2 = run (step lib) s (ackAction env s message).toList := by
  unfold consumeAck applyAck ackAction
  cases hdecode : decodeAck message with
  | none => rfl
  | some acknowledgement =>
    simp only [Option.bind_some]
    split
    · rfl
    · cases houtcome : acknowledgement.outcome.ackOutcome with
      | none => rfl
      | some outcome =>
        simp only [exec_mapError_map]
        rfl

/-! ## Runs -/

/-- Acknowledgements reach the archive through the consumer only. -/
def ThroughConsumer (actions : List AckAction) : Prop :=
  ∀ env eventId tenant outcome,
    BrokerAction.other (.acknowledge env eventId tenant outcome) ∉ actions

section Runs

variable {lib : Externals} {b : AckBroker} {actions : List AckAction}

/-- The archive's steps in a run of the broker. -/
abbrev archiveTrace (lib : Externals) : AckBroker → List AckAction → List Action :=
  Broker.trace consumeAck (step lib) ackAction

theorem archiveTrace_store (lib : Externals) (b : AckBroker) (actions : List AckAction) :
    (run (ackStep lib) b actions).store = run (step lib) b.store (archiveTrace lib b actions) :=
  Broker.run_store (consumeAck_store lib) b actions

/-- **An acknowledgement of the archive came from a handled message of Knowledge.** -/
theorem acknowledge_handled (hthrough : ThroughConsumer actions) {env : Env} {e : OutboxEvent}
    {outcome : AckOutcome}
    (h : .acknowledge env e.eventId e.payload.tenantId outcome ∈ archiveTrace lib b actions) :
    Handles lib b actions fun env' m => env' = env ∧ AnswersRemoval m outcome e := by
  obtain ⟨before, a, after, rfl, hact⟩ := Broker.mem_trace h
  cases a with
  | deliver env' i =>
    obtain ⟨m, hm, hact⟩ := Option.bind_eq_some_iff.mp hact
    obtain ⟨acknowledgement, outcome', hdecode, hfamily, houtcome, heq⟩ := ackAction_eq_some hact
    obtain ⟨rfl, hid, htenant, rfl⟩ := Action.acknowledge.inj heq
    exact ⟨before, _, i, after, m, rfl, hm, rfl, acknowledgement, hdecode, hfamily, houtcome,
      hid.symm, htenant.symm⟩
  | other x =>
    obtain rfl := Option.some.inj hact
    exact (hthrough _ _ _ _ (List.mem_append_right before List.mem_cons_self)).elim
  | post _ => cases hact
  | settle _ => cases hact
  | lose _ => cases hact

/-- **An unanswered removal stays until it is acknowledged**, whatever the archive does. -/
theorem unanswered_run {s : System} {soFar : List Action}
    (hsound : ∀ e ∈ s.db.outboxEvents, RowSound soFar e) {e : OutboxEvent}
    (he : e ∈ s.db.outboxEvents) (hopen : e.unanswered = true) (steps : List Action) :
    (∃ e' ∈ (run (step lib) s steps).db.outboxEvents,
        e'.asAppended = e.asAppended ∧ e'.unanswered = true) ∨
      ∃ env outcome, .acknowledge env e.eventId e.payload.tenantId outcome ∈ steps := by
  induction steps generalizing s soFar e with
  | nil => exact Or.inl ⟨e, he, rfl, hopen⟩
  | cons a rest ih =>
    rcases Later.step lib a hsound he with ⟨e', he', hlater⟩ | ⟨-, hanswered⟩
    · cases hopen' : e'.unanswered with
      | true =>
        rcases ih (RowSound.step hsound) he' hopen' with ⟨e'', he'', hsame, hopen''⟩ |
          ⟨env, outcome, hmem⟩
        · exact Or.inl ⟨e'', he'', hsame.trans hlater.asAppended, hopen''⟩
        · rw [hlater.eventId, hlater.tenantId] at hmem
          exact Or.inr ⟨env, outcome, List.mem_cons_of_mem a hmem⟩
      | false =>
        -- the type of the row stays, so the step answered it
        simp only [OutboxEvent.unanswered, Bool.and_eq_true, decide_eq_true_eq,
          Option.isNone_iff_eq_none] at hopen
        have htype : e'.eventType = e.eventType :=
          congrArg (fun e => e.eventType) hlater.asAppended
        simp only [OutboxEvent.unanswered, htype, hopen.1, decide_true, Bool.true_and,
          Option.isNone_eq_false_iff] at hopen'
        obtain ⟨t, ht⟩ := Option.isSome_iff_exists.mp hopen'
        obtain ⟨env, outcome, hmem, -⟩ := hlater.answered hopen.2 t ht
        exact Or.inr ⟨env, outcome, List.mem_cons.mpr (Or.inl (List.mem_singleton.mp hmem))⟩
    · rw [hopen] at hanswered
      cases hanswered

/-! ## Settlements -/

/-- No removal of the tenant with that event id waits for an answer. -/
def NothingOpen (acknowledgement : KnowledgeDeletionAcknowledged) (db : Db) : Prop :=
  ∀ e ∈ db.outboxEvents,
    e.acknowledges acknowledgement.acknowledgedEventId acknowledgement.owner = false

/-- The message cannot be attributed to Knowledge, or its outcome is unknown. -/
def Unattributable (message : AckMessage) : Prop :=
  ∀ acknowledgement, decodeAck message = some acknowledgement →
    acknowledgement.family = .social ∧ acknowledgement.outcome.ackOutcome = none

/-- Why a message is settled the way it is: an acknowledged one names a row of a sibling
producer, or a delivery of this very message left nothing open that it names. -/
def AckSettled (lib : Externals) (actions : List AckAction) (message : AckMessage) : Verdict → Prop
  | .ack => ∃ acknowledgement, decodeAck message = some acknowledgement ∧
      (acknowledgement.family ≠ .social ∨
        ∃ before env i after, actions = before ++ .deliver env i :: after ∧
          (run (ackStep lib) { store := {} } before).openMessage i = some message ∧
          NothingOpen acknowledgement
            (run (ackStep lib) { store := {} } (before ++ [.deliver env i])).store.db)
  | .term => Unattributable message
  | .nak => True

theorem acknowledged_nothingOpen {env : Env} {db : Db} {outcome : AckOutcome}
    {acknowledgement : KnowledgeDeletionAcknowledged} : NothingOpen acknowledgement
      (updateOutbox
        (OutboxEvent.acknowledges acknowledgement.acknowledgedEventId acknowledgement.owner)
        (OutboxEvent.acknowledged env.now outcome) (by intro; rfl) db) := by
  intro e he
  obtain ⟨old, -, rfl⟩ := Table.exists_of_mem_update he
  split
  · simp [OutboxEvent.acknowledges, OutboxEvent.acknowledged]
  · rename_i hnot
    exact Bool.eq_false_of_not_eq_true hnot

/-- **What the verdict on a delivery says.** -/
theorem consumeAck_settled (lib : Externals) (actions : List AckAction) (env : Env) (i : Nat)
    (message : AckMessage)
    (hm : (run (ackStep lib) { store := {} } actions).openMessage i = some message) :
    AckSettled lib (actions ++ [.deliver env i]) message
      (consumeAck env (run (ackStep lib) { store := {} } actions).store message).1 := by
  have hstore : (run (ackStep lib) { store := {} } (actions ++ [.deliver env i])).store =
      (consumeAck env (run (ackStep lib) { store := {} } actions).store message).2 := by
    rw [run_concat]
    simp only [Broker.step, hm]
  generalize (run (ackStep lib) { store := {} } actions).store = s at hstore
  unfold consumeAck at hstore ⊢
  rcases exec_cases (applyAck message) env s.db with ⟨handled, db', hexec, h⟩ | ⟨e, hexec⟩
  · rw [hexec] at hstore ⊢
    unfold applyAck at h
    cases hdecode : decodeAck message with
    | none =>
      rw [hdecode] at h
      exact h.throw.elim
    | some acknowledgement =>
      refine ⟨acknowledgement, hdecode, ?_⟩
      rw [hdecode] at h
      by_cases hfamily : acknowledgement.family = .social
      · refine Or.inr ⟨actions, env, i, [], rfl, hm, ?_⟩
        rw [hstore]
        simp only [hfamily, ne_eq, not_true_eq_false, if_false] at h
        cases houtcome : acknowledgement.outcome.ackOutcome with
        | none =>
          rw [houtcome] at h
          exact h.throw.elim
        | some outcome =>
          rw [houtcome] at h
          obtain ⟨changed, _, h1, h⟩ := h.bind
          obtain ⟨-, rfl⟩ := yields_pure.mp h
          rw [acknowledge_yields h1.mapError]
          exact acknowledged_nothingOpen
      · exact Or.inl hfamily
  · rw [hexec]
    cases e with
    | database => trivial
    | unattributable =>
      intro acknowledgement hdecode
      have hfails : (applyAck message).Fails env s.db .unattributable :=
        exec_fails (congrArg Prod.fst hexec)
      unfold applyAck at hfails
      rw [hdecode] at hfails
      dsimp only at hfails
      split at hfails
      · exact hfails.pure.elim
      · rename_i hfamily
        refine ⟨by simpa using hfamily, ?_⟩
        cases houtcome : acknowledgement.outcome.ackOutcome with
        | none => rfl
        | some outcome =>
          rw [houtcome] at hfails
          rcases hfails.bind with h1 | ⟨changed, mid, -, h2⟩
          · obtain ⟨e', he', -⟩ := h1.mapError
            cases he'
          · exact h2.pure.elim

/-- What answered removals and settled messages rest on after a run. -/
structure RemovalsAnswered (lib : Externals) (actions : List AckAction) : Prop where
  /-- An answered row was answered, then, by a handled message of Knowledge. -/
  answered : ∀ e ∈ (run (ackStep lib) { store := {} } actions).store.db.outboxEvents,
    ∀ t, e.acknowledgedAt = some t → ∃ outcome, e.ackOutcome = some outcome ∧
      Handles lib { store := {} } actions fun env m => env.now = t ∧ AnswersRemoval m outcome e
  settled : ∀ p ∈ (run (ackStep lib) { store := {} } actions).posted, ∀ v, p.settled = some v →
    v ≠ .nak ∧ AckSettled lib actions p.message v

theorem AckSettled.later {before : List AckAction} {message : AckMessage} {v : Verdict}
    (h : AckSettled lib before message v) (a : AckAction) :
    AckSettled lib (before ++ [a]) message v := by
  cases v with
  | ack =>
    obtain ⟨acknowledgement, hdecode, hfamily | ⟨earlier, env, i, after, rfl, hrest⟩⟩ := h
    · exact ⟨acknowledgement, hdecode, Or.inl hfamily⟩
    · exact ⟨acknowledgement, hdecode, Or.inr ⟨earlier, env, i, after ++ [a], by simp, hrest⟩⟩
  | term => exact h
  | nak => trivial

theorem removalsAnswered_run (hthrough : ThroughConsumer actions) :
    RemovalsAnswered lib actions where
  answered e he t ht := by
    rw [archiveTrace_store] at he
    obtain ⟨env, outcome, hmem, hnow, houtcome⟩ := (rowSound_run rfl _ e he).answered t ht
    obtain ⟨before, env', i, after, m, hactions, hopen, rfl, hanswers⟩ :=
      acknowledge_handled hthrough hmem
    exact ⟨outcome, houtcome, before, env', i, after, m, hactions, hopen, hnow, hanswers⟩
  settled :=
    (Broker.justified_run (AckSettled lib) ({} : System) (fun _ a _ _ h => h.later a)
      (consumeAck_settled lib) actions).posted

/-- **A removal waits for Knowledge.** In every run of the broker, the consumer and the archive,
an unanswered removal of the outbox is still there, unanswered, at any later time, unless a
message of Knowledge that names it and its tenant was handled since. Every answer stored comes
from such a message, the delivery of an acknowledged message left nothing open that it names, and
a terminated one cannot be attributed. -/
theorem removals_await_knowledge (lib : Externals) (before after : List AckAction)
    (hthrough : ThroughConsumer (before ++ after)) :
    (∀ e ∈ (run (ackStep lib) { store := {} } before).store.db.outboxEvents,
      e.unanswered = true →
        (∃ e' ∈ (run (ackStep lib) { store := {} } (before ++ after)).store.db.outboxEvents,
          e'.asAppended = e.asAppended ∧ e'.unanswered = true) ∨
        ∃ outcome, Handles lib (run (ackStep lib) { store := {} } before) after
          fun _ m => AnswersRemoval m outcome e) ∧
      RemovalsAnswered lib (before ++ after) := by
  refine ⟨fun e he hopen => ?_, removalsAnswered_run hthrough⟩
  have hsound : ∀ e ∈ (run (ackStep lib) { store := {} } before).store.db.outboxEvents,
      RowSound (archiveTrace lib { store := {} } before) e := by
    rw [archiveTrace_store]
    exact rowSound_run rfl _
  rw [run_append, archiveTrace_store lib (run (ackStep lib) { store := {} } before) after]
  rcases unanswered_run hsound he hopen (archiveTrace lib _ after) with hkept |
    ⟨env, outcome, hmem⟩
  · exact Or.inl hkept
  · have hafter : ThroughConsumer after := fun env eventId tenant outcome hmem =>
      hthrough env eventId tenant outcome (List.mem_append_right before hmem)
    obtain ⟨earlier, env', i, rest, m, hactions, hmessage, -, hanswers⟩ :=
      acknowledge_handled hafter hmem
    exact Or.inr ⟨outcome, earlier, env', i, rest, m, hactions, hmessage, hanswers⟩

/-- Knowledge applied the removal that `publishedRemoval` publishes. -/
def removalApplied : AckMessage :=
  some
    { producer := knowledge
      tenantId := some "user:1"
      payload := some ⟨204, "user:1", .social, .applied⟩ }

/-- Its delivery, and the settlement of it. -/
def removalAnswered : List AckAction :=
  [.post removalApplied, .deliver (quietEnv 50 500) 0, .settle 0]

theorem removals_await_knowledge_removalAnswered :
    (run (ackStep reference) { store := {} }
        (publishedRemoval.map .other ++ removalAnswered)).store.db.outboxEvents.rows.map
      (fun e => (e.eventId, e.unanswered)) = [(204, false)] ∧
    RemovalsAnswered reference (publishedRemoval.map .other ++ removalAnswered) :=
  ⟨by decide +kernel, (removals_await_knowledge reference (publishedRemoval.map .other)
    removalAnswered (by
      intro env eventId tenant outcome
      simp [publishedRemoval, removalAnswered])).2⟩

end Runs

end InstagramArchive

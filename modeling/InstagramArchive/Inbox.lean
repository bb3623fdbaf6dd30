import InstagramArchive.AnalysisLinkage
import InstagramArchive.Relational.Deduplication

/-!
# The inbox

The two consumers of broker deliveries as one receiver keyed by
`(consumer_name, event_id)`. A delivery carries the environment its transaction runs
in, so it may abort at any statement.
-/

namespace InstagramArchive

open Relational Relational.Tx

/-- A message of either subject. -/
inductive Message where
  | command (delivery : CommandDelivery)
  | analysis (delivery : AnalysisDelivery)

/-- One delivery of a message, with the environment its transaction runs in. -/
structure Delivery where
  env : Env
  message : Message

/-- What a consumer answers. -/
inductive Answer where
  | command (result : Except CommandCaptureError BrowserCaptureIngested)
  | analysis (result : Except AnalysisCompletionError AnalysisCompletionOutcome)

def Answer.committed : Answer → Bool
  | .command result => result.toBool
  | .analysis result => result.toBool

/-- The answer to a delivery that was handled before. -/
def Answer.isDuplicate : Answer → Bool
  | .command (.ok .duplicate) => true
  | .analysis (.ok .duplicate) => true
  | _ => false

/-- The inbox key a message claims; `none` when it does not decode. -/
def Message.key : Message → Option (Consumer × Uuid)
  | .command delivery =>
    (decodeBrowserCaptureCommand delivery).toOption.map fun c => (.browserCapture, c.commandId)
  | .analysis delivery =>
    (decodeAnalysisCompleted delivery).toOption.map fun c => (.analysis, c.eventId)

/-- Hands one delivery to its consumer. -/
def receive (lib : Externals) (db : Db) (d : Delivery) : Answer × Db :=
  match d.message with
  | .command delivery =>
    let (result, db') := (ingestBrowserCaptureCommand lib delivery).exec d.env db
    (.command result, db')
  | .analysis delivery =>
    let (result, db') := (ingestAnalysisCompleted lib delivery).exec d.env db
    (.analysis result, db')

def inboxKeys (db : Db) : List (Consumer × Uuid) := db.inboxEvents.rows.map InboxEvent.key

/-- The archive as a receiver. -/
def inbox (lib : Externals) : Receiver Db Delivery (Consumer × Uuid) where
  key d := d.message.key
  known db k := k ∈ inboxKeys db
  committed db d := (receive lib db d).1.committed
  deliver db d := (receive lib db d).2

/-! ## Inbox keys -/

variable {lib : Externals} {env : Env} {db db' : Db}

theorem lookup_inbox_isSome {k : Consumer × Uuid} :
    (db.inboxEvents.lookup k).isSome = true ↔ k ∈ inboxKeys db := by
  constructor
  · intro h
    obtain ⟨row, hrow⟩ := Option.isSome_iff_exists.mp h
    obtain ⟨hmem, rfl⟩ := Table.lookup_eq_some.mp hrow
    exact List.mem_map_of_mem hmem
  · intro h
    obtain ⟨row, hmem, rfl⟩ := List.mem_map.mp h
    rw [Table.lookup_mem hmem]
    rfl

theorem inboxKeys_setInboxOutcome (consumer : Consumer) (eventId : Uuid) (outcome : InboxOutcome)
    (db : Db) : inboxKeys (setInboxOutcome consumer eventId outcome db) = inboxKeys db :=
  Table.map_update _ _ _ _ fun _ _ => rfl

theorem inboxKeys_insert {row : InboxEvent} {t : Table InboxEvent InboxEvent.key}
    (h : db.inboxEvents.insert? row = some t) :
    inboxKeys { db with inboxEvents := t } = inboxKeys db ++ [row.key] := by
  simp [inboxKeys, (Table.insert?_eq_some h).1]

theorem Appends.inboxKeys {row : OutboxEvent} (h : Appends db row db') :
    inboxKeys db' = inboxKeys db := by
  rw [h.eq]
  rfl

theorem recordOperation_inboxKeys {command : BrowserCaptureCommand} {captureId : Uuid} {u : Unit}
    (h : (recordOperation lib command captureId).Yields env db u db') :
    inboxKeys db' = inboxKeys db := by
  rcases recordOperation_yields h with ⟨-, rfl⟩ | ⟨-, t, eventId, occurredAt, -, happ⟩
  · rfl
  · rw [happ.inboxKeys]
    rfl

theorem submitCaptureInTransaction_inboxKeys {request : CaptureRequest}
    {submission : CaptureSubmission}
    (h : (submitCaptureInTransaction request).Yields env db submission db') :
    inboxKeys db' = inboxKeys db := by
  obtain ⟨_, _, -, -, ⟨_, t, -, -, rfl, -⟩ | ⟨_, -, rfl, -⟩⟩ := submitCaptureInTransaction_yields h
  · rfl
  · rfl

theorem handleCommand_inboxKeys {command : BrowserCaptureCommand} {out : BrowserCaptureIngested}
    (h : (handleCommand lib command).Yields env db out db') : inboxKeys db' = inboxKeys db := by
  rcases handleCommand_yields h with ⟨e, -, hr⟩ | ⟨submission, m, m', -, hs, hrec, rfl⟩
  · obtain ⟨-, eventId, occurredAt, m, happ, rfl⟩ := rejectCommand_yields hr
    rw [inboxKeys_setInboxOutcome, happ.inboxKeys]
  · rw [inboxKeys_setInboxOutcome, recordOperation_inboxKeys hrec,
      submitCaptureInTransaction_inboxKeys hs]

theorem handleCommand_ne_duplicate {command : BrowserCaptureCommand} {out : BrowserCaptureIngested}
    (h : (handleCommand lib command).Yields env db out db') : out ≠ .duplicate := by
  rcases handleCommand_yields h with ⟨e, -, hr⟩ | ⟨submission, m, m', rfl, -, -, -⟩
  · rw [(rejectCommand_yields hr).1]
    simp
  · simp

/-! ## One delivery -/

/-- What one delivery can do: abort without a trace, answer a known key without a
trace, or claim a fresh key and handle it. -/
inductive Received (db : Db) (k : Consumer × Uuid) : Answer × Db → Prop
  | aborted {answer : Answer} (ha : answer.committed = false) : Received db k (answer, db)
  | duplicate {answer : Answer} (ha : answer.committed = true) (hd : answer.isDuplicate = true)
      (hk : k ∈ inboxKeys db) : Received db k (answer, db)
  | first {answer : Answer} {db' : Db} (ha : answer.committed = true)
      (hd : answer.isDuplicate = false) (hk : ¬ k ∈ inboxKeys db)
      (hkeys : inboxKeys db' = inboxKeys db ++ [k]) : Received db k (answer, db')

theorem receive_command {delivery : CommandDelivery} {command : BrowserCaptureCommand}
    (hcommand : decodeBrowserCaptureCommand delivery = .ok command) :
    Received db (.browserCapture, command.commandId)
      (receive lib db ⟨env, .command delivery⟩) := by
  unfold receive
  rcases exec_cases (ingestBrowserCaptureCommand lib delivery) env db with
    ⟨out, db', he, hy⟩ | ⟨e, he⟩
  · simp only [he]
    obtain ⟨c, hc, hcases⟩ := ingestBrowserCaptureCommand_yields hy
    rw [hcommand] at hc
    cases hc
    rcases hcases with ⟨rfl, rfl, hknown⟩ | ⟨hfresh, t, ht, hh⟩
    · exact .duplicate rfl rfl (lookup_inbox_isSome.mp hknown)
    · refine .first rfl ?_ ?_ ?_
      · have hne := handleCommand_ne_duplicate hh
        cases out with
        | duplicate => exact (hne rfl).elim
        | preserved submission => rfl
        | rejected => rfl
      · rw [← lookup_inbox_isSome, hfresh]
        simp
      · rw [handleCommand_inboxKeys hh, inboxKeys_insert ht]
        rfl
  · simp only [he]
    exact .aborted rfl

theorem receive_analysis {delivery : AnalysisDelivery} {completion : AnalysisCompletion}
    (hcompletion : decodeAnalysisCompleted delivery = .ok completion) :
    Received db (.analysis, completion.eventId) (receive lib db ⟨env, .analysis delivery⟩) := by
  unfold receive
  rcases exec_cases (ingestAnalysisCompleted lib delivery) env db with ⟨out, db', he, hy⟩ | ⟨e, he⟩
  · simp only [he]
    obtain ⟨c, hc, hcases⟩ := ingestAnalysisCompleted_yields hy
    rw [hcompletion] at hc
    cases hc
    rcases hcases with ⟨rfl, rfl, hknown⟩ | ⟨hfresh, t, ht, hh⟩
    · exact .duplicate rfl rfl (lookup_inbox_isSome.mp hknown)
    · obtain ⟨hne, outcome, links, rfl⟩ := handleCompletion_yields hh
      refine .first rfl ?_ ?_ ?_
      · cases out with
        | duplicate => exact (hne rfl).elim
        | linked => rfl
        | skipped => rfl
      · rw [← lookup_inbox_isSome, hfresh]
        simp
      · rw [inboxKeys_setInboxOutcome]
        exact inboxKeys_insert ht
  · simp only [he]
    exact .aborted rfl

/-- A message that does not decode aborts. -/
theorem receive_unreadable {d : Delivery} (h : d.message.key = none) :
    (receive lib db d).1.committed = false ∧ (receive lib db d).2 = db := by
  obtain ⟨env, message⟩ := d
  cases message with
  | command delivery =>
    unfold receive
    rcases exec_cases (ingestBrowserCaptureCommand lib delivery) env db with
      ⟨out, db', he, hy⟩ | ⟨e, he⟩
    · obtain ⟨c, hc, -⟩ := ingestBrowserCaptureCommand_yields hy
      simp [Message.key, hc, Except.toOption] at h
    · simp only [he]
      exact ⟨rfl, trivial⟩
  | analysis delivery =>
    unfold receive
    rcases exec_cases (ingestAnalysisCompleted lib delivery) env db with
      ⟨out, db', he, hy⟩ | ⟨e, he⟩
    · obtain ⟨c, hc, -⟩ := ingestAnalysisCompleted_yields hy
      simp [Message.key, hc, Except.toOption] at h
    · simp only [he]
      exact ⟨rfl, trivial⟩

/-- What one delivery with key `k` can do. -/
theorem receive_cases (lib : Externals) (db : Db) {d : Delivery} {k : Consumer × Uuid} (h : d.message.key = some k) :
    Received db k (receive lib db d) := by
  obtain ⟨env, message⟩ := d
  cases message with
  | command delivery =>
    cases hc : decodeBrowserCaptureCommand delivery with
    | error e => simp [Message.key, hc, Except.toOption] at h
    | ok command =>
      have hk : k = (.browserCapture, command.commandId) := by
        simpa [Message.key, hc, Except.toOption, eq_comm] using h
      rw [hk]
      exact receive_command hc
  | analysis delivery =>
    cases hc : decodeAnalysisCompleted delivery with
    | error e => simp [Message.key, hc, Except.toOption] at h
    | ok completion =>
      have hk : k = (.analysis, completion.eventId) := by
        simpa [Message.key, hc, Except.toOption, eq_comm] using h
      rw [hk]
      exact receive_analysis hc

theorem inbox_idempotent (lib : Externals) : (inbox lib).Idempotent where
  aborted s d hc := by
    cases hk : d.message.key with
    | none => exact (receive_unreadable hk).2
    | some k =>
      have hr := receive_cases lib s hk
      change (receive lib s d).1.committed = false at hc
      change (receive lib s d).2 = s
      revert hc
      generalize receive lib s d = r at hr
      intro hc
      cases hr with
      | aborted ha => rfl
      | duplicate ha hd hk => rfl
      | first ha hd hk hkeys => rw [ha] at hc; cases hc
  keyed s d hc := by
    cases hk : d.message.key with
    | none =>
      rw [show (inbox lib).committed s d = false from (receive_unreadable hk).1] at hc
      cases hc
    | some k => exact ⟨k, hk⟩
  absorbs s d k hk hknown := by
    have hr := receive_cases lib s hk
    change (receive lib s d).2 = s
    generalize receive lib s d = r at hr
    cases hr with
    | aborted ha => rfl
    | duplicate ha hd hk => rfl
    | first ha hd hfresh hkeys => exact (hfresh hknown).elim
  learns s d k hc hk := by
    have hr := receive_cases lib s hk
    change (receive lib s d).1.committed = true at hc
    change k ∈ inboxKeys (receive lib s d).2
    revert hc
    generalize receive lib s d = r at hr
    intro hc
    cases hr with
    | aborted ha => rw [ha] at hc; cases hc
    | duplicate ha hd hknown => exact hknown
    | first ha hd hfresh hkeys => rw [hkeys]; simp
  keeps s d k hknown := by
    change k ∈ inboxKeys (receive lib s d).2
    cases hk : d.message.key with
    | none => rw [(receive_unreadable hk).2]; exact hknown
    | some k' =>
      have hr := receive_cases lib s hk
      generalize receive lib s d = r at hr
      cases hr with
      | aborted ha => exact hknown
      | duplicate ha hd hk => exact hknown
      | first ha hd hfresh hkeys =>
        rw [hkeys]
        exact List.mem_append_left _ hknown
  adds s d k hknown := by
    change k ∈ inboxKeys (receive lib s d).2 at hknown
    change k ∈ inboxKeys s ∨ ((receive lib s d).1.committed = true ∧ d.message.key = some k)
    cases hk : d.message.key with
    | none =>
      rw [(receive_unreadable hk).2] at hknown
      exact Or.inl hknown
    | some k' =>
      have hr := receive_cases lib s hk
      generalize receive lib s d = r at hr hknown ⊢
      cases hr with
      | aborted ha => exact Or.inl hknown
      | duplicate ha hd hk => exact Or.inl hknown
      | first ha hd hfresh hkeys =>
        rw [hkeys] at hknown
        rcases List.mem_append.mp hknown with hs | hnew
        · exact Or.inl hs
        · rw [List.mem_singleton.mp hnew]
          exact Or.inr ⟨ha, rfl⟩

/-! ## Whole sequences of deliveries -/

/-- Hands deliveries to their consumers one after another. -/
def process (lib : Externals) (db : Db) (deliveries : List Delivery) : Db :=
  run (inbox lib).deliver db deliveries

/-- A committed answer is `Duplicate` exactly when its key was known. -/
theorem isDuplicate_iff {d : Delivery} {k : Consumer × Uuid} (hk : d.message.key = some k)
    (hc : (receive lib db d).1.committed = true) :
    (receive lib db d).1.isDuplicate = true ↔ k ∈ inboxKeys db := by
  have hr := receive_cases lib db hk
  generalize receive lib db d = r at hr hc ⊢
  cases hr with
  | aborted ha => rw [ha] at hc; cases hc
  | duplicate ha hd hknown => simp [hd, hknown]
  | first ha hd hfresh hkeys => simp [hd, hfresh]

/-- **Inbox idempotence.** A sequence of deliveries ends in the database that the first
committed delivery of each key alone leads to. On the way an aborted delivery changes
nothing, and a committed one answers `Duplicate` exactly when its key was in the inbox
at the start or an earlier delivery of it committed. -/
theorem process_firstCommitted (lib : Externals) (db : Db) (deliveries : List Delivery) :
    process lib db deliveries =
        process lib db ((inbox lib).firstCommitted [] db deliveries) ∧
      ∀ before d after, deliveries = before ++ d :: after →
        ((receive lib (process lib db before) d).1.committed = false →
          (receive lib (process lib db before) d).2 = process lib db before) ∧
        (∀ k, d.message.key = some k →
          (receive lib (process lib db before) d).1.committed = true →
          ((receive lib (process lib db before) d).1.isDuplicate = true ↔
            k ∈ inboxKeys db ∨ k ∈ (inbox lib).committedKeys db before)) := by
  have h := inbox_idempotent lib
  refine ⟨(h.run_firstCommitted deliveries (by simp)).symm, ?_⟩
  intro before d after _
  refine ⟨h.aborted _ d, ?_⟩
  intro k hk hc
  rw [isDuplicate_iff hk hc]
  exact h.known_run_iff

end InstagramArchive

import InstagramArchive.Reporting

/-!
# Reopened captures

A new command makes its capture due again, also one that was concluded as unavailable.
The resolver claims a capture only while it carries an unreported operation, so a
reopened capture waits for nothing when the command brings no operation of its own.
-/

namespace InstagramArchive

open Relational Relational.Tx Permalink

/-- The capture carries an unreported operation. -/
def HasPending (captureId : Uuid) (db : Db) : Prop :=
  ∃ o ∈ db.captureOperations, o.captureId = captureId ∧ o.reportedAt = none

/-- Every pass that begins once the capture is due, finds no row locked and has room for
every capture selects it. -/
def SelectedWhenDue (c : Capture) (db : Db) : Prop :=
  ∃ due, c.nextResolutionAt = some due ∧ ∀ now, due ≤ now →
    ∀ batchSize, db.captures.rows.length ≤ batchSize → c ∈ claimBatch now batchSize [] db

/-- The command, delivered for the first time, lands on the capture. -/
structure BrowserCaptureCommand.LandsOn (command : BrowserCaptureCommand) (db : Db)
    (c : Capture) : Prop where
  fresh : (db.inboxEvents.lookup (.browserCapture, command.commandId)).isSome = false
  owner : c.userRef = command.userRef
  permalink : ∃ permalink, canonicalize command.originalPermalink = .ok permalink ∧
    c.canonicalUrl = permalink.url

/-- The command brings the capture a new operation, or the capture has an open one. -/
def BrowserCaptureCommand.KeepsPending (command : BrowserCaptureCommand) (db : Db)
    (c : Capture) : Prop :=
  operationKnown command.operationId command.commandId db = false ∨ HasPending c.captureId db

/-- A command that lands on an unavailable capture keeps it pending. -/
def Action.KeepsPending (db : Db) : Action → Prop
  | .command _ delivery => ∀ command, decodeBrowserCaptureCommand delivery = .ok command →
      ∀ c ∈ db.captures, c.status = .unavailable → command.LandsOn db c → command.KeepsPending db c
  | _ => True

/-- A transaction moved `c` from `unavailable` to `accepted`, as `c'`. -/
structure Reopened (db db' : Db) (c c' : Capture) : Prop where
  before : c ∈ db.captures
  unavailable : c.status = .unavailable
  after : c' ∈ db'.captures
  captureId : c'.captureId = c.captureId
  accepted : c'.status = .accepted

section Steps

variable {lib : Externals} {env : Env} {db db' : Db} {c c' : Capture}

theorem Reopened.not_same (h : Reopened db db' c c') (hsame : db'.captures = db.captures) :
    False := by
  have hc' : c' ∈ db.captures := hsame ▸ h.after
  have heq : c' = c := Table.eq_of_key_eq hc' h.before h.captureId
  have hst := h.accepted
  rw [heq, h.unavailable] at hst
  cases hst

/-- A reopening rewrites the one capture it names. -/
theorem Reopened.by_reopenCapture {m : Db} {captureId : Uuid} {now : Instant}
    (h : Reopened m (reopenCapture captureId now m) c c') :
    c.captureId = captureId ∧ c' = reopened now c := by
  obtain ⟨r, hr, hc'⟩ := Table.exists_of_mem_update h.after
  have hkey : r.captureId = c.captureId := by
    rw [← h.captureId, hc']
    split <;> rfl
  have hrc : r = c := Table.eq_of_key_eq hr h.before hkey
  subst hrc
  split at hc'
  · rename_i hp
    simp only [Bool.and_eq_true, decide_eq_true_eq] at hp
    exact ⟨hp.1, hc'⟩
  · have hst := h.accepted
    rw [hc', h.unavailable] at hst
    cases hst

/-- What a reopening command leaves: it lands on the capture, the capture is due now, and
the operations are the old ones or one more for this capture. -/
theorem Reopened.of_command {delivery : CommandDelivery} {out : BrowserCaptureIngested}
    (h : (ingestBrowserCaptureCommand lib delivery).Yields env db out db')
    (hr : Reopened db db' c c') :
    ∃ command, decodeBrowserCaptureCommand delivery = .ok command ∧ command.LandsOn db c ∧
      c' = reopened env.now c ∧
      ((operationKnown command.operationId command.commandId db = true ∧
          db'.captureOperations = db.captureOperations) ∨
        (operationKnown command.operationId command.commandId db = false ∧
          db'.captureOperations.rows =
            db.captureOperations.rows ++ [operationRow command c.captureId env.now])) := by
  obtain ⟨command, hcommand, ⟨-, rfl, -⟩ | ⟨hfresh, t, -, hh⟩⟩ :=
    ingestBrowserCaptureCommand_yields h
  · exact (hr.not_same rfl).elim
  refine ⟨command, hcommand, ?_⟩
  rcases handleCommand_yields hh with ⟨e, -, hrej⟩ | ⟨submission, m, m', -, hs, hrec, rfl⟩
  · obtain ⟨-, eventId, occurredAt, m, happ, rfl⟩ := rejectCommand_yields hrej
    refine (hr.not_same ?_).elim
    change m.captures = db.captures
    rw [happ.eq]
  obtain ⟨permalink, method, hp, -, ⟨captureId, u, -, hu, rfl, rfl⟩ | ⟨x, hx, rfl, rfl⟩⟩ :=
    submitCaptureInTransaction_yields hs
  · -- a created capture has an identifier of its own, so `c` is not the one reopened
    have hcaps : m'.captures = (reopenCapture captureId env.now { db with captures := u }).captures := by
      rcases recordOperation_yields hrec with ⟨-, rfl⟩ | ⟨-, _, _, _, -, happ⟩
      · rfl
      · rw [happ.eq]
        rfl
    have hmem : c ∈ u := (Table.mem_of_insert? hu c).mpr (Or.inl hr.before)
    have hr' : Reopened { db with captures := u }
        (reopenCapture captureId env.now { db with captures := u }) c c' :=
      ⟨hmem, hr.unavailable, hcaps ▸ hr.after, hr.captureId, hr.accepted⟩
    exact ((Table.insert?_eq_some hu).2 c hr.before hr'.by_reopenCapture.1).elim
  · have hcaps : m'.captures = (reopenCapture x.captureId env.now db).captures := by
      rcases recordOperation_yields hrec with ⟨-, rfl⟩ | ⟨-, _, _, _, -, happ⟩
      · rfl
      · rw [happ.eq]
        rfl
    have hr' : Reopened db (reopenCapture x.captureId env.now db) c c' :=
      ⟨hr.before, hr.unavailable, hcaps ▸ hr.after, hr.captureId, hr.accepted⟩
    obtain ⟨hid, hc'⟩ := hr'.by_reopenCapture
    obtain ⟨hxmem, howner, hurl⟩ := findCapture_eq_some hx
    have hxc : x = c := Table.eq_of_key_eq hxmem hr.before hid.symm
    subst hxc
    refine ⟨⟨hfresh, howner, permalink, hp, hurl⟩, hc', ?_⟩
    rcases recordOperation_yields hrec with ⟨hknown, rfl⟩ | ⟨hnew, ops, _, _, hops, happ⟩
    · exact Or.inl ⟨hknown, rfl⟩
    · refine Or.inr ⟨hnew, ?_⟩
      change m'.captureOperations.rows = _
      rw [happ.eq]
      exact (Table.insert?_eq_some hops).1

/-- **A reopened capture is pending exactly when its command keeps it pending.** -/
theorem Reopened.hasPending_iff {delivery : CommandDelivery} {out : BrowserCaptureIngested}
    (h : (ingestBrowserCaptureCommand lib delivery).Yields env db out db')
    (hr : Reopened db db' c c') :
    ∃ command, decodeBrowserCaptureCommand delivery = .ok command ∧ command.LandsOn db c ∧
      (HasPending c.captureId db' ↔ command.KeepsPending db c) := by
  obtain ⟨command, hcommand, hlands, -, ⟨hknown, hops⟩ | ⟨hnew, hops⟩⟩ := hr.of_command h
  · refine ⟨command, hcommand, hlands, ?_⟩
    unfold BrowserCaptureCommand.KeepsPending HasPending
    rw [hops, hknown]
    simp
  · refine ⟨command, hcommand, hlands, ?_⟩
    constructor
    · intro _
      exact Or.inl hnew
    · intro _
      refine ⟨operationRow command c.captureId env.now, ?_, rfl, rfl⟩
      rw [Table.mem_rows, hops]
      simp

theorem mem_claimBatch {now : Instant} {batchSize : Nat} (hc : c ∈ db.captures)
    (hclaim : claimable now db c = true) (hsize : db.captures.rows.length ≤ batchSize) :
    c ∈ claimBatch now batchSize [] db := by
  unfold claimBatch
  have hlen : ((db.captures.rows.filter fun x => claimable now db x &&
      !List.contains [] x.captureId).insertionSort fun a b => claimBefore a b).length ≤ batchSize := by
    rw [List.length_insertionSort]
    exact (List.length_filter_le _ _).trans hsize
  rw [List.take_of_length_le hlen, List.mem_insertionSort]
  simp [hclaim, Table.mem_rows.mp hc]

/-- A pending capture that a command made due is selected. -/
theorem HasPending.selectedWhenDue {now : Instant} (hp : HasPending c.captureId db)
    (hc : reopened now c ∈ db.captures) (hu : c.status = .unavailable) :
    SelectedWhenDue (reopened now c) db := by
  refine ⟨now, by simp [reopened, hu], ?_⟩
  intro later hle batchSize hsize
  apply mem_claimBatch hc _ hsize
  obtain ⟨o, ho, hcap, hnone⟩ := hp
  have hany : (db.captureOperations.rows.any fun o =>
      o.captureId = (reopened now c).captureId && o.reportedAt.isNone) = true := by
    apply List.any_eq_true.mpr
    exact ⟨o, ho, by simp [reopened, hcap, hnone]⟩
  unfold claimable
  rw [hany]
  simpa [reopened, hu] using hle

end Steps

/-! ## Whole runs -/

theorem Call.command_yields {lib : Externals} {env : Env} {db : Db} {delivery : CommandDelivery} :
    (Call.command delivery).perform lib env db = db ∨
      ∃ out, (ingestBrowserCaptureCommand lib delivery).Yields env db out
        ((Call.command delivery).perform lib env db) := by
  exact exec_rel (fun _ t => t = db ∨ ∃ out, (ingestBrowserCaptureCommand lib delivery).Yields env db
    out t) _ env db (Or.inl rfl) fun out _ h => Or.inr ⟨out, h⟩

/-- **No capture is stranded by a command that keeps it pending.** In a run whose
commands keep the captures they land on pending, every reopened capture has an
unreported operation and is selected by every pass once it is due. In any run, a
reopened capture has one exactly when its command met that condition. -/
theorem reopened_pending (lib : Externals) (actions : List Action) :
    (Guarded (step lib) (fun s a => a.KeepsPending s.db) {} actions →
      ∀ before env delivery after, actions = before ++ .command env delivery :: after →
        let s := run (step lib) {} before
        let s' := step lib s (.command env delivery)
        ∀ c c', Reopened s.db s'.db c c' →
          HasPending c.captureId s'.db ∧ SelectedWhenDue c' s'.db) ∧
    ∀ before env delivery after, actions = before ++ .command env delivery :: after →
      let s := run (step lib) {} before
      let s' := step lib s (.command env delivery)
      ∀ c c', Reopened s.db s'.db c c' →
        ∃ command, decodeBrowserCaptureCommand delivery = .ok command ∧
          (HasPending c.captureId s'.db ↔ command.KeepsPending s.db c) := by
  refine ⟨?_, ?_⟩
  · rintro hg before env delivery after rfl s s' c c' hr
    have hcond : (Action.command env delivery).KeepsPending s.db :=
      ((guarded_append ..).mp hg).2.1
    rcases Call.command_yields with hsame | ⟨out, h⟩
    · exact (hr.not_same (congrArg Db.captures hsame)).elim
    obtain ⟨command, hcommand, hlands, hiff⟩ := hr.hasPending_iff h
    have hpending := hiff.mpr (hcond command hcommand c hr.before hr.unavailable hlands)
    obtain ⟨-, -, -, rfl, -⟩ := hr.of_command h
    exact ⟨hpending, hpending.selectedWhenDue hr.after hr.unavailable⟩
  · rintro before env delivery after - s s' c c' hr
    rcases Call.command_yields with hsame | ⟨out, h⟩
    · exact (hr.not_same (congrArg Db.captures hsame)).elim
    obtain ⟨command, hcommand, -, hiff⟩ := hr.hasPending_iff h
    exact ⟨command, hcommand, hiff⟩

/-- A command whose capture is concluded as unavailable and reported. -/
def unavailableRun : List Action :=
  [.command (quietEnv 10 100) (browserDelivery 1 2 7 "http://instagr.am/p/A"),
    .claim (quietEnv 20 200) 20 ⟨3, 10⟩ [],
    .resolve (quietEnv 30 300) 0 .priv,
    .report (quietEnv 40 400) 0]

/-- The capture of `unavailableRun`. -/
def unavailableCapture : Capture :=
  { newCapture ⟨1, "http://instagr.am/p/A", 5, .browserExtension, none, some "key"⟩
      ⟨"https://www.instagram.com/p/A/", .post, "A"⟩ .browserExtension 101 10 with
    status := .unavailable
    nextResolutionAt := some (20 + LEASE) }

theorem browserDelivery_keepsPending {owner commandId operationId : Uuid} {url : String} {db : Db}
    {env : Env} (h : operationKnown operationId commandId db = false) :
    (Action.command env (browserDelivery owner commandId operationId url)).KeepsPending db := by
  intro command hcommand c _ _ _
  cases hcommand
  exact Or.inl h

/-- A new command for the same permalink, with an operation of its own. -/
def renewed : Action :=
  .command (quietEnv 50 500) (browserDelivery 1 3 8 "http://instagr.am/p/A")

theorem unavailableCapture_reopened :
    Reopened (run (step reference) {} unavailableRun).db
      (step reference (run (step reference) {} unavailableRun) renewed).db
      unavailableCapture (reopened 50 unavailableCapture) := by
  refine ⟨?_, rfl, ?_, rfl, rfl⟩
  · rw [Table.mem_rows]
    decide +kernel
  · rw [Table.mem_rows]
    decide +kernel

theorem reopened_pending_renewed :
    HasPending unavailableCapture.captureId
      (step reference (run (step reference) {} unavailableRun) renewed).db := by
  refine ((reopened_pending reference (unavailableRun ++ [renewed])).1 ?_ unavailableRun _ _ []
    rfl _ _ unavailableCapture_reopened).1
  refine (guarded_append ..).mpr ⟨⟨?_, trivial, trivial, trivial, trivial⟩, ?_, trivial⟩
  · exact browserDelivery_keepsPending (by decide +kernel)
  · exact browserDelivery_keepsPending (by decide +kernel)

/-- The re-issued command: a fresh command id, the operation id already reported. -/
def reissued : Action :=
  .command (quietEnv 50 500) (browserDelivery 1 3 7 "http://instagr.am/p/A")

theorem reissued_strands :
    let s := run (step reference) {} unavailableRun
    let s' := step reference s reissued
    Reopened s.db s'.db unavailableCapture (reopened 50 unavailableCapture) ∧
      ¬ HasPending unavailableCapture.captureId s'.db := by
  refine ⟨⟨?_, rfl, ?_, rfl, rfl⟩, ?_⟩
  · rw [Table.mem_rows]
    decide +kernel
  · rw [Table.mem_rows]
    decide +kernel
  · rintro ⟨o, ho, -, hnone⟩
    have hall : ∀ o ∈ (step reference (run (step reference) {} unavailableRun)
        reissued).db.captureOperations.rows, o.reportedAt ≠ none := by
      decide +kernel
    exact hall o ho hnone

end InstagramArchive

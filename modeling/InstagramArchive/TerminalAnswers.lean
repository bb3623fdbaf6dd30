import InstagramArchive.Reporting

/-!
# One terminal answer per operation

A command is answered on two paths: the report of its concluded capture, guarded by its
`capture_operations` row, and the rejection of an unmappable permalink, which records no
operation. The answers stay unique as long as the rejections name operations of their
own.
-/

namespace InstagramArchive

open Relational Relational.Tx Permalink

/-- No operation is answered twice, and no open operation is answered already. -/
structure AnsweredOnce (db : Db) : Prop where
  nodup : (terminalOperations db).Nodup
  unanswered : ∀ o ∈ db.captureOperations, o.reportedAt = none →
    ¬ o.operationId ∈ terminalOperations db

/-- The command answers no operation that was answered or is still to be answered: one
with an unmappable permalink names an operation without a row and without a terminal
report, one with a mappable permalink names a recorded operation or one without a
terminal report. -/
def BrowserCaptureCommand.AnswersOnce (command : BrowserCaptureCommand) (db : Db) : Prop :=
  match canonicalize command.originalPermalink with
  | .error _ => ¬ command.operationId ∈ terminalOperations db ∧
      ∀ o ∈ db.captureOperations, o.operationId ≠ command.operationId
  | .ok _ => operationKnown command.operationId command.commandId db = true ∨
      ¬ command.operationId ∈ terminalOperations db

/-- Nothing is deleted, and a command delivered for the first time answers once. -/
def Action.AnswersOnce (db : Db) : Action → Prop
  | .command _ delivery => ∀ command, decodeBrowserCaptureCommand delivery = .ok command →
      (db.inboxEvents.lookup (.browserCapture, command.commandId)).isSome = false →
      command.AnswersOnce db
  | .delete .. => False
  | _ => True

section Answers

variable {lib : Externals} {env : Env} {db db' : Db}

theorem AnsweredOnce.same (h : AnsweredOnce db) (hs : SameReports db db') : AnsweredOnce db' := by
  refine ⟨?_, ?_⟩
  · rw [hs.terminalOperations]
    exact h.nodup
  · rw [hs.terminalOperations, hs.operations]
    exact h.unanswered

theorem AnsweredOnce.rejected {command : BrowserCaptureCommand} (h : AnsweredOnce db)
    (hnew : ¬ command.operationId ∈ terminalOperations db)
    (hrow : ∀ o ∈ db.captureOperations, o.operationId ≠ command.operationId)
    (hops : db'.captureOperations = db.captureOperations)
    (hreports : reports db' = reports db ++ [⟨command.operationId, .unavailable .inaccessible⟩]) :
    AnsweredOnce db' := by
  have ht : terminalOperations db' = terminalOperations db ++ [command.operationId] :=
    terminalOperations_append hreports
  refine ⟨?_, ?_⟩
  · rw [ht]
    exact List.nodup_append.mpr ⟨h.nodup, List.nodup_singleton _, by simp; grind⟩
  · intro o ho hnone
    rw [hops] at ho
    rw [ht, List.mem_append, List.mem_singleton]
    rintro (hin | heq)
    · exact h.unanswered o ho hnone hin
    · exact hrow o ho heq

theorem AnsweredOnce.queued {command : BrowserCaptureCommand} {captureId : Uuid}
    {createdAt : Instant} (h : AnsweredOnce db)
    (hnew : ¬ command.operationId ∈ terminalOperations db)
    (hops : db'.captureOperations.rows =
      db.captureOperations.rows ++ [operationRow command captureId createdAt])
    (hreports : reports db' = reports db ++ [⟨command.operationId, .queued⟩]) :
    AnsweredOnce db' := by
  have ht : terminalOperations db' = terminalOperations db := by
    rw [terminalOperations_append hreports]
    simp [ReportBody.isTerminal]
  refine ⟨?_, ?_⟩
  · rw [ht]
    exact h.nodup
  · intro o ho hnone
    rw [ht]
    rw [Table.mem_rows, hops] at ho
    rcases List.mem_append.mp ho with ho | ho
    · exact h.unanswered o ho hnone
    · rw [List.mem_singleton.mp ho]
      exact hnew

theorem AnsweredOnce.command {command : BrowserCaptureCommand} (h : AnsweredOnce db)
    (hc : CommandReports command db db')
    (hguard : (db.inboxEvents.lookup (.browserCapture, command.commandId)).isSome = false →
      command.AnswersOnce db) : AnsweredOnce db' := by
  cases hc with
  | same hs => exact h.same hs
  | rejected e he hfresh hops hreports =>
    have hg := hguard hfresh
    simp only [BrowserCaptureCommand.AnswersOnce, he] at hg
    exact h.rejected hg.1 hg.2 hops hreports
  | queued captureId createdAt permalink hp hfresh hnew hops hreports =>
    have hg := hguard hfresh
    simp only [BrowserCaptureCommand.AnswersOnce, hp, hnew, Bool.false_eq_true, false_or] at hg
    exact h.queued hg hops hreports

theorem AnsweredOnce.pending {captureId : Uuid} {now : Instant} (h : AnsweredOnce db)
    (hp : PendingReports lib captureId now db db') : AnsweredOnce db' := by
  cases hp with
  | accepted he => exact he ▸ h
  | concluded c conclusion hc hid hconclusion hframe hreports =>
    have hops : db'.captureOperations = (markReported captureId now db).captureOperations := by
      rw [hframe]
    have ht := terminalOperations_append hreports
    rw [conclusionReports_terminal] at ht
    have hpending : ∀ id ∈ (pendingOperations captureId db).map CaptureOperation.operationId,
        ∃ o ∈ db.captureOperations, o.operationId = id ∧ o.captureId = captureId ∧
          o.reportedAt = none := by
      intro id hin
      obtain ⟨o, ho, rfl⟩ := List.mem_map.mp hin
      simp only [pendingOperations, List.mem_filter, Bool.and_eq_true, decide_eq_true_eq,
        Option.isNone_iff_eq_none] at ho
      exact ⟨o, ho.1, rfl, ho.2⟩
    refine ⟨?_, ?_⟩
    · rw [ht]
      refine List.nodup_append.mpr ⟨h.nodup, ?_, ?_⟩
      · exact db.captureOperations.nodup.sublist (List.filter_sublist.map _)
      · intro id hin id' hin' heq
        obtain ⟨o, ho, rfl, -, hnone⟩ := hpending id' hin'
        exact h.unanswered o ho hnone (heq ▸ hin)
    · intro o ho hnone
      rw [hops] at ho
      obtain ⟨o', ho', rfl⟩ := Table.exists_of_mem_update ho
      -- a row the report did not flip belongs to another capture
      split at hnone
      · cases hnone
      · rename_i hkept
        rw [if_neg hkept, ht, List.mem_append]
        rintro (hin | hin)
        · exact h.unanswered o' ho' hnone hin
        · obtain ⟨o'', ho'', heq, hcap, -⟩ := hpending _ hin
          have hoo : o'' = o' := Table.eq_of_key_eq ho'' ho' heq
          subst hoo
          simp [hcap, hnone] at hkept

end Answers

/-! ## Whole runs -/

theorem AnsweredOnce.step {lib : Externals} {s : System} {a : Action} (h : AnsweredOnce s.db)
    (ha : a.AnswersOnce s.db) : AnsweredOnce (step lib s a).db := by
  rcases step_effect lib s a with ⟨-, he⟩ | ⟨env, call, hcall, he⟩
  · rw [he]
    exact h
  · refine he.reportRule AnsweredOnce (fun _ _ hs h => h.same hs)
      (fun _ _ _ _ hp h => h.pending hp) ?_ ?_ h
    · rintro delivery command rfl hdecoded hr
      obtain rfl := System.call_command hcall
      exact h.command hr (ha command hdecoded)
    · rintro request rfl
      obtain rfl := System.call_delete hcall
      exact ha

/-- **One terminal answer per operation.** In every run whose commands answer once, no
operation ever holds two terminal reports. -/
theorem terminal_reports_unique (lib : Externals) (actions : List Action)
    (hg : Guarded (step lib) (fun s a => a.AnswersOnce s.db) {} actions) (operationId : Uuid) :
    (terminalOperations (run (step lib) {} actions).db).count operationId ≤ 1 := by
  have h : AnsweredOnce (run (step lib) {} actions).db :=
    run_invariant (step lib) _ (fun s => AnsweredOnce s.db) (fun _ _ ha h => h.step ha) hg
      ⟨List.nodup_nil, fun o ho => (Table.not_mem_empty o ho).elim⟩
  exact List.nodup_iff_count_le_one.mp h.nodup operationId

theorem browserDelivery_answersOnce {owner commandId operationId : Uuid} {url : String} {db : Db}
    {env : Env} (hterminal : ¬ operationId ∈ terminalOperations db)
    (hrow : ∀ o ∈ db.captureOperations.rows, o.operationId ≠ operationId) :
    (Action.command env (browserDelivery owner commandId operationId url)).AnswersOnce db := by
  intro command hcommand _
  cases hcommand
  unfold BrowserCaptureCommand.AnswersOnce
  split
  · exact ⟨hterminal, hrow⟩
  · exact Or.inr hterminal

/-- A preserved operation and a rejected one. -/
def answeredRun : List Action :=
  preservedRun ++ [.command (quietEnv 50 500) (browserDelivery 1 3 8 "http://instagr.am/x")]

theorem terminal_reports_unique_answeredRun :
    terminalOperations (run (step reference) {} answeredRun).db = [7, 8] ∧
      (terminalOperations (run (step reference) {} answeredRun).db).count 8 ≤ 1 := by
  refine ⟨by decide +kernel, terminal_reports_unique reference answeredRun ?_ 8⟩
  refine (guarded_append ..).mpr ⟨⟨?_, trivial, trivial, trivial, trivial⟩, ?_, trivial⟩
  · exact browserDelivery_answersOnce (by decide +kernel) (by decide +kernel)
  · exact browserDelivery_answersOnce (by decide +kernel) (by decide +kernel)

/-- One operation issued twice with an unmappable permalink, under two command ids. -/
def rejectedTwice : List Action :=
  [.command (quietEnv 10 100) (browserDelivery 1 2 7 "http://instagr.am/x"),
    .command (quietEnv 20 200) (browserDelivery 1 3 7 "http://instagr.am/x")]

theorem rejectedTwice_repeats :
    ¬ (terminalOperations (run (step reference) {} rejectedTwice).db).count 7 ≤ 1 := by
  decide +kernel

end InstagramArchive

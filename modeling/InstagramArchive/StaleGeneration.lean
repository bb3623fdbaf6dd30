import InstagramArchive.Accounts
import InstagramArchive.OwnMediaAuthority

/-!
# A changed capability generation

A refresh replaces the capability generation of an account. A run that was opened under the
generation before is refused by every later pass, which leaves it as it is: the run keeps the
account's one active slot, so no other run opens and none is closed. The no-op path and the
completion close such a run with `capabilityChanged`; the resumption does not.
-/

namespace InstagramArchive

open Relational Relational.Tx

/-- The account may read its media under another generation than its active run's. -/
structure StaleRun (accountId : Uuid) (active : SyncRun) (read : CapabilityRead) (db : Db) :
    Prop where
  reads : readCapability accountId db = some read
  eligible : read.eligible = true
  holds : activeRun accountId db = some active
  stale : active.capabilityGenerationId ≠ read.generationId

instance (accountId : Uuid) (active : SyncRun) (read : CapabilityRead) (db : Db) :
    Decidable (StaleRun accountId active read db) :=
  decidable_of_iff
    (readCapability accountId db = some read ∧ read.eligible = true ∧
      activeRun accountId db = some active ∧ active.capabilityGenerationId ≠ read.generationId)
    ⟨fun ⟨h1, h2, h3, h4⟩ => ⟨h1, h2, h3, h4⟩, fun h => ⟨h.reads, h.eligible, h.holds, h.stale⟩⟩

/-- One pass with everything it takes from outside. -/
structure Pass where
  keys : CredentialKeyring
  config : OwnMediaSyncConfig
  now : Instant
  turns : Nat → Env × (OwnMediaRequest → OwnMediaAnswer)

/-- A pass to its end: its result, the database and the events it leaves. -/
def Pass.perform (lib : Externals) (accountId : Uuid) (pass : Pass) (db : Db) :
    Except OwnMediaSyncError OwnMediaSyncOutcome × Db × List SyncEvent :=
  (runAccountOnce lib pass.keys pass.config accountId pass.now).run pass.turns 0 db

/-- The database after passes, one after the other. -/
def afterPasses (lib : Externals) (accountId : Uuid) (passes : List Pass) (db : Db) : Db :=
  passes.foldl (fun db pass => (pass.perform lib accountId db).2.1) db

/-- The pass resumes or closes the run, or opens one under the current generation. -/
def Unwedges (accountId : Uuid) (active : SyncRun) (read : CapabilityRead)
    (events : List SyncEvent) : Prop :=
  SyncEvent.resumed active.runId ∈ events ∨ SyncEvent.closed active.runId ∈ events ∨
    ∃ runId, SyncEvent.opened accountId runId read.generationId ∈ events

section Wedged

variable {accountId : Uuid} {active : SyncRun} {read : CapabilityRead} {db : Db}

/-- **A pass over a stale run fails and changes nothing**, whatever the provider would
answer. -/
theorem StaleRun.perform (lib : Externals) (h : StaleRun accountId active read db) (pass : Pass) :
    ∃ e, pass.perform lib accountId db = (.error e, db, []) := by
  unfold Pass.perform runAccountOnce
  rw [Script.run_read]
  split
  · exact ⟨_, rfl⟩
  rw [h.reads]
  change ∃ e, (if read.eligible then _ else _ : SyncScript OwnMediaSyncOutcome).run _ _ _ = _
  rw [if_pos h.eligible]
  unfold runEligible
  rw [Script.run_read]
  split
  · exact ⟨_, rfl⟩
  cases readCredential accountId read.userRef db with
  | none => exact ⟨.unavailable, rfl⟩
  | some found =>
    obtain ⟨provider, envelope⟩ := found
    dsimp only
    cases pass.keys.openAccess accountId envelope with
    | none => exact ⟨.crypto, rfl⟩
    | some token =>
      change ∃ e, Script.run _ (Script.tx (Tx.query (activeRun accountId)) >>= _) _ _ = _
      rw [Script.run_read]
      split
      · exact ⟨_, rfl⟩
      rw [h.holds]
      change ∃ e, (resumeActive _ _ _ _ _ active).run _ _ _ = _
      unfold resumeActive
      rw [if_pos h.stale]
      exact ⟨.unavailable, rfl⟩

theorem StaleRun.afterPasses (lib : Externals) (h : StaleRun accountId active read db)
    (passes : List Pass) : afterPasses lib accountId passes db = db := by
  induction passes with
  | nil => rfl
  | cons pass rest ih =>
    obtain ⟨e, he⟩ := h.perform lib pass
    change InstagramArchive.afterPasses lib accountId rest (pass.perform lib accountId db).2.1 = db
    rw [he]
    exact ih

/-- **A stale run is never let go**: after any passes the next one fails, resumes nothing,
closes nothing, opens nothing and leaves the database as it found it. -/
theorem stale_generation_wedges (lib : Externals) {accountId : Uuid} {active : SyncRun}
    {read : CapabilityRead} {db : Db} (h : StaleRun accountId active read db)
    (passes : List Pass) (pass : Pass) :
    StaleRun accountId active read (InstagramArchive.afterPasses lib accountId passes db) ∧
      (∃ e, (pass.perform lib accountId
        (InstagramArchive.afterPasses lib accountId passes db)).1 = .error e) ∧
      (pass.perform lib accountId (InstagramArchive.afterPasses lib accountId passes db)).2.1 =
        db ∧
      ¬ Unwedges accountId active read
        (pass.perform lib accountId (InstagramArchive.afterPasses lib accountId passes db)).2.2 := by
  rw [h.afterPasses lib passes]
  obtain ⟨e, he⟩ := h.perform lib pass
  rw [he]
  refine ⟨h, ⟨e, rfl⟩, rfl, ?_⟩
  simp [Unwedges]

end Wedged

/-! ### A refresh in the middle of a traversal -/

def basicGranted : PermissionStatuses := ⟨[(basicPermission, .granted)], by decide⟩

def businessAccount : ProviderAccount := ⟨"p", "u", .business⟩

/-- An account, just connected. -/
def justConnected : Db :=
  ((connectOfficialAccount reference plainKeys 9 1 businessAccount basicGranted ⟨"t", none⟩ 0).exec
    (quietEnv 0 10) {}).2

/-- A pass of one page whose feed goes on. -/
def firstPage (first : Uuid) : Pass :=
  { keys := plainKeys
    config := pageByPage 9
    now := 0
    turns := fun n => (quietEnv 0 (first + 100 * n), fun _ => .ok (ownPage ["b"] (some "c"))) }

/-- The traversal stops at its page limit, and the account is refreshed. -/
def refreshedMidway : Db :=
  ((refreshOfficialAccount reference 1 9 businessAccount basicGranted [116] 1 none 5).exec
    (quietEnv 5 5000) ((firstPage 1000).perform reference 1 justConnected).2.1).2

/-- The run that stopped, and what the account may do since. -/
def stoppedRun : SyncRun :=
  { runId := 1400, accountId := 1, userRef := 9, capabilityGenerationId := 21,
    candidateWatermark := some "b", nextCursor := some "c", status := .retryable,
    outcomeReason := some .pageLimit, pageCount := 1, itemCount := 1, startedAt := 0,
    updatedAt := 0 }

def readAgain : CapabilityRead :=
  { userRef := 9, providerAccountId := "p", generationId := 5007, connectionStatus := .connected,
    capabilityState := .available, reason := .granted }

theorem refreshedMidway_stale : StaleRun 1 stoppedRun readAgain refreshedMidway := by
  decide +kernel

theorem stale_generation_wedges_after_refresh :
    StaleRun 1 stoppedRun readAgain refreshedMidway ∧
      ¬ Unwedges 1 stoppedRun readAgain
        ((firstPage 9000).perform reference 1
          (afterPasses reference 1 [firstPage 6000, firstPage 7000] refreshedMidway)).2.2 :=
  ⟨refreshedMidway_stale,
    (stale_generation_wedges reference refreshedMidway_stale [firstPage 6000, firstPage 7000]
      (firstPage 9000)).2.2.2⟩

/-- After the refresh the next pass fails, although the credential opens and the provider
answers: the stopped run is neither resumed nor closed, and no run opens. -/
theorem refresh_wedges_traversal :
    StaleRun 1 stoppedRun readAgain refreshedMidway ∧
      ((firstPage 9000).perform reference 1 refreshedMidway).1 = .error .unavailable ∧
      ¬ Unwedges 1 stoppedRun readAgain ((firstPage 9000).perform reference 1 refreshedMidway).2.2 ∧
      activeRun 1 ((firstPage 9000).perform reference 1 refreshedMidway).2.1 = some stoppedRun := by
  have hevents : ((firstPage 9000).perform reference 1 refreshedMidway).2.2 = [] := by
    decide +kernel
  refine ⟨refreshedMidway_stale, by decide +kernel, ?_, by decide +kernel⟩
  rw [hevents]
  simp [Unwedges]

end InstagramArchive

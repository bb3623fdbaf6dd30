import InstagramArchive.Machine.Backoff
import InstagramArchive.Machine.Signed
import InstagramArchive.RemovalDelivery
import Mathlib.Tactic.IntervalCases
import Mathlib.Tactic.Ring

/-!
# Back-off schedules

The wait for the next copy of a removal doubles at each resend up to a cap, and the wait for the
next attempt at a capture is four times the last one up to half an hour. Both clamp the exponent
first, at a value where the configured cap has won.
-/

namespace InstagramArchive

open Relational Relational.Tx Machine

/-! ## Configuration -/

/-- One refused setting. -/
structure Violation where
  key : String
  rule : String
  deriving DecidableEq, Repr

def AFTER_KEY : String := "RATATOSKR__TOMBSTONE__RESEND_AFTER_SECONDS"

def CAP_KEY : String := "RATATOSKR__TOMBSTONE__RESEND_CAP_SECONDS"

/-- The longest resend cap in seconds: seven days. -/
def MAX_CAP_SECONDS : U64 := 604800

/-- Resend timing of a removal that was not acknowledged yet. -/
structure TombstoneConfig where
  resendAfterSeconds : U64
  resendCapSeconds : U64
  deriving DecidableEq, Repr

def TombstoneConfig.default : TombstoneConfig := ⟨600, 21600⟩

def validateRange (value minimum maximum : U64) (key : String) : List Violation :=
  if minimum ≤ value ∧ value ≤ maximum then []
  else [⟨key, "must be within its finite documented range"⟩]

/-- `validate`: the violations it adds. -/
def TombstoneConfig.validate (config : TombstoneConfig) : List Violation :=
  validateRange config.resendAfterSeconds 30 86400 AFTER_KEY ++
    if config.resendCapSeconds < config.resendAfterSeconds ∨
        MAX_CAP_SECONDS < config.resendCapSeconds then
      [⟨CAP_KEY, "must be at least the resend delay and at most 604800 seconds"⟩]
    else []

/-- The timing as the publisher pass takes it. -/
def TombstoneConfig.resendPolicy (config : TombstoneConfig) : ResendPolicy :=
  ⟨seconds config.resendAfterSeconds.toNat, seconds config.resendCapSeconds.toNat⟩

theorem TombstoneConfig.validate_eq_nil {config : TombstoneConfig} :
    config.validate = [] ↔
      30 ≤ config.resendAfterSeconds.toNat ∧ config.resendAfterSeconds.toNat ≤ 86400 ∧
        config.resendAfterSeconds.toNat ≤ config.resendCapSeconds.toNat ∧
        config.resendCapSeconds.toNat ≤ 604800 := by
  have hmin : (30 : U64).toNat = 30 := rfl
  have hmax : (86400 : U64).toNat = 86400 := rfl
  have hcap : MAX_CAP_SECONDS.toNat = 604800 := rfl
  unfold TombstoneConfig.validate validateRange
  rw [List.append_eq_nil_iff]
  simp only [ite_eq_left_iff, ite_eq_right_iff, List.cons_ne_nil, imp_false, not_not, not_or,
    BitVec.le_def, BitVec.lt_def, hmin, hmax, hcap]
  omega

/-! ## Resends of a removal -/

/-- The wait in seconds before the copy after the `n`-th resend. -/
def TombstoneConfig.wait (config : TombstoneConfig) (n : Nat) : Nat :=
  cappedWait config.resendAfterSeconds.toNat 2 config.resendCapSeconds.toNat n

/-- The removal is due `wait` seconds after `now`. -/
def WaitsFor (eventId : Uuid) (now : Instant) (wait : Nat) (db : Db) : Prop :=
  ∃ e, db.outboxEvents.lookup eventId = some e ∧ e.nextResendAt = some (now + seconds wait)

/-- Resends of one removal, each committed. -/
def Resends (eventId : Uuid) (policy : ResendPolicy) : List Env → Db → Db → Prop
  | [], db, db' => db' = db
  | env :: rest, db, db' =>
    ∃ mid, (recordResend eventId policy).Yields env db () mid ∧ Resends eventId policy rest mid db'

section Resend

variable {config : TombstoneConfig} {lib : Externals} {env : Env} {db db' : Db} {eventId : Uuid}

theorem resendWait_eq (hconfig : config.validate = []) (n : Nat) :
    resendWait config.resendPolicy n = seconds (config.wait n) := by
  obtain ⟨hafter, -, -, hcap⟩ := TombstoneConfig.validate_eq_nil.mp hconfig
  -- the least delay, doubled thirty times, is above the greatest cap
  have hwon : config.resendCapSeconds.toNat ≤ config.resendAfterSeconds.toNat * 2 ^ 30 := by omega
  have hclamp : clampedWait 30 config.resendAfterSeconds.toNat 2 config.resendCapSeconds.toNat n =
      cappedWait config.resendAfterSeconds.toNat 2 config.resendCapSeconds.toNat n :=
    clampedWait_eq (by decide) hwon
  unfold resendWait TombstoneConfig.wait
  rw [← hclamp]
  unfold clampedWait TombstoneConfig.resendPolicy seconds
  have hdoubled : (config.resendAfterSeconds.toNat : Int) * 1000000 * 2 ^ min n 30 =
      (config.resendAfterSeconds.toNat * 2 ^ min n 30 : Nat) * 1000000 := by
    push_cast
    ring
  simp only [hdoubled]
  generalize config.resendAfterSeconds.toNat * 2 ^ min n 30 = doubled
  omega

/-- No removal was resent before its first publication. -/
def OutboxEvent.unsentFresh (e : OutboxEvent) : Prop := e.publishedAt = none → e.resendCount = 0

theorem OutboxEvent.unsentFresh_of_asAppended {e : OutboxEvent} (h : e.asAppended = e) :
    e.unsentFresh := by
  intro _
  rw [← h]
  rfl

theorem Booking.unsentFresh {now : Instant} {resend : ResendPolicy} {p : OutboxEvent → Bool}
    {f : OutboxEvent → OutboxEvent} {e : OutboxEvent} (hb : Booking now resend eventId p f)
    (hp : p e = true) (h : e.unsentFresh) : (f e).unsentFresh := by
  cases hb with
  | published =>
    intro hnone
    cases hnone
  | undeliverable reason => exact h
  | backedOff error => exact h
  | resent =>
    intro hnone
    have hpublished : e.publishedAt.isSome := by
      simp only [OutboxEvent.awaitsAck, Bool.and_eq_true] at hp
      exact hp.2.1.2
    simp only [OutboxEvent.resent] at hnone
    rw [hnone] at hpublished
    cases hpublished

theorem unsentFresh_step {s : System} (a : Action)
    (h : ∀ e ∈ s.db.outboxEvents, e.unsentFresh) :
    ∀ e ∈ (step lib s a).db.outboxEvents, e.unsentFresh := by
  intro e he
  rcases step_effect lib s a with ⟨-, hdb⟩ | ⟨env, call, hcall, heffect⟩
  · rw [hdb] at he
    exact h e he
  generalize (InstagramArchive.step lib s a).db = db' at he heffect
  cases heffect.outboxChange with
  | grew hgrew =>
    obtain ⟨new, hrows, hnew⟩ := hgrew
    rw [Table.mem_rows, hrows] at he
    rcases List.mem_append.mp he with he | he
    · exact h e he
    · exact OutboxEvent.unsentFresh_of_asAppended (hnew e he).1
  | booked hb =>
    obtain ⟨old, hold, rfl⟩ := Table.exists_of_mem_update he
    split
    · rename_i hp
      exact hb.unsentFresh hp (h old hold)
    · exact h old hold
  | acknowledged =>
    obtain ⟨old, hold, rfl⟩ := Table.exists_of_mem_update he
    split
    · exact h old hold
    · exact h old hold
  | trimmed htrim =>
    rcases htrim.origin e he with he | hnew
    · exact h e he
    · exact OutboxEvent.unsentFresh_of_asAppended hnew

theorem unsentFresh_run (lib : Externals) (actions : List Action) :
    ∀ e ∈ (run (step lib) {} actions).db.outboxEvents, e.unsentFresh := by
  induction actions using List.reverseRecOn with
  | nil =>
    intro e he
    cases he
  | append_singleton before a ih =>
    rw [run_concat]
    exact unsentFresh_step a ih

theorem lookup_updateOutbox (p : OutboxEvent → Bool) (f : OutboxEvent → OutboxEvent)
    (hf : ∀ e, (f e).eventId = e.eventId) (db : Db) (eventId : Uuid) :
    (updateOutbox p f hf db).outboxEvents.lookup eventId =
      (db.outboxEvents.lookup eventId).map fun e => if p e then f e else e :=
  Table.lookup_update db.outboxEvents p f hf eventId

/-- What publishing makes of the row of a removal. -/
theorem markPublished_removal {policy : ResendPolicy} {e : OutboxEvent}
    (h : (markPublished eventId policy).Yields env db () db')
    (he : db.outboxEvents.lookup eventId = some e) (hremoval : e.eventType = .sourceRemoved)
    (hpublished : e.publishedAt = none) :
    ∃ e', db'.outboxEvents.lookup eventId = some e' ∧ e'.eventType = .sourceRemoved ∧
      e'.publishedAt.isSome ∧ e'.acknowledgedAt = e.acknowledgedAt ∧
      e'.resendCount = e.resendCount ∧ e'.nextResendAt = some (env.now + policy.after) := by
  obtain ⟨now, _, h1, h⟩ := h.bind
  obtain ⟨rfl, rfl⟩ := h1.now
  obtain rfl := h.execute
  obtain rfl := (Table.lookup_eq_some.mp he).2
  refine ⟨e.published env.now policy, ?_, hremoval, rfl, rfl, rfl, ?_⟩
  · refine (lookup_updateOutbox _ (OutboxEvent.published env.now policy) (fun _ => rfl) db
      e.eventId).trans ?_
    rw [he, Option.map_some, hpublished]
    simp
  · simp [OutboxEvent.published, hremoval]

/-- What one committed resend makes of the row. -/
theorem recordResend_removal {policy : ResendPolicy} {e : OutboxEvent}
    (h : (recordResend eventId policy).Yields env db () db')
    (he : db.outboxEvents.lookup eventId = some e) (hawaits : e.awaitsAck = true) :
    db'.outboxEvents.lookup eventId = some (e.resent env.now policy) := by
  obtain ⟨now, _, h1, h⟩ := h.bind
  obtain ⟨rfl, rfl⟩ := h1.now
  obtain ⟨-, rfl⟩ := h.executeChecked
  obtain rfl := (Table.lookup_eq_some.mp he).2
  refine (lookup_updateOutbox _ (OutboxEvent.resent env.now policy) (fun _ => rfl) db
    e.eventId).trans ?_
  rw [he, Option.map_some, hawaits]
  simp

theorem OutboxEvent.resent_awaitsAck {now : Instant} {policy : ResendPolicy} {e : OutboxEvent} :
    (e.resent now policy).awaitsAck = e.awaitsAck := rfl

/-- After any number of resends the removal still waits for its answer and has counted them. -/
theorem Resends.counted {policy : ResendPolicy} {envs : List Env} {e : OutboxEvent}
    (h : Resends eventId policy envs db db') (he : db.outboxEvents.lookup eventId = some e)
    (hawaits : e.awaitsAck = true) :
    ∃ e', db'.outboxEvents.lookup eventId = some e' ∧ e'.awaitsAck = true ∧
      e'.resendCount = e.resendCount + envs.length := by
  induction envs generalizing db e with
  | nil =>
    cases h
    exact ⟨e, he, hawaits, rfl⟩
  | cons env rest ih =>
    obtain ⟨mid, hone, hrest⟩ := h
    obtain ⟨e', he', hawaits', hcount⟩ :=
      ih hrest (recordResend_removal hone he hawaits) (OutboxEvent.resent_awaitsAck.trans hawaits)
    refine ⟨e', he', hawaits', hcount.trans ?_⟩
    simp only [OutboxEvent.resent, List.length_cons]
    omega

theorem Resends.append {policy : ResendPolicy} {envs later : List Env}
    (h : Resends eventId policy (envs ++ later) db db') :
    ∃ mid, Resends eventId policy envs db mid ∧ Resends eventId policy later mid db' := by
  induction envs generalizing db with
  | nil => exact ⟨db, rfl, h⟩
  | cons env rest ih =>
    obtain ⟨mid, hone, hrest⟩ := h
    obtain ⟨mid', hfirst, hlater⟩ := ih hrest
    exact ⟨mid', ⟨mid, hone, hfirst⟩, hlater⟩

end Resend

/-! ## Attempts at a capture -/

def MAX_RETRY_DELAY_SECONDS : I64 := 1800

/-- `retry_delay` in its own integers; `none` when a step overflows. -/
def retryDelaySeconds (attempt : U32) : Option I64 :=
  let exponent := min (saturatingSub attempt 1).toNat 6
  (checkedPow 4 exponent).map fun power =>
    signedMin (saturatingMul 30 power) MAX_RETRY_DELAY_SECONDS

/-- The wait in seconds after an attempt. -/
def retryWait (attempt : U32) : Nat := cappedWait 30 4 1800 (attempt.toNat - 1)

theorem retryWait_eq (attempt : U32) :
    retryWait attempt = clampedWait 6 30 4 1800 (attempt.toNat - 1) :=
  (clampedWait_eq (by decide) (by decide)).symm

/-- No step of the delay overflows, and it is the formula. -/
theorem retryDelaySeconds_eq (attempt : U32) :
    ∃ delay, retryDelaySeconds attempt = some delay ∧ delay.toInt = retryWait attempt ∧
      retryDelay attempt.toNat = seconds delay.toInt := by
  have hone : (1 : U32).toNat = 1 := rfl
  have hexponent : min (attempt.toNat - 1) 6 < 7 := by omega
  have hdelay : ∀ exponent < 7, ∃ delay : I64,
      ((checkedPow 4 exponent).map fun power =>
        signedMin (saturatingMul 30 power) MAX_RETRY_DELAY_SECONDS) = some delay ∧
      delay.toInt = (min (30 * 4 ^ exponent) 1800 : Nat) := by
    intro exponent h
    interval_cases exponent <;> exact ⟨_, rfl, by decide⟩
  obtain ⟨delay, hsome, hvalue⟩ := hdelay _ hexponent
  refine ⟨delay, ?_, ?_, ?_⟩
  · unfold retryDelaySeconds
    rw [toNat_saturatingSub, hone]
    exact hsome
  · rw [retryWait_eq, hvalue]
    rfl
  · rw [hvalue]
    rfl

/-! ## The schedules -/

/-- Once an admitted configuration's pass publishes a removal that nobody answered, its first wait
is the configured delay and the `(n + 1)`-th resend sets the delay doubled `n` times, up to the
cap; the waits after failed attempts at a capture are their formula for every attempt. -/
theorem backoff_schedules (config : TombstoneConfig) (hconfig : config.validate = [])
    (lib : Externals) (actions : List Action) (e : OutboxEvent)
    (he : e ∈ (run (step lib) {} actions).db.outboxEvents)
    (hremoval : e.eventType = .sourceRemoved) (hpublished : e.publishedAt = none)
    (hunanswered : e.acknowledgedAt = none) :
    (∀ env db, (markPublished e.eventId config.resendPolicy).Yields env
        (run (step lib) {} actions).db () db →
      WaitsFor e.eventId env.now config.resendAfterSeconds.toNat db ∧
      ∀ envs last db', Resends e.eventId config.resendPolicy (envs ++ [last]) db db' →
        WaitsFor e.eventId last.now (min (config.resendAfterSeconds.toNat * 2 ^ envs.length)
          config.resendCapSeconds.toNat) db') ∧
    (config.resendAfterSeconds.toNat ≤ config.wait 0 ∧
      (∀ n m, n ≤ m → config.wait n ≤ config.wait m) ∧
      (∀ n, config.wait n ≤ config.resendCapSeconds.toNat) ∧
      ∃ won, ∀ n, won ≤ n → config.wait n = config.resendCapSeconds.toNat) ∧
    (∀ attempt : U32, 1 ≤ attempt.toNat → ∃ delay, retryDelaySeconds attempt = some delay ∧
      delay.toInt = (min (30 * 4 ^ (attempt.toNat - 1)) 1800 : Nat) ∧
      retryDelay attempt.toNat = seconds delay.toInt) ∧
    ∀ attempt later : U32, attempt.toNat ≤ later.toNat →
      retryDelay attempt.toNat ≤ retryDelay later.toNat := by
  obtain ⟨hafter, -, hordered, hcap⟩ := TombstoneConfig.validate_eq_nil.mp hconfig
  have hwon : config.resendCapSeconds.toNat ≤ config.resendAfterSeconds.toNat * 2 ^ 30 := by omega
  refine ⟨?_, ⟨?_, fun n m h => cappedWait_mono (by decide) h, fun n => cappedWait_le_cap, 30,
    fun n h => cappedWait_eq_cap (by decide) hwon h⟩, fun attempt _ => retryDelaySeconds_eq attempt,
    ?_⟩
  · intro env db hmark
    obtain ⟨e', he', hremoval', hpublished', hack, hcount, hnext⟩ :=
      markPublished_removal hmark (Table.lookup_mem he) hremoval hpublished
    refine ⟨⟨e', he', hnext⟩, ?_⟩
    intro envs last db' hresends
    have hawaits : e'.awaitsAck = true := by
      unfold OutboxEvent.awaitsAck
      rw [hremoval', hpublished', hack, hunanswered]
      rfl
    obtain ⟨mid, hbefore, mid', hlast, rfl⟩ := hresends.append
    obtain ⟨f, hf, hfawaits, hfcount⟩ := hbefore.counted he' hawaits
    refine ⟨f.resent last.now config.resendPolicy, recordResend_removal hlast hf hfawaits, ?_⟩
    have hzero := unsentFresh_run lib actions e he hpublished
    have hn : f.resendCount = envs.length := by omega
    simp only [OutboxEvent.resent, resendWait_eq hconfig, hn]
    rfl
  · unfold TombstoneConfig.wait cappedWait
    omega
  · intro attempt later h
    obtain ⟨delay, -, hdelay, hattempt⟩ := retryDelaySeconds_eq attempt
    obtain ⟨delay', -, hdelay', hlater⟩ := retryDelaySeconds_eq later
    have hmono : retryWait attempt ≤ retryWait later :=
      cappedWait_mono (by decide) (Nat.sub_le_sub_right h 1)
    rw [hattempt, hlater, hdelay, hdelay']
    unfold seconds
    omega

/-- The removal of `publishedRemoval`, appended and not yet delivered. -/
def appendedRemoval : Db := (run (step reference) {} (publishedRemoval.take 2)).db

/-- Its delivery is marked. -/
def deliveredRemoval : Db :=
  ((markPublished 204 TombstoneConfig.default.resendPolicy).exec (quietEnv 40 400)
    appendedRemoval).2

/-- Each copy is sent when it is due. -/
def dueTimes : List Instant := [600000040, 1200000040, 2400000040, 4800000040]

def resentRemoval : Db :=
  dueTimes.foldl (fun db now =>
    ((recordResend 204 TombstoneConfig.default.resendPolicy).exec (quietEnv now 900) db).2)
    deliveredRemoval

/-- A removal under the defaults: its first copy waits ten minutes, the fourth resend sets
eighty. -/
theorem backoff_schedules_publishedRemoval :
    (markPublished 204 TombstoneConfig.default.resendPolicy).Yields (quietEnv 40 400)
        appendedRemoval () deliveredRemoval ∧
      WaitsFor 204 40 600 deliveredRemoval ∧
      Resends 204 TombstoneConfig.default.resendPolicy (dueTimes.map fun now => quietEnv now 900)
        deliveredRemoval resentRemoval ∧
      WaitsFor 204 4800000040 4800 resentRemoval := by
  have hremoval : ∃ e ∈ appendedRemoval.outboxEvents.rows, e.eventId = 204 ∧
      e.eventType = .sourceRemoved ∧ e.publishedAt = none ∧ e.acknowledgedAt = none := by
    decide +kernel
  obtain ⟨e, he, hid, htype, hpublished, hunanswered⟩ := hremoval
  have hmarked : (markPublished 204 TombstoneConfig.default.resendPolicy).Yields (quietEnv 40 400)
      appendedRemoval () deliveredRemoval := exec_yields (by decide +kernel)
  have hresent : Resends 204 TombstoneConfig.default.resendPolicy
      (dueTimes.map fun now => quietEnv now 900) deliveredRemoval resentRemoval :=
    ⟨_, exec_yields (by decide +kernel), _, exec_yields (by decide +kernel),
      _, exec_yields (by decide +kernel), _, exec_yields (by decide +kernel),
      rfl⟩
  obtain ⟨hfirst, hlater⟩ := (backoff_schedules TombstoneConfig.default (by decide) reference
    (publishedRemoval.take 2) e he htype hpublished hunanswered).1 (quietEnv 40 400)
    deliveredRemoval (hid ▸ hmarked)
  rw [hid] at hfirst hlater
  exact ⟨hmarked, hfirst, hresent,
    hlater [quietEnv 600000040 900, quietEnv 1200000040 900, quietEnv 2400000040 900]
      (quietEnv 4800000040 900) resentRemoval hresent⟩

end InstagramArchive

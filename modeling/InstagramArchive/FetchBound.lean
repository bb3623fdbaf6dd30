import InstagramArchive.FetchProgress
import InstagramArchive.Reference

/-!
# Fetches of a capture

The attempts an accepted capture counts bound its fetches: as long as nothing opens it again,
one resolver fetches it no more often than its policy allows. The count moves on one exit of
`resolveOne` only, so the bound is one of the runs in which every answer concludes; an answer
whose fact the contracts refuse leaves its transaction, and the capture comes back after its
lease as if it had not been fetched.
-/

namespace InstagramArchive

open Relational Relational.Tx Permalink

/-! ## One resolver -/

/-- What the resolver passes still have to fetch. -/
def System.leases (s : System) : List Leased := s.workers.flatMap Worker.leased

/-- One resolver with one policy: it claims when it is through with its last pass. -/
def OneResolver (policy : ResolutionPolicy) (s : System) : Action → Prop
  | .claim _ _ p _ => p = policy ∧ s.leases = []
  | _ => True

/-- The answer of a fetch concludes. -/
def System.Concludes (lib : Externals) (s : System) : Action → Prop
  | .resolve env i outcome => ∀ w lease, s.workers[i]? = some w → w.next = some lease →
      AnswerConcludes lib env lease w.now outcome s.db
  | _ => True

/-- The capture a step fetches: the next lease of a worker, if its permalink maps. -/
def System.fetched (s : System) : Action → Option Uuid
  | .resolve _ i _ =>
    (s.workers[i]?.bind Worker.next).bind fun lease =>
      (canonicalize lease.canonicalUrl).toOption.map fun _ => lease.captureId
  | _ => none

/-- The fetches of a capture along a run. -/
def fetchCount (lib : Externals) (id : Uuid) (s : System) : List Action → Nat
  | [] => 0
  | a :: rest => (if s.fetched a = some id then 1 else 0) + fetchCount lib id (step lib s a) rest

/-- The step does not open the capture. -/
def KeepsClosed (lib : Externals) (id : Uuid) (s : System) (a : Action) : Prop :=
  acceptedAttempts id s.db = none → acceptedAttempts id (step lib s a).db = none

section Leases

variable {lib : Externals} {s : System} {a : Action} {policy : ResolutionPolicy}

theorem claimEach_leases {env : Env} {db db' : Db} {now : Instant} {batch : List Capture}
    {out : List Leased × Nat} (h : (claimEach lib now batch).Yields env db out db') :
    out.1 = (batch.filter fun c => c.status = .accepted).map fun c =>
      ⟨c.captureId, c.canonicalUrl, c.resolutionAttempts⟩ := by
  induction batch generalizing db out with
  | nil =>
    obtain ⟨rfl, -⟩ := yields_pure.mp h
    rfl
  | cons c rest ih =>
    unfold claimEach at h
    split at h
    · rename_i hst
      obtain ⟨_, _, h1, h⟩ := h.bind
      obtain ⟨p, m, h2, h⟩ := h.bind
      obtain ⟨rfl, rfl⟩ := yields_pure.mp h
      simp [hst, ih h2]
    · rename_i hst
      obtain ⟨n, m, h1, h⟩ := h.bind
      obtain ⟨p, m', h2, h⟩ := h.bind
      obtain ⟨rfl, rfl⟩ := yields_pure.mp h
      simp [hst, ih h2]

theorem claimBatch_distinct {db : Db} {now : Instant} {batchSize : Nat} {locked : List Uuid} :
    ((claimBatch now batchSize locked db).map Capture.captureId).Nodup := by
  have hsorted : (((db.captures.rows.filter fun c => claimable now db c &&
      !locked.contains c.captureId).insertionSort fun a b => claimBefore a b).map
        Capture.captureId).Nodup := by
    refine ((List.perm_insertionSort ..).map Capture.captureId).nodup_iff.mpr ?_
    exact db.captures.nodup.sublist (List.filter_sublist.map _)
  exact hsorted.sublist ((List.take_sublist ..).map _)

/-- A list with one element set. -/
theorem flatMap_set {α β : Type} (f : α → List β) {l : List α} {i : Nat} {x y : α} {b : β}
    (hx : l[i]? = some x) (hf : f x = b :: f y) :
    (l.flatMap f).Perm (b :: (l.set i y).flatMap f) := by
  induction l generalizing i with
  | nil => simp at hx
  | cons z rest ih =>
    cases i with
    | zero =>
      simp only [List.getElem?_cons_zero, Option.some.injEq] at hx
      subst hx
      simp [hf]
    | succ i =>
      simp only [List.getElem?_cons_succ] at hx
      simp only [List.flatMap_cons, List.set_cons_succ]
      exact ((ih hx).append_left (f z)).trans List.perm_middle

theorem flatMap_set_eq {α β : Type} (f : α → List β) {l : List α} {i : Nat} {x y : α}
    (hx : l[i]? = some x) (hf : f y = f x) : (l.set i y).flatMap f = l.flatMap f := by
  induction l generalizing i with
  | nil => simp at hx
  | cons z rest ih =>
    cases i with
    | zero =>
      simp only [List.getElem?_cons_zero, Option.some.injEq] at hx
      subst hx
      simp [hf]
    | succ i =>
      simp only [List.getElem?_cons_succ] at hx
      simp [ih hx]

theorem Worker.resolved_leased (w : Worker) (lease : Leased)
    (result : Except CaptureResolutionError Attempt) :
    (w.resolved lease result).leased = w.leased.tail ∧
      (w.resolved lease result).policy = w.policy := by
  unfold Worker.resolved
  split <;> exact ⟨rfl, rfl⟩

theorem Worker.reportedBy_leased (w : Worker) (result : Except CaptureResolutionError Nat) :
    (w.reportedBy result).leased = w.leased ∧ (w.reportedBy result).policy = w.policy := by
  unfold Worker.reportedBy
  split <;> exact ⟨rfl, rfl⟩

theorem Worker.next_eq_some {w : Worker} {lease : Leased} (h : w.next = some lease) :
    w.leased = lease :: w.leased.tail := by
  unfold Worker.next at h
  split at h
  · cases hl : w.leased with
    | nil =>
      rw [hl] at h
      cases h
    | cons x rest =>
      rw [hl] at h
      cases h
      rfl
  · cases h

/-- What a step does to the leases. -/
inductive Leasing (lib : Externals) (s : System) : Action → Prop
  | kept {a : Action}
      (hidle : ∀ env i outcome, a = .resolve env i outcome → s.workers[i]?.bind Worker.next = none)
      (hleases : (step lib s a).leases = s.leases)
      (hworkers : ∀ w' ∈ (step lib s a).workers, ∃ w ∈ s.workers, w'.policy = w.policy) :
      Leasing lib s a
  | taken {env : Env} {i : Nat} {outcome : SurfaceOutcome} {w : Worker} {lease : Leased}
      (hw : s.workers[i]? = some w) (hnext : w.next = some lease)
      (hperm : s.leases.Perm (lease :: (step lib s (.resolve env i outcome)).leases))
      (hworkers : ∀ w' ∈ (step lib s (.resolve env i outcome)).workers,
        ∃ w ∈ s.workers, w'.policy = w.policy) : Leasing lib s (.resolve env i outcome)
  | claimed {env : Env} {now : Instant} {p : ResolutionPolicy} {locked : List Uuid}
      (hleases : (step lib s (.claim env now p locked)).leases = s.leases ++
        ((claimBatch now p.batchSize locked s.db).filter fun c => c.status = .accepted).map
          fun c => ⟨c.captureId, c.canonicalUrl, c.resolutionAttempts⟩)
      (hworkers : ∀ w' ∈ (step lib s (.claim env now p locked)).workers,
        w'.policy = p ∨ w' ∈ s.workers) : Leasing lib s (.claim env now p locked)

theorem step_leasing (lib : Externals) (s : System) (a : Action) : Leasing lib s a := by
  have hsame : ∀ {a : Action}, (step lib s a).workers = s.workers →
      (∀ env i outcome, a = .resolve env i outcome → s.workers[i]?.bind Worker.next = none) →
      Leasing lib s a := by
    intro a h hidle
    refine .kept hidle ?_ fun w hw => ⟨w, h ▸ hw, rfl⟩
    unfold System.leases
    rw [h]
  cases a with
  | claim env now p locked =>
    cases hexec : (claim lib now p locked).exec env s.db with
    | mk result db =>
      cases result with
      | error e =>
        refine hsame ?_ (by simp)
        simp only [step, hexec]
      | ok out =>
        have hleased : out.1 = ((claimBatch now p.batchSize locked s.db).filter
            fun c => c.status = .accepted).map
              fun c => ⟨c.captureId, c.canonicalUrl, c.resolutionAttempts⟩ := by
          obtain ⟨reported, h⟩ := claim_yields (exec_ok hexec)
          exact claimEach_leases h
        refine .claimed ?_ fun w hw => ?_
        · simp [System.leases, step, hexec, hleased]
        · simp only [step, hexec, List.mem_append, List.mem_singleton] at hw
          rcases hw with hw | rfl
          · exact .inr hw
          · exact .inl rfl
  | resolve env i outcome =>
    cases hw : s.workers[i]? with
    | none =>
      apply hsame
      · simp only [step, hw]
      · rintro _ _ _ ⟨⟩
        rw [hw]
        rfl
    | some w =>
      cases hnext : w.next with
      | none =>
        apply hsame
        · simp only [step, hw, hnext]
        · rintro _ _ _ ⟨⟩
          rw [hw]
          exact hnext
      | some lease =>
        have hresolved := w.resolved_leased lease
          ((resolveOne lib lease w.now w.policy outcome).exec env s.db).1
        refine .taken hw hnext ?_ fun w' hw' => ?_
        · simp only [System.leases, step, hw, hnext]
          apply flatMap_set Worker.leased hw
          rw [hresolved.1, ← Worker.next_eq_some hnext]
        · simp only [step, hw, hnext] at hw'
          rcases List.mem_or_eq_of_mem_set hw' with hw' | rfl
          · exact ⟨w', hw', rfl⟩
          · exact ⟨w, List.mem_of_getElem? hw, hresolved.2⟩
  | report env i =>
    cases hw : s.workers[i]? with
    | none =>
      refine hsame ?_ (by simp)
      simp only [step, hw]
    | some w =>
      cases hconcluding : w.concluding with
      | none =>
        refine hsame ?_ (by simp)
        simp only [step, hw, hconcluding]
      | some captureId =>
        have hreported := w.reportedBy_leased
          ((reportConcluded lib captureId w.now).exec env s.db).1
        refine .kept (by simp) ?_ fun w' hw' => ?_
        · simp only [System.leases, step, hw, hconcluding]
          exact flatMap_set_eq Worker.leased hw hreported.1
        · simp only [step, hw, hconcluding] at hw'
          rcases List.mem_or_eq_of_mem_set hw' with hw' | rfl
          · exact ⟨w', hw', rfl⟩
          · exact ⟨w, List.mem_of_getElem? hw, hreported.2⟩
  | submit | command | analysis | tombstone | mediaFact | acknowledge | delete =>
    exact hsame rfl (by simp)
  | beginFetch | applyFetch | beginUnavailable | finishUnavailable | beginPass | deliver | book
    | resendDue =>
    refine hsame ?_ (by simp)
    simp only [step]
    split <;> rfl

theorem System.call_not_resolve {env : Env} {lease : Leased} {now : Instant}
    {outcome : SurfaceOutcome} (ha : ∀ env i outcome, a ≠ .resolve env i outcome)
    (h : s.call a = some (env, .resolve lease now policy outcome)) : False := by
  cases a with
  | resolve env i outcome => exact ha env i outcome rfl
  | _ => simp [System.call, Option.bind_eq_some_iff, Option.map_eq_some_iff] at h

/-- What a step does to accepted captures. -/
theorem step_acceptance (lib : Externals) (s : System) (a : Action) :
    (∃ env i outcome w lease, a = .resolve env i outcome ∧ s.workers[i]? = some w ∧
        w.next = some lease ∧ lease.attempt < w.policy.maxAttempts ∧
        (step lib s a).db = rescheduleCapture lease.captureId lease.attempt w.now s.db) ∨
      ((∀ env i outcome, a ≠ .resolve env i outcome) ∧
        ∀ id, Opens (acceptedAttempts id s.db) (acceptedAttempts id (step lib s a).db)) ∨
      ∀ id, Closes (acceptedAttempts id s.db) (acceptedAttempts id (step lib s a).db) := by
  rw [step_db]
  cases hcall : s.call a with
  | none => exact .inr (.inr fun id => .refl _)
  | some p =>
    obtain ⟨env, call⟩ := p
    simp only
    by_cases hresolve : ∃ env i outcome, a = .resolve env i outcome
    · obtain ⟨env', i, outcome, rfl⟩ := hresolve
      obtain ⟨w, hw, hnext⟩ := Option.bind_eq_some_iff.mp hcall
      obtain ⟨lease, hlease, heq⟩ := Option.map_eq_some_iff.mp hnext
      cases heq
      rcases resolve_acceptance with ⟨hretry, hdb⟩ | hcloses
      · exact .inl ⟨_, i, outcome, w, lease, rfl, hw, hlease, hretry, hdb⟩
      · exact .inr (.inr hcloses)
    · have hother : ∀ env i outcome, a ≠ .resolve env i outcome :=
        fun env i outcome ha => hresolve ⟨env, i, outcome, ha⟩
      rcases (Call.effect lib env s.db call).acceptance with
        ⟨lease, now, policy, outcome, rfl, -⟩ | ⟨-, hopens⟩ | hcloses
      · exact (System.call_not_resolve hother hcall).elim
      · exact .inr (.inl ⟨hother, hopens⟩)
      · exact .inr (.inr hcloses)

end Leases

/-! ## What holds between the steps of one resolver -/

/-- Accepted captures have attempts left, and a lease stands for one more than its capture
counts. -/
structure Tracked (policy : ResolutionPolicy) (s : System) : Prop where
  policies : ∀ w ∈ s.workers, w.policy = policy
  bounded : ∀ id n, acceptedAttempts id s.db = some n → n < policy.maxAttempts
  distinct : (s.leases.map Leased.captureId).Nodup
  spent : ∀ lease ∈ s.leases, ∀ n, acceptedAttempts lease.captureId s.db = some n →
    n ≤ lease.attempts

section Tracking

variable {lib : Externals} {s : System} {a : Action} {policy : ResolutionPolicy}

theorem Tracked.start : Tracked policy {} where
  policies w hw := by cases hw
  bounded id n h := by cases h
  distinct := List.nodup_nil
  spent lease hl := by cases hl

/-- The count of an accepted capture after a step: the old one, none, or the attempt of the
lease that was rescheduled. -/
theorem acceptedAttempts_step {id : Uuid} {n : Nat}
    (h : acceptedAttempts id (step lib s a).db = some n) :
    acceptedAttempts id s.db = some n ∨
      (acceptedAttempts id s.db = none ∧ n = 0 ∧ ∀ env i outcome, a ≠ .resolve env i outcome) ∨
      ∃ env i outcome w lease k, a = .resolve env i outcome ∧ s.workers[i]? = some w ∧
        w.next = some lease ∧ lease.captureId = id ∧ acceptedAttempts id s.db = some k ∧
        lease.attempt < w.policy.maxAttempts ∧ n = min lease.attempt maxI32 := by
  rcases step_acceptance lib s a with ⟨env, i, outcome, w, lease, ha, hw, hnext, hretry, hdb⟩ |
    ⟨hother, hopens⟩ | hcloses
  · rw [hdb, acceptedAttempts_reschedule] at h
    split at h
    · rename_i hid
      obtain ⟨k, hk, rfl⟩ := Option.map_eq_some_iff.mp h
      exact .inr (.inr ⟨env, i, outcome, w, lease, k, ha, hw, hnext, hid, hk, hretry, rfl⟩)
    · exact .inl h
  · rcases hopens id with heq | ⟨hnone, hzero⟩
    · exact .inl (heq ▸ h)
    · rw [hzero] at h
      cases h
      exact .inr (.inl ⟨hnone, rfl, hother⟩)
  · rcases hcloses id with heq | hnone
    · exact .inl (heq ▸ h)
    · rw [hnone] at h
      cases h

theorem Tracked.mem_leases {i : Nat} {w : Worker} {lease : Leased} (hw : s.workers[i]? = some w)
    (hnext : w.next = some lease) : lease ∈ s.leases := by
  refine List.mem_flatMap.mpr ⟨w, List.mem_of_getElem? hw, ?_⟩
  rw [Worker.next_eq_some hnext]
  exact List.mem_cons_self

/-- **Step lemma.** Every step of one resolver keeps the bookkeeping. -/
theorem Tracked.step (hpos : 1 ≤ policy.maxAttempts) (ha : OneResolver policy s a)
    (h : Tracked policy s) : Tracked policy (step lib s a) := by
  have hbounded : ∀ id n, acceptedAttempts id (InstagramArchive.step lib s a).db = some n →
      n < policy.maxAttempts := by
    intro id n hn
    rcases acceptedAttempts_step hn with hold | ⟨-, rfl, -⟩ |
      ⟨env, i, outcome, w, lease, k, -, hw, -, -, -, hretry, rfl⟩
    · exact h.bounded id n hold
    · exact hpos
    · rw [h.policies w (List.mem_of_getElem? hw)] at hretry
      exact (min_le_left ..).trans_lt hretry
  cases step_leasing lib s a with
  | kept hidle hleases hworkers =>
    refine ⟨fun w hw => ?_, hbounded, hleases ▸ h.distinct, fun lease hl n hn => ?_⟩
    · obtain ⟨w₀, hw₀, hpolicy⟩ := hworkers w hw
      rw [hpolicy, h.policies w₀ hw₀]
    · rw [hleases] at hl
      rcases acceptedAttempts_step hn with hold | ⟨-, rfl, -⟩ |
        ⟨env, i, outcome, w, lease', k, rfl, hw, hnext, -⟩
      · exact h.spent lease hl n hold
      · exact Nat.zero_le _
      · have hnone := hidle env i outcome rfl
        rw [hw, Option.bind_some, hnext] at hnone
        cases hnone
  | taken hw hnext hperm hworkers =>
    have hnodup := (hperm.map Leased.captureId).nodup_iff.mp h.distinct
    rw [List.map_cons, List.nodup_cons] at hnodup
    refine ⟨fun w' hw' => ?_, hbounded, hnodup.2, fun lease hl n hn => ?_⟩
    · obtain ⟨w₀, hw₀, hpolicy⟩ := hworkers w' hw'
      rw [hpolicy, h.policies w₀ hw₀]
    · rcases acceptedAttempts_step hn with hold | ⟨-, rfl, -⟩ |
        ⟨_, _, _, w', lease', k, ⟨⟩, hw', hnext', hid, -⟩
      · exact h.spent lease (hperm.mem_iff.mpr (List.mem_cons_of_mem _ hl)) n hold
      · exact Nat.zero_le _
      · -- the rescheduled lease is gone, and no other one is for its capture
        rw [hw] at hw'
        cases hw'
        rw [hnext] at hnext'
        cases hnext'
        exact (hnodup.1 (List.mem_map.mpr ⟨lease, hl, hid.symm⟩)).elim
  | claimed hleases hworkers =>
    obtain ⟨rfl, hempty⟩ := ha
    rw [hempty, List.nil_append] at hleases
    refine ⟨fun w hw => ?_, hbounded, ?_, fun lease hl n hn => ?_⟩
    · rcases hworkers w hw with hpolicy | hold
      · exact hpolicy
      · exact h.policies w hold
    · rw [hleases, List.map_map]
      exact claimBatch_distinct.sublist (List.filter_sublist.map _)
    · rw [hleases] at hl
      obtain ⟨c, hc, rfl⟩ := List.mem_map.mp hl
      obtain ⟨hc, hst⟩ := List.mem_filter.mp hc
      have hcount : acceptedAttempts c.captureId s.db = some c.resolutionAttempts :=
        acceptedAttempts_eq_some.mpr
          ⟨c, mem_of_mem_claimBatch hc, rfl, by simpa using hst, rfl⟩
      rcases acceptedAttempts_step hn with hold | ⟨hnone, -⟩ | ⟨_, _, _, _, _, _, ⟨⟩, _⟩
      · rw [hcount] at hold
        cases hold
        exact le_rfl
      · rw [hcount] at hnone
        cases hnone

theorem System.fetched_eq_some {id : Uuid} (h : s.fetched a = some id) :
    ∃ env i outcome w lease permalink, a = .resolve env i outcome ∧ s.workers[i]? = some w ∧
      w.next = some lease ∧ canonicalize lease.canonicalUrl = .ok permalink ∧
      lease.captureId = id := by
  cases a with
  | resolve env i outcome =>
    obtain ⟨lease, hlease, h⟩ := Option.bind_eq_some_iff.mp h
    obtain ⟨w, hw, hnext⟩ := Option.bind_eq_some_iff.mp hlease
    obtain ⟨permalink, hp, hid⟩ := Option.map_eq_some_iff.mp h
    cases hcan : canonicalize lease.canonicalUrl with
    | ok p => exact ⟨env, i, outcome, w, lease, p, rfl, hw, hnext, hcan, hid⟩
    | error e =>
      rw [hcan] at hp
      cases hp
  | _ => cases h

/-- The attempt a rescheduled lease stands for is one its capture has not counted. -/
theorem Tracked.lt_attempt {lease : Leased} {k : Nat} (h : Tracked policy s)
    (hcounter : policy.maxAttempts ≤ 2 ^ 31) (hl : lease ∈ s.leases)
    (hk : acceptedAttempts lease.captureId s.db = some k)
    (hretry : lease.attempt < policy.maxAttempts) : k < min lease.attempt maxI32 := by
  have hspent := h.spent lease hl k hk
  unfold Leased.attempt maxU32 at *
  unfold maxI32
  omega

/-- **A fetch makes progress.** A capture that is still accepted after a fetch counts an attempt
more than before. -/
theorem Tracked.fetched {id : Uuid} {m : Nat} (h : Tracked policy s)
    (hcounter : policy.maxAttempts ≤ 2 ^ 31) (hc : s.Concludes lib a) (hf : s.fetched a = some id)
    (hm : acceptedAttempts id (InstagramArchive.step lib s a).db = some m) :
    ∃ k, acceptedAttempts id s.db = some k ∧ k < m := by
  obtain ⟨env, i, outcome, w, lease, permalink, rfl, hw, hnext, hp, rfl⟩ :=
    System.fetched_eq_some hf
  have hbefore : ∃ k, acceptedAttempts lease.captureId s.db = some k := by
    rcases acceptedAttempts_step hm with hold | ⟨-, -, hother⟩ |
      ⟨_, _, _, _, _, k, -, -, -, -, hk, -⟩
    · exact ⟨m, hold⟩
    · exact (hother env i outcome rfl).elim
    · exact ⟨k, hk⟩
  obtain ⟨k, hk⟩ := hbefore
  refine ⟨k, hk, ?_⟩
  have hdb : (InstagramArchive.step lib s (.resolve env i outcome)).db =
      (Call.resolve lease w.now w.policy outcome).perform lib env s.db := by
    rw [step_db]
    simp [System.call, hw, hnext]
  rw [hdb] at hm
  have hpolicy := h.policies w (List.mem_of_getElem? hw)
  have hprogress : acceptedAttempts lease.captureId
      ((Call.resolve lease w.now w.policy outcome).perform lib env s.db) = none ∨ _ :=
    resolve_progress (hc w lease hw hnext) hk hp
  rcases hprogress with hnone | ⟨hretry, hsome⟩
  · rw [hnone] at hm
    cases hm
  · rw [hsome] at hm
    cases hm
    exact h.lt_attempt hcounter (Tracked.mem_leases hw hnext) hk (hpolicy ▸ hretry)

end Tracking

/-! ## What the fetches of a capture cost -/

/-- The fetches of a capture that are still to come from the last claim. -/
def System.outstanding (id : Uuid) (s : System) : Nat :=
  s.leases.countP fun lease => lease.captureId = id

/-- The attempts of a capture, or of its policy once it is concluded, pay for `n` fetches. -/
def Paid (policy : ResolutionPolicy) (id : Uuid) (n : Nat) (s : System) : Prop :=
  match acceptedAttempts id s.db with
  | some k => n ≤ k
  | none => n + s.outstanding id ≤ policy.maxAttempts

section Cost

variable {lib : Externals} {s : System} {a : Action} {policy : ResolutionPolicy} {id : Uuid}

theorem Tracked.outstanding_le_one (h : Tracked policy s) (id : Uuid) : s.outstanding id ≤ 1 := by
  have hcount := List.nodup_iff_count_le_one.mp h.distinct id
  have heq : (s.leases.map Leased.captureId).count id = s.outstanding id := by
    unfold System.outstanding List.count
    rw [List.countP_map]
    exact List.countP_congr fun x _ => by simp
  omega

/-- A fetch uses up a lease, and only a claim brings one, of an accepted capture. -/
theorem fetched_outstanding (ha : OneResolver policy s a) (id : Uuid) :
    (if s.fetched a = some id then 1 else 0) + (step lib s a).outstanding id ≤ s.outstanding id ∨
      (s.fetched a = none ∧
        (acceptedAttempts id s.db = none → (step lib s a).outstanding id = 0)) := by
  cases step_leasing lib s a with
  | kept hidle hleases hworkers =>
    left
    have hnot : s.fetched a ≠ some id := by
      intro hf
      obtain ⟨env, i, outcome, w, lease, permalink, rfl, hw, hnext, -⟩ := System.fetched_eq_some hf
      have hnone := hidle env i outcome rfl
      rw [hw, Option.bind_some, hnext] at hnone
      cases hnone
    rw [if_neg hnot]
    unfold System.outstanding
    rw [hleases, Nat.zero_add]
  | @taken env i outcome w lease hw hnext hperm hworkers =>
    left
    have hcount : s.outstanding id =
        (if lease.captureId = id then 1 else 0) +
          (step lib s (.resolve env i outcome)).outstanding id := by
      unfold System.outstanding
      rw [hperm.countP_eq, List.countP_cons]
      simp [Nat.add_comm]
    rw [hcount]
    split
    · rename_i hf
      obtain ⟨_, _, _, w', lease', _, ⟨⟩, hw', hnext', -, hid⟩ := System.fetched_eq_some hf
      rw [hw] at hw'
      cases hw'
      rw [hnext] at hnext'
      cases hnext'
      rw [if_pos hid]
    · omega
  | claimed hleases hworkers =>
    right
    refine ⟨rfl, fun hnone => ?_⟩
    unfold System.outstanding
    rw [hleases, ha.2, List.nil_append, List.countP_eq_zero]
    intro lease hl hid
    obtain ⟨c, hc, rfl⟩ := List.mem_map.mp hl
    obtain ⟨hc, hst⟩ := List.mem_filter.mp hc
    have hsome : acceptedAttempts id s.db = some c.resolutionAttempts :=
      acceptedAttempts_eq_some.mpr
        ⟨c, mem_of_mem_claimBatch hc, by simpa using hid, by simpa using hst, rfl⟩
    rw [hnone] at hsome
    cases hsome

/-- **Step lemma.** A step that does not open the capture keeps its fetches paid for. -/
theorem Paid.step {n : Nat} (hpos : 1 ≤ policy.maxAttempts)
    (hcounter : policy.maxAttempts ≤ 2 ^ 31) (ht : Tracked policy s) (ha : OneResolver policy s a)
    (hc : s.Concludes lib a) (hclosed : KeepsClosed lib id s a) (h : Paid policy id n s) :
    Paid policy id (n + if s.fetched a = some id then 1 else 0) (step lib s a) := by
  have hnext : Tracked policy (InstagramArchive.step lib s a) := ht.step hpos ha
  have hone := hnext.outstanding_le_one id
  have huse : _ + (InstagramArchive.step lib s a).outstanding id ≤ _ ∨ _ :=
    fetched_outstanding ha id
  unfold Paid at h ⊢
  cases hafter : acceptedAttempts id (InstagramArchive.step lib s a).db with
  | some m =>
    simp only
    cases hbefore : acceptedAttempts id s.db with
    | none =>
      rw [hclosed hbefore] at hafter
      cases hafter
    | some k =>
      rw [hbefore] at h
      simp only at h
      split
      · rename_i hf
        obtain ⟨k', hk', hlt⟩ := ht.fetched hcounter hc hf hafter
        rw [hbefore] at hk'
        cases hk'
        omega
      · rcases acceptedAttempts_step hafter with hold | ⟨hnone, -⟩ |
          ⟨_, _, _, w, lease, k', -, hw, hnext, rfl, hk', hretry, rfl⟩
        · rw [hbefore] at hold
          cases hold
          omega
        · rw [hbefore] at hnone
          cases hnone
        · rw [ht.policies w (List.mem_of_getElem? hw)] at hretry
          have hlt := ht.lt_attempt hcounter (Tracked.mem_leases hw hnext) hk' hretry
          rw [hbefore] at hk'
          cases hk'
          omega
  | none =>
    simp only
    cases hbefore : acceptedAttempts id s.db with
    | none =>
      rw [hbefore] at h
      simp only at h
      rcases huse with huse | ⟨hnone, hzero⟩
      · omega
      · rw [hzero hbefore, if_neg (by simp [hnone])]
        omega
    | some k =>
      rw [hbefore] at h
      simp only at h
      have hlt := ht.bounded id k hbefore
      rcases huse with huse | ⟨hnone, -⟩
      · have hfirst := ht.outstanding_le_one id
        omega
      · rw [if_neg (by simp [hnone])]
        omega

/-- What is paid for is within the policy. -/
theorem Paid.le {n : Nat} (ht : Tracked policy s) (h : Paid policy id n s) :
    n ≤ policy.maxAttempts := by
  unfold Paid at h
  cases hafter : acceptedAttempts id s.db with
  | some k =>
    rw [hafter] at h
    exact h.trans (ht.bounded id k hafter).le
  | none =>
    rw [hafter] at h
    exact (Nat.le_add_right ..).trans h

/-- The fetches of a run that does not open the capture, by induction on its steps. -/
theorem Paid.run {n : Nat} {actions : List Action} (hpos : 1 ≤ policy.maxAttempts)
    (hcounter : policy.maxAttempts ≤ 2 ^ 31) (ht : Tracked policy s)
    (hg : Guarded (InstagramArchive.step lib)
      (fun s a => (OneResolver policy s a ∧ s.Concludes lib a) ∧ KeepsClosed lib id s a) s actions)
    (h : Paid policy id n s) : n + fetchCount lib id s actions ≤ policy.maxAttempts := by
  induction actions generalizing s n with
  | nil => exact h.le ht
  | cons a rest ih =>
    obtain ⟨⟨⟨ha, hc⟩, hclosed⟩, hrest⟩ := hg
    have hnext := ih (ht.step hpos ha) hrest (h.step hpos hcounter ht ha hc hclosed)
    unfold fetchCount
    omega

end Cost

/-! ## Whole runs -/

/-- **Fetches per capture are bounded** in the runs of one resolver in which every answer
concludes. Each fetch leaves its capture concluded or with more attempts than before, and along
every part of the run that does not open a capture again, the capture is fetched no more often
than the policy allows. -/
theorem fetches_bounded (lib : Externals) (policy : ResolutionPolicy)
    (hpos : 1 ≤ policy.maxAttempts) (hcounter : policy.maxAttempts ≤ 2 ^ 31)
    (actions : List Action)
    (hg : Guarded (step lib) (fun s a => OneResolver policy s a ∧ s.Concludes lib a) {} actions) :
    (∀ before a after, actions = before ++ a :: after →
      let s := run (step lib) {} before
      ∀ id, s.fetched a = some id → ∀ m, acceptedAttempts id (step lib s a).db = some m →
        ∃ k, acceptedAttempts id s.db = some k ∧ k < m) ∧
    ∀ before part after, actions = before ++ part ++ after →
      let s := run (step lib) {} before
      ∀ id, Guarded (step lib) (KeepsClosed lib id) s part →
        fetchCount lib id s part ≤ policy.maxAttempts := by
  have htracked : ∀ before, Guarded (step lib)
      (fun s a => OneResolver policy s a ∧ s.Concludes lib a) {} before →
      Tracked policy (run (step lib) {} before) := fun before hbefore =>
    run_invariant (step lib) _ (Tracked policy) (fun s a ha h => h.step hpos ha.1) hbefore .start
  constructor
  · rintro before a after rfl s id hf m hm
    obtain ⟨hbefore, ha, -⟩ := (guarded_append ..).mp hg
    exact (htracked before hbefore).fetched hcounter ha.2 hf hm
  · rintro before part after rfl s id hclosed
    obtain ⟨hfirst, -⟩ := (guarded_append ..).mp hg
    obtain ⟨hbefore, hpart⟩ := (guarded_append ..).mp hfirst
    have ht := htracked before hbefore
    have hstart : Paid policy id 0 s := by
      have hone : s.outstanding id ≤ 1 := ht.outstanding_le_one id
      unfold Paid
      split
      · exact Nat.zero_le _
      · omega
    have hcount : 0 + fetchCount lib id s part ≤ policy.maxAttempts :=
      Paid.run hpos hcounter ht (hpart.and _ hclosed) hstart
    omega

/-! ## Two passes over one capture -/

/-- The command that opens the capture `101`. -/
def openingCommand : Action :=
  .command (quietEnv 10 100) (browserDelivery 1 2 7 "http://instagr.am/p/A")

/-- Two passes, the second after the lease of the first. -/
def twoPasses (policy : ResolutionPolicy) (answer : SurfaceOutcome) : List Action :=
  [.claim (quietEnv 20 200) 20 policy [],
    .resolve (quietEnv 21 300) 0 answer,
    .claim (quietEnv (20 + LEASE) 400) (20 + LEASE) policy [],
    .resolve (quietEnv (21 + LEASE) 500) 1 answer]

instance (lib : Externals) (id : Uuid) (s : System) (a : Action) :
    Decidable (KeepsClosed lib id s a) :=
  inferInstanceAs (Decidable (acceptedAttempts id s.db = none →
    acceptedAttempts id (step lib s a).db = none))

theorem undrawn_quietEnv {now : Instant} {first : Uuid} {db : Db}
    (hraws : ∀ r ∈ db.rawRecords.rows, r.rawRecordId < first)
    (hmedia : ∀ m ∈ db.media.rows, m.mediaId < first)
    (hrevisions : ∀ r ∈ db.mediaRevisions.rows, r.revisionId < first)
    (hobservations : ∀ o ∈ db.availabilityObservations.rows, o.observationId < first)
    (hevents : ∀ e ∈ db.outboxEvents.rows, e.eventId < first) :
    Undrawn (quietEnv now first) db := by
  have hne : ∀ {u k : Nat}, u < first → u ≠ (quietEnv now first).uuid k := by
    intro u k hu
    change u ≠ first + k
    omega
  exact ⟨fun k r hr => hne (hraws r hr), fun k m hm => hne (hmedia m hm),
    fun k r hr => hne (hrevisions r hr), fun k o ho => hne (hobservations o ho),
    fun k e he => hne (hevents e he)⟩

theorem fetches_bounded_unreachable :
    fetchCount reference 101 (run (step reference) {} [openingCommand])
      (twoPasses ⟨2, 5⟩ .transportFailure) ≤ 2 := by
  have hconcludes : ∀ {env : Env} {lease : Leased} {now : Instant} {db : Db}, env.Quiet →
      Undrawn env db → AnswerConcludes reference env lease now .transportFailure db :=
    fun hq hu => ⟨hq, hu, by rintro _ _ _ _ - - ⟨⟩, by rintro ⟨⟩⟩
  refine (fetches_bounded reference ⟨2, 5⟩ (by decide) (by decide)
    (openingCommand :: twoPasses ⟨2, 5⟩ .transportFailure) ?_).2 [openingCommand] _ [] rfl 101
    (by decide +kernel)
  refine ⟨⟨trivial, trivial⟩, ⟨⟨rfl, by decide +kernel⟩, trivial⟩, ⟨trivial, ?_⟩,
    ⟨⟨rfl, by decide +kernel⟩, trivial⟩, ⟨trivial, ?_⟩, trivial⟩
  · intro w lease _ _
    refine hconcludes (fun _ => rfl) (undrawn_quietEnv ?_ ?_ ?_ ?_ ?_) <;> decide +kernel
  · intro w lease _ _
    refine hconcludes (fun _ => rfl) (undrawn_quietEnv ?_ ?_ ?_ ?_ ?_) <;> decide +kernel

/-- The reference functions with a contract that accepts no text. -/
def refusing : Externals := { reference with parsePostText := fun _ => none }

/-- A caption the contract refuses is fetched after every lease: its capture stays accepted
without an attempt, and one attempt is what the policy allows. -/
theorem refusedCaption_refetched :
    let passes := twoPasses ⟨1, 5⟩ (titledPayload "text")
    Guarded (step refusing) (OneResolver ⟨1, 5⟩) {} (openingCommand :: passes) ∧
      Guarded (step refusing) (KeepsClosed refusing 101)
        (run (step refusing) {} [openingCommand]) passes ∧
      acceptedAttempts 101 (run (step refusing) {} (openingCommand :: passes)).db = some 0 ∧
      ¬ fetchCount refusing 101 (run (step refusing) {} [openingCommand]) passes ≤
        (⟨1, 5⟩ : ResolutionPolicy).maxAttempts := by
  refine ⟨⟨trivial, ⟨rfl, by decide +kernel⟩, trivial, ⟨rfl, by decide +kernel⟩, trivial, trivial⟩,
    by decide +kernel, by decide +kernel, by decide +kernel⟩

end InstagramArchive

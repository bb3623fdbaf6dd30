import InstagramArchive.DataExportReceipt
import InstagramArchive.EvidenceKeys

/-!
# The tables of receipts

A committed receipt either finds the run of its owner and digest or creates a snapshot, a run
and the first transition. `ReceiptTables` is what these tables keep under receipts and under
everything else that happens to a run.
-/

namespace InstagramArchive.DataExport

open Relational Relational.Tx

/-! ## The transaction -/

/-- The columns of a run that its receipt writes. -/
def runReceipt (r : ImportRun) : Uuid × Uuid × Uuid := (r.runId, r.snapshotId, r.userRef)

def receivedTransitions (db : Db) : List ImportRunTransition :=
  db.importRunTransitions.rows.filter fun t => t.toState = .received

def ReceiptOutcome.receipt : ReceiptOutcome → ExportReceipt
  | .created receipt => receipt
  | .replayed receipt => receipt

section Persist

variable {env : Env} {db db' : Db} {userRef : Uuid} {stored : StoredArchive}
  {outcome : ReceiptOutcome}

/-- The rows of a first receipt. -/
structure FirstReceipt (userRef : Uuid) (stored : StoredArchive)
    (snapshotId runId transitionId : Uuid) (receivedAt : Instant) (db db' : Db) : Prop where
  snapshots : db.exportSnapshots.insert?
    { snapshotId, userRef, archiveHash := stored.digest, archive := stored.archive,
      archiveByteSize := stored.byteSize, receivedAt } = some db'.exportSnapshots
  runs : db.importRuns.insert?
    { runId, snapshotId, userRef, state := .received, receivedAt, updatedAt := receivedAt } =
      some db'.importRuns
  transitions : db.importRunTransitions.insert?
    { transitionId, runId, ordinal := 1, fromState := none, toState := .received,
      occurredAt := receivedAt } = some db'.importRunTransitions

theorem persistReceipt_yields (h : (persistReceipt userRef stored).Yields env db outcome db') :
    (∃ runId state, receivedRun userRef stored.digest db = some (runId, state, stored.archive) ∧
      outcome = .replayed ⟨runId, state, stored.archive⟩ ∧ db' = db) ∨
    (snapshotOf userRef stored.digest db = none ∧ ∃ snapshotId runId transitionId receivedAt,
      FirstReceipt userRef stored snapshotId runId transitionId receivedAt db db' ∧
      outcome = .created ⟨runId, .received, stored.archive⟩) := by
  obtain ⟨receivedAt, _, h1, h⟩ := h.bind
  obtain rfl := h1.nowUtc
  obtain ⟨snapshotId, _, h2, h⟩ := h.bind
  obtain rfl := h2.nowV7
  obtain ⟨created, m, h3, h⟩ := h.bind
  rcases h3.insertUnless with ⟨hold, rfl, rfl⟩ | ⟨hnew, rfl, -, snapshots, hsnapshots, rfl⟩
  · left
    obtain ⟨⟨runId, state, existing⟩, _, h4, h⟩ := Yields.bind h
    obtain ⟨hfound, rfl⟩ := h4.fetchOne
    dsimp only at h
    split at h
    · exact h.throw.elim
    · rename_i hsame
      obtain ⟨_, _, h5, h⟩ := h.bind
      obtain rfl := h5.commit
      obtain ⟨rfl, rfl⟩ := yields_pure.mp h
      rw [ne_eq, not_not] at hsame
      subst hsame
      exact ⟨runId, state, hfound, rfl, rfl⟩
  · right
    obtain ⟨runId, _, h4, h⟩ := Yields.bind h
    obtain rfl := h4.nowV7
    obtain ⟨_, _, h5, h⟩ := h.bind
    obtain ⟨-, runs, hruns, rfl⟩ := h5.insertInto
    obtain ⟨transitionId, _, h6, h⟩ := h.bind
    obtain rfl := h6.nowV7
    obtain ⟨_, _, h7, h⟩ := h.bind
    obtain ⟨-, transitions, htransitions, rfl⟩ := h7.insertInto
    obtain ⟨_, _, h8, h⟩ := h.bind
    obtain rfl := h8.commit
    obtain ⟨rfl, rfl⟩ := yields_pure.mp h
    exact ⟨by simpa using hnew, snapshotId, runId, transitionId, receivedAt,
      ⟨hsnapshots, hruns, htransitions⟩, rfl⟩

end Persist

/-! ## What the tables say about the receipts -/

/-- Snapshots, runs and first transitions belong together one by one. -/
structure ReceiptTables (db : Db) : Prop where
  snapshot_unique : ∀ s ∈ db.exportSnapshots, ∀ s' ∈ db.exportSnapshots, s.userRef = s'.userRef →
    s.archiveHash = s'.archiveHash → s = s'
  archived : ∀ s ∈ db.exportSnapshots, s.archive = archiveRef s.archiveHash s.archiveByteSize
  has_run : ∀ s ∈ db.exportSnapshots, ∃ r ∈ db.importRuns, r.snapshotId = s.snapshotId ∧
    r.userRef = s.userRef
  run_unique : ∀ r ∈ db.importRuns, ∀ r' ∈ db.importRuns, r.snapshotId = r'.snapshotId →
    r.runId = r'.runId
  has_snapshot : ∀ r ∈ db.importRuns, ∃ s ∈ db.exportSnapshots, s.snapshotId = r.snapshotId
  has_transition : ∀ r ∈ db.importRuns, ∃ t ∈ receivedTransitions db, t.runId = r.runId
  transition_unique : ∀ t ∈ receivedTransitions db, ∀ t' ∈ receivedTransitions db,
    t.runId = t'.runId → t = t'
  transition_run : ∀ t ∈ receivedTransitions db, ∃ r ∈ db.importRuns, t.runId = r.runId

/-- Nothing a receipt wrote is changed. -/
structure SameReceipts (db db' : Db) : Prop where
  snapshots : db'.exportSnapshots = db.exportSnapshots
  runs : db'.importRuns.rows.map runReceipt = db.importRuns.rows.map runReceipt
  transitions : receivedTransitions db' = receivedTransitions db

section Tables

variable {db db' : Db}

theorem SameReceipts.run_mem (h : SameReceipts db db') {r : ImportRun} (hr : r ∈ db'.importRuns) :
    ∃ r' ∈ db.importRuns, runReceipt r' = runReceipt r := by
  have hm : runReceipt r ∈ db.importRuns.rows.map runReceipt := by
    rw [← h.runs]
    exact List.mem_map_of_mem hr
  exact List.mem_map.mp hm

theorem SameReceipts.symm (h : SameReceipts db db') : SameReceipts db' db :=
  ⟨h.snapshots.symm, h.runs.symm, h.transitions.symm⟩

theorem receivedRun_some {userRef runId : Uuid} {digest : List UInt8} {state : ImportState}
    {archive : BlobRef} (h : receivedRun userRef digest db = some (runId, state, archive)) :
    ∃ s ∈ db.exportSnapshots, s.userRef = userRef ∧ s.archiveHash = digest ∧ s.archive = archive ∧
      ∃ r ∈ db.importRuns, r.snapshotId = s.snapshotId ∧ r.runId = runId ∧ r.state = state := by
  unfold receivedRun at h
  obtain ⟨s, hs, h⟩ := Option.bind_eq_some_iff.mp h
  obtain ⟨r, hr, h⟩ := Option.bind_eq_some_iff.mp h
  cases h
  have hkey : s.userRef = userRef ∧ s.archiveHash = digest := by
    simpa using List.find?_some hs
  exact ⟨s, List.mem_of_find?_eq_some hs, hkey.1, hkey.2, rfl, r, List.mem_of_find?_eq_some hr,
    by simpa using List.find?_some hr, rfl, rfl⟩

theorem mem_receivedTransitions {t : ImportRunTransition} :
    t ∈ receivedTransitions db ↔ t ∈ db.importRunTransitions ∧ t.toState = .received := by
  simp [receivedTransitions, Table.mem_rows]

theorem snapshotOf_none {userRef : Uuid} {digest : List UInt8}
    (h : snapshotOf userRef digest db = none) {s : ExportSnapshot} (hs : s ∈ db.exportSnapshots)
    (howner : s.userRef = userRef) : s.archiveHash ≠ digest := by
  intro hhash
  have hnone := List.find?_eq_none.mp h s hs
  simp [howner, hhash] at hnone

theorem persistReceipt_replays {env : Env} (hq : env.Quiet) {owner runId : Uuid}
    {stored : StoredArchive} {state : ImportState}
    (h : receivedRun owner stored.digest db = some (runId, state, stored.archive)) :
    (persistReceipt owner stored).exec env db =
      (.ok (.replayed ⟨runId, state, stored.archive⟩), db) := by
  have hfound : (snapshotOf owner stored.digest db).isSome = true := by
    cases hcase : snapshotOf owner stored.digest db with
    | none =>
      unfold receivedRun at h
      rw [hcase] at h
      cases h
    | some s => rfl
  have hends : (persistReceipt owner stored).Ends env ⟨db, 0⟩ fun outcome ses =>
      outcome = .replayed ⟨runId, state, stored.archive⟩ ∧ ses.store = db := by
    refine .bind (.nowUtc (.bind (.nowV7 (.bind ?_))))
    refine .insertUnless hq (fun _ => ?_) fun hnew => absurd hfound (by simp [hnew])
    refine .bind (.fetchOne hq h ?_)
    dsimp only
    rw [if_neg (by simp)]
    exact .bind (.commit hq (.pure ⟨rfl, rfl⟩))
  obtain ⟨outcome, ses, hexec, rfl, hstore⟩ := hends.exec
  rw [hexec, hstore]

/-- Other transactions keep what the receipts wrote. -/
theorem ReceiptTables.others (h : ReceiptTables db) (hsame : SameReceipts db db') :
    ReceiptTables db' where
  snapshot_unique := by
    rw [hsame.snapshots]
    exact h.snapshot_unique
  archived := by
    rw [hsame.snapshots]
    exact h.archived
  has_run s hs := by
    rw [hsame.snapshots] at hs
    obtain ⟨r, hr, hrs, howner⟩ := h.has_run s hs
    obtain ⟨r', hr', heq⟩ := hsame.symm.run_mem hr
    simp only [runReceipt, Prod.mk.injEq] at heq
    exact ⟨r', hr', heq.2.1.trans hrs, heq.2.2.trans howner⟩
  run_unique r hr r' hr' hsnapshot := by
    obtain ⟨q, hq, heq⟩ := hsame.run_mem hr
    obtain ⟨q', hq', heq'⟩ := hsame.run_mem hr'
    simp only [runReceipt, Prod.mk.injEq] at heq heq'
    rw [← heq.1, ← heq'.1]
    exact h.run_unique q hq q' hq' (by rw [heq.2.1, heq'.2.1, hsnapshot])
  has_snapshot r hr := by
    rw [hsame.snapshots]
    obtain ⟨q, hq, heq⟩ := hsame.run_mem hr
    simp only [runReceipt, Prod.mk.injEq] at heq
    rw [← heq.2.1]
    exact h.has_snapshot q hq
  has_transition r hr := by
    rw [hsame.transitions]
    obtain ⟨q, hq, heq⟩ := hsame.run_mem hr
    simp only [runReceipt, Prod.mk.injEq] at heq
    rw [← heq.1]
    exact h.has_transition q hq
  transition_unique := by
    rw [hsame.transitions]
    exact h.transition_unique
  transition_run t ht := by
    rw [hsame.transitions] at ht
    obtain ⟨r, hr, hid⟩ := h.transition_run t ht
    obtain ⟨r', hr', heq⟩ := hsame.symm.run_mem hr
    simp only [runReceipt, Prod.mk.injEq] at heq
    exact ⟨r', hr', hid.trans heq.1.symm⟩

/-- A first receipt creates its snapshot, its run and its transition. -/
theorem ReceiptTables.created (h : ReceiptTables db) {owner : Uuid} {digest : List UInt8}
    {byteSize : Nat} {snapshotId runId transitionId : Uuid} {receivedAt : Instant}
    (hnew : snapshotOf owner digest db = none)
    (hfirst : FirstReceipt owner (storedArchive digest byteSize) snapshotId runId transitionId
      receivedAt db db') : ReceiptTables db' := by
  have hsnapshot := Table.mem_of_insert? hfirst.snapshots
  have hrun := Table.mem_of_insert? hfirst.runs
  have hrunId := (Table.insert?_eq_some hfirst.runs).2
  have hsnapshotId := (Table.insert?_eq_some hfirst.snapshots).2
  have hreceived : ∀ t, t ∈ receivedTransitions db' ↔ t ∈ receivedTransitions db ∨
      t = { transitionId, runId, ordinal := 1, fromState := none, toState := .received,
            occurredAt := receivedAt } := by
    intro t
    rw [mem_receivedTransitions, mem_receivedTransitions,
      Table.mem_of_insert? hfirst.transitions t]
    constructor
    · rintro ⟨ht | rfl, hstate⟩
      · exact Or.inl ⟨ht, hstate⟩
      · exact Or.inr rfl
    · rintro (⟨ht, hstate⟩ | rfl)
      · exact ⟨Or.inl ht, hstate⟩
      · exact ⟨Or.inr rfl, rfl⟩
  constructor
  case snapshot_unique =>
    intro s hs s' hs' howner hhash
    rcases (hsnapshot s).mp hs with hs | rfl <;> rcases (hsnapshot s').mp hs' with hs' | rfl
    · exact h.snapshot_unique s hs s' hs' howner hhash
    · exact (snapshotOf_none hnew hs howner hhash).elim
    · exact (snapshotOf_none hnew hs' howner.symm hhash.symm).elim
    · rfl
  case archived =>
    intro s hs
    rcases (hsnapshot s).mp hs with hs | rfl
    · exact h.archived s hs
    · rfl
  case has_run =>
    intro s hs
    rcases (hsnapshot s).mp hs with hs | rfl
    · obtain ⟨r, hr, hkey⟩ := h.has_run s hs
      exact ⟨r, (hrun r).mpr (Or.inl hr), hkey⟩
    · exact ⟨_, (hrun _).mpr (Or.inr rfl), rfl, rfl⟩
  case run_unique =>
    intro r hr r' hr' hsame
    rcases (hrun r).mp hr with hr | rfl <;> rcases (hrun r').mp hr' with hr' | rfl
    · exact h.run_unique r hr r' hr' hsame
    · obtain ⟨s, hs, hid⟩ := h.has_snapshot r hr
      exact (hsnapshotId s hs (hid.trans hsame)).elim
    · obtain ⟨s, hs, hid⟩ := h.has_snapshot r' hr'
      exact (hsnapshotId s hs (hid.trans hsame.symm)).elim
    · rfl
  case has_snapshot =>
    intro r hr
    rcases (hrun r).mp hr with hr | rfl
    · obtain ⟨s, hs, hid⟩ := h.has_snapshot r hr
      exact ⟨s, (hsnapshot s).mpr (Or.inl hs), hid⟩
    · exact ⟨_, (hsnapshot _).mpr (Or.inr rfl), rfl⟩
  case has_transition =>
    intro r hr
    rcases (hrun r).mp hr with hr | rfl
    · obtain ⟨t, ht, hid⟩ := h.has_transition r hr
      exact ⟨t, (hreceived t).mpr (Or.inl ht), hid⟩
    · exact ⟨_, (hreceived _).mpr (Or.inr rfl), rfl⟩
  case transition_unique =>
    intro t ht t' ht' hsame
    rcases (hreceived t).mp ht with ht | rfl <;> rcases (hreceived t').mp ht' with ht' | rfl
    · exact h.transition_unique t ht t' ht' hsame
    · obtain ⟨r, hr, hid⟩ := h.transition_run t ht
      exact (hrunId r hr (hid.symm.trans hsame)).elim
    · obtain ⟨r, hr, hid⟩ := h.transition_run t' ht'
      exact (hrunId r hr (hid.symm.trans hsame.symm)).elim
    · rfl
  case transition_run =>
    intro t ht
    rcases (hreceived t).mp ht with ht | rfl
    · obtain ⟨r, hr, hid⟩ := h.transition_run t ht
      exact ⟨r, (hrun r).mpr (Or.inl hr), hid⟩
    · exact ⟨_, (hrun _).mpr (Or.inr rfl), rfl⟩

end Tables

end InstagramArchive.DataExport

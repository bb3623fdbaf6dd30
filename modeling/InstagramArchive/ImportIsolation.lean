import InstagramArchive.ImportFrames
import InstagramArchive.ImportPasses

/-!
# One run beside another

A pass of the worker goes through its batch in order and ends at the first run that fails for
another reason than its archive. A run is therefore taken along as if another one were not there
as long as it stands before that one. A run that stands behind one that keeps failing is never
reached.
-/

namespace InstagramArchive.DataExport

open Relational Relational.Tx Relational.Script

/-! ## What is brought about for a run -/

def runFacts (runId : Uuid) (db : Db) : Set OutboxEvent :=
  { e | e ∈ db.outboxEvents ∧ ∃ r ∈ db.importRuns, r.runId = runId ∧ RunFact db r e }

/-- The state of a run, what it has recorded and staged, its report and its facts. -/
structure RunOutcome where
  row : Option ImportRun
  transitions : List ImportRunTransition
  records : List ExportRecord
  reports : List ExportCompletenessReport
  facts : Set OutboxEvent

def runOutcome (runId : Uuid) (db : Db) : RunOutcome where
  row := db.importRuns.lookup runId
  transitions := runTransitions runId db
  records := runRecords runId db
  reports := runReports runId db
  facts := runFacts runId db

/-- No fact is one of two runs. -/
def FactsApart (db : Db) : Prop :=
  ∀ r ∈ db.importRuns, ∀ r' ∈ db.importRuns, ∀ e, RunFact db r e → RunFact db r' e →
    r.runId = r'.runId

/-- The outcome of a run stays. -/
structure KeepsRun (runId : Uuid) (db db' : Db) : Prop where
  snapshots : db'.exportSnapshots = db.exportSnapshots
  receipts : db'.importRuns.rows.map runReceipt = db.importRuns.rows.map runReceipt
  outcome : runOutcome runId db' = runOutcome runId db

section Outcome

variable {lib : Externals} {b : ImportRun} {ids : Set Uuid} {db db' db'' : Db} {runId : Uuid}

theorem KeepsRun.refl (db : Db) : KeepsRun runId db db := ⟨rfl, rfl, rfl⟩

theorem KeepsRun.trans (h : KeepsRun runId db db') (h' : KeepsRun runId db' db'') :
    KeepsRun runId db db'' where
  snapshots := h'.snapshots.trans h.snapshots
  receipts := h'.receipts.trans h.receipts
  outcome := h'.outcome.trans h.outcome

theorem KeepsRun.hasRun (h : KeepsRun runId db db') {state : ImportState}
    (hrun : HasRun runId state db) : HasRun runId state db' := by
  obtain ⟨r, hr, rfl, hstate, s, hs, hsid⟩ := hrun
  have hrow : db'.importRuns.lookup r.runId = some r := by
    rw [← Table.lookup_mem hr]
    exact congrArg RunOutcome.row h.outcome
  exact ⟨r, (Table.lookup_eq_some.mp hrow).1, rfl, hstate, s, h.snapshots ▸ hs, hsid⟩

/-- Where the receipts stay, the run is there, in whatever state. -/
theorem HasRun.of_receipts {state : ImportState} (h : HasRun runId state db)
    (hreceipts : db'.importRuns.rows.map runReceipt = db.importRuns.rows.map runReceipt)
    (hsnapshots : db'.exportSnapshots = db.exportSnapshots) :
    ∃ state', HasRun runId state' db' := by
  obtain ⟨r, hr, rfl, -, s, hs, hsid⟩ := h
  have hm : runReceipt r ∈ db'.importRuns.rows.map runReceipt := by
    rw [hreceipts]
    exact List.mem_map_of_mem hr
  obtain ⟨q, hq, heq⟩ := List.mem_map.mp hm
  simp only [runReceipt, Prod.mk.injEq] at heq
  exact ⟨q.state, q, hq, heq.1, rfl, s, hsnapshots ▸ hs, hsid.trans heq.2.1.symm⟩

theorem FactsApart.of_receipts (h : FactsApart db) (hreceipts : db'.importRuns.rows.map runReceipt =
      db.importRuns.rows.map runReceipt) (hsnapshots : db'.exportSnapshots = db.exportSnapshots) :
    FactsApart db' := by
  intro r hr r' hr' e he he'
  obtain ⟨q, hq, hqid, hfact⟩ := runFact_of_receipts hreceipts hsnapshots hr he
  obtain ⟨q', hq', hqid', hfact'⟩ := runFact_of_receipts hreceipts hsnapshots hr' he'
  rw [← hqid, ← hqid']
  exact h q hq q' hq' e hfact hfact'

/-- What is written for another run is not about this one. -/
theorem RunWrites.keeps {other : Uuid} (h : RunWrites other db db') (hfacts : FactsApart db)
    (hother : runId ≠ other) : KeepsRun runId db db' where
  snapshots := h.snapshots
  receipts := h.receipts
  outcome := by
    have hset : runFacts runId db' = runFacts runId db := by
      obtain ⟨facts, hrows, hnew⟩ := h.facts
      ext e
      constructor
      · rintro ⟨he, r, hr, rfl, hfact⟩
        obtain ⟨q, hq, hqid, hqfact⟩ := runFact_of_receipts h.receipts h.snapshots hr hfact
        rw [Table.mem_rows, hrows, List.mem_append] at he
        rcases he with he | he
        · exact ⟨he, q, hq, hqid, hqfact⟩
        · obtain ⟨p, hp, hpid, hpfact⟩ := hnew e he
          exact (hother (hqid.symm.trans ((hfacts q hq p hp e hqfact hpfact).trans hpid))).elim
      · rintro ⟨he, r, hr, rfl, hfact⟩
        obtain ⟨q, hq, hqid, hqfact⟩ :=
          runFact_of_receipts h.receipts.symm h.snapshots.symm hr hfact
        refine ⟨?_, q, hq, hqid, hqfact⟩
        rw [Table.mem_rows, hrows]
        exact List.mem_append_left _ he
    unfold runOutcome
    rw [h.runs runId hother, h.transitions runId hother, h.records runId hother,
      h.reports runId hother, hset]

/-- The outcome of a run beside the removed one. -/
theorem Apart.outcome (h : Apart lib b ids db) (hrun : runId ≠ b.runId) :
    runOutcome runId (withoutRun b db) = runOutcome runId db := by
  have htransitions : runTransitions runId (withoutRun b db) = runTransitions runId db := by
    refine Table.filter_delete db.importRunTransitions _ fun x hx => ?_
    simp only [decide_eq_true_eq] at hx
    simpa [hx] using hrun
  have hrecords : runRecords runId (withoutRun b db) = runRecords runId db := by
    refine Table.filter_delete db.exportRecords _ fun x hx => ?_
    simp only [decide_eq_true_eq] at hx
    simpa [hx] using hrun
  have hfacts : runFacts runId (withoutRun b db) = runFacts runId db := by
    ext e
    constructor
    · rintro ⟨he, r, hr, hid, s, hs, hfact⟩
      exact ⟨he, r, ((Table.mem_delete _ _ r).mp hr).1, hid, s, ((Table.mem_delete _ _ s).mp hs).1,
        hfact⟩
    · rintro ⟨he, r, hr, rfl, s, hs, hsid, hfact⟩
      refine ⟨he, r, (Table.mem_delete _ _ r).mpr ⟨hr, by simpa using hrun⟩, rfl, s, ?_, hsid,
        hfact⟩
      refine (Table.mem_delete _ _ s).mpr ⟨hs, ?_⟩
      rw [decide_eq_false_iff_not]
      exact fun hsame => hrun (h.snapshot r hr (hsid.symm.trans hsame))
  unfold runOutcome
  rw [lookup_withoutRun hrun, htransitions, hrecords, hfacts]
  rfl

theorem FactsApart.withoutRun (h : FactsApart db) (b : ImportRun) :
    FactsApart (withoutRun b db) := by
  rintro r hr r' hr' e ⟨s, hs, hfact⟩ ⟨s', hs', hfact'⟩
  exact h r ((Table.mem_delete _ _ r).mp hr).1 r' ((Table.mem_delete _ _ r').mp hr').1 e
    ⟨s, ((Table.mem_delete _ _ s).mp hs).1, hfact⟩
    ⟨s', ((Table.mem_delete _ _ s').mp hs').1, hfact'⟩

end Outcome

/-! ## Sweeps -/

section Sweep

variable {lib : Externals} {b : ImportRun} {ids : Set Uuid} {turns : Turns} {db : Db} {runId : Uuid}

theorem advance_keeps (hfacts : FactsApart db) {other : Uuid} (hother : other ≠ runId)
    (state : ImportState) (n : Nat) :
    KeepsRun runId db ((advance lib other state).eval turns n db).2.2 :=
  ((advance_writes other state).eval turns n db).keeps hfacts hother.symm

theorem KeepsRun.factsApart {db' : Db} (h : KeepsRun runId db db') (hfacts : FactsApart db) :
    FactsApart db' := hfacts.of_receipts h.receipts h.snapshots

/-- A sweep without the run keeps it. -/
theorem sweep_keeps {rows : List (Uuid × ImportState)} (hrows : ∀ x ∈ rows, x.1 ≠ runId)
    (n : Nat) (hfacts : FactsApart db) : KeepsRun runId db (sweep lib turns rows n db) := by
  induction rows generalizing n db with
  | nil => exact .refl db
  | cons row rest ih =>
    obtain ⟨other, state⟩ := row
    have hkeeps : KeepsRun runId db ((advance lib other state).eval turns n db).2.2 :=
      advance_keeps hfacts (hrows _ List.mem_cons_self) state n
    have hrest : ∀ x ∈ rest, x.1 ≠ runId := fun x hx => hrows x (List.mem_cons_of_mem _ hx)
    unfold sweep
    split
    · rename_i heval
      rw [heval] at hkeeps
      exact hkeeps.trans (ih hrest _ (hkeeps.factsApart hfacts))
    · rename_i heval
      rw [heval] at hkeeps
      exact hkeeps.trans (ih hrest _ (hkeeps.factsApart hfacts))
    · rename_i heval
      rw [heval] at hkeeps
      exact hkeeps

/-- What a sweep over `rows` comes to beside the run `b`: it ends within them, in both stores, or
goes on behind them, in both stores from the same step. -/
def SweptBeside (lib : Externals) (b : ImportRun) (turns : Turns) (rows : List (Uuid × ImportState))
    (n : Nat) (db db' : Db) : Prop :=
  (∀ t t', sweep lib turns (rows ++ t) n db = db' ∧
      sweep lib turns (rows ++ t') n (withoutRun b db) = withoutRun b db') ∨
    ∃ n', ∀ t t', sweep lib turns (rows ++ t) n db = sweep lib turns t n' db' ∧
      sweep lib turns (rows ++ t') n (withoutRun b db) = sweep lib turns t' n' (withoutRun b db')

/-- **A sweep over other runs than `b` goes alike with and without it.** -/
theorem sweep_beside (hfree : lib.CollisionFree) (hturns : ∀ n, DrawsOutside ids (turns n).1)
    {rows : List (Uuid × ImportState)} (hrows : ∀ x ∈ rows, x.1 ≠ b.runId ∧ x.1 ≠ runId) (n : Nat)
    (hapart : Apart lib b ids db) (hfacts : FactsApart db) :
    ∃ db', Apart lib b ids db' ∧ KeepsRun runId db db' ∧ SweptBeside lib b turns rows n db db' := by
  induction rows generalizing n db with
  | nil => exact ⟨db, hapart, .refl db, Or.inr ⟨n, fun _ _ => ⟨rfl, rfl⟩⟩⟩
  | cons row rest ih =>
    obtain ⟨other, state⟩ := row
    obtain ⟨hb, hrun⟩ := hrows _ List.mem_cons_self
    have hrest : ∀ x ∈ rest, x.1 ≠ b.runId ∧ x.1 ≠ runId :=
      fun x hx => hrows x (List.mem_cons_of_mem _ hx)
    obtain ⟨heval, hapart'⟩ := (advance_beside hfree hb state).eval hturns n hapart
    have hkeeps : KeepsRun runId db ((advance lib other state).eval turns n db).2.2 :=
      advance_keeps hfacts hrun state n
    cases hcase : (advance lib other state).eval turns n db with
    | mk result after =>
      obtain ⟨n', m⟩ := after
      rw [hcase] at hapart' hkeeps
      obtain ⟨db', hdb', hkeeps', hswept⟩ := ih hrest n' hapart' (hkeeps.factsApart hfacts)
      have hgo : SweptBeside lib b turns rest n' m db' →
          (∀ t t', sweep lib turns ((other, state) :: rest ++ t) n db =
              sweep lib turns (rest ++ t) n' m ∧
            sweep lib turns ((other, state) :: rest ++ t') n (withoutRun b db) =
              sweep lib turns (rest ++ t') n' (withoutRun b m)) →
          SweptBeside lib b turns ((other, state) :: rest) n db db' := by
        rintro hswept hsame
        rcases hswept with hstop | ⟨n'', hon⟩
        · left
          intro t t'
          rw [(hsame t t').1, (hsame t t').2]
          exact hstop t t'
        · right
          refine ⟨n'', fun t t' => ?_⟩
          rw [(hsame t t').1, (hsame t t').2]
          exact hon t t'
      -- both stores take the row alike; what they go on with depends on its result
      cases result with
      | ok _ =>
        refine ⟨db', hdb', hkeeps.trans hkeeps', hgo hswept fun t t' => ?_⟩
        rw [List.cons_append, List.cons_append, sweep, sweep, heval, hcase]
        exact ⟨rfl, rfl⟩
      | error e =>
        cases e with
        | stateConflict =>
          refine ⟨db', hdb', hkeeps.trans hkeeps', hgo hswept fun t t' => ?_⟩
          rw [List.cons_append, List.cons_append, sweep, sweep, heval, hcase]
          exact ⟨rfl, rfl⟩
        | archive _ | parser _ | publish _ | reconciliation | receipt _ =>
          refine ⟨m, hapart', hkeeps, Or.inl fun t t' => ?_⟩
          rw [List.cons_append, List.cons_append, sweep, sweep, heval, hcase]
          exact ⟨rfl, rfl⟩

end Sweep

/-! ## Batches -/

section Batch

variable {lib : Externals} {b r : ImportRun} {ids : Set Uuid} {turns : Turns} {batchSize : Nat}
  {db db' : Db} {runId : Uuid}

instance : Std.Total runBefore where
  total a b := le_total (toLex (a.updatedAt, a.runId)) (toLex (b.updatedAt, b.runId))

instance : IsTrans ImportRun runBefore where
  trans a b _ := le_trans (a := toLex (a.updatedAt, a.runId)) (b := toLex (b.updatedAt, b.runId))

theorem runBefore_antisymm {a c : ImportRun} (h : runBefore a c) (h' : runBefore c a) :
    a.runId = c.runId := by
  have heq : toLex (a.updatedAt, a.runId) = toLex (c.updatedAt, c.runId) := le_antisymm h h'
  exact congrArg Prod.snd (toLex.injective heq)

theorem mem_pendingRuns {x : ImportRun} :
    x ∈ pendingRuns db ↔ x ∈ db.importRuns ∧ ImportState.pending x.state = true := by
  rw [pendingRuns, List.mem_insertionSort, List.mem_filter, Table.mem_rows]

theorem pendingRuns_pairwise : (pendingRuns db).Pairwise runBefore :=
  List.pairwise_insertionSort runBefore _

theorem pendingRuns_withoutRun (b : ImportRun) (db : Db) :
    pendingRuns (withoutRun b db) = (pendingRuns db).filter fun x => x.runId ≠ b.runId := by
  refine List.Perm.eq_of_pairwise ?_ pendingRuns_pairwise
    (pendingRuns_pairwise.filter _) ?_
  · intro x y hx hy h h'
    obtain ⟨hx, -⟩ := mem_pendingRuns.mp hx
    obtain ⟨hy, -⟩ := mem_pendingRuns.mp (List.mem_filter.mp hy).1
    exact Table.eq_of_key_eq ((Table.mem_delete _ _ x).mp hx).1 hy (runBefore_antisymm h h')
  · refine (List.perm_insertionSort _ _).trans (List.Perm.trans ?_
      ((List.perm_insertionSort _ _).filter _).symm)
    rw [List.filter_filter]
    change (List.filter _ (db.importRuns.rows.filter _)).Perm _
    rw [List.filter_filter]
    refine List.Perm.of_eq (List.filter_congr fun x _ => ?_)
    rw [Bool.and_comm]
    simp

/-- The pending runs around one that is before `b`. -/
theorem split_pendingRuns (hb : b ∈ db.importRuns) (hr : r ∈ pendingRuns db)
    (hne : r.runId ≠ b.runId) (hbefore : runBefore r b) :
    ∃ p rest, pendingRuns db = p ++ r :: rest ∧
      (∀ x ∈ p, x.runId ≠ b.runId ∧ x.runId ≠ r.runId) ∧ ∀ x ∈ rest, x.runId ≠ r.runId := by
  have hkeys : ((pendingRuns db).map ImportRun.runId).Nodup := by
    refine (((List.perm_insertionSort _ _).map _).nodup_iff).mpr ?_
    exact db.importRuns.nodup.sublist (List.filter_sublist.map _)
  obtain ⟨p, rest, hsplit⟩ := List.append_of_mem hr
  have hsorted : (pendingRuns db).Pairwise runBefore := pendingRuns_pairwise
  rw [hsplit] at hkeys hsorted
  rw [List.map_append, List.map_cons, List.nodup_append, List.nodup_cons] at hkeys
  obtain ⟨-, ⟨hrest, -⟩, hdisjoint⟩ := hkeys
  refine ⟨p, rest, hsplit, fun x hx => ⟨fun hid => ?_, fun hid => ?_⟩, fun x hx hid => ?_⟩
  · -- `b` in front of the run would be before it
    have hm : x ∈ pendingRuns db := by
      rw [hsplit]
      exact List.mem_append_left _ hx
    obtain rfl := Table.eq_of_key_eq (mem_pendingRuns.mp hm).1 hb hid
    have hxr := (List.pairwise_append.mp hsorted).2.2 x hx r List.mem_cons_self
    exact hne (runBefore_antisymm hbefore hxr)
  · exact hdisjoint _ (List.mem_map_of_mem hx) _ List.mem_cons_self hid
  · exact hrest (List.mem_map.mpr ⟨x, hx, hid⟩)

theorem HasRun.lookup {state : ImportState} (h : HasRun runId state db) :
    ∃ r, db.importRuns.lookup runId = some r ∧ r.runId = runId ∧ r.state = state := by
  obtain ⟨r, hr, rfl, hstate, -⟩ := h
  exact ⟨r, Table.lookup_mem hr, rfl, hstate⟩

/-- A run that ended is in no batch. -/
theorem Ended.not_pending (h : Ended runId db) : ∀ x ∈ pendingRuns db, x.runId ≠ runId := by
  obtain ⟨state, hrun, hstate⟩ := h
  rintro x hx rfl
  obtain ⟨hx, hpending⟩ := mem_pendingRuns.mp hx
  obtain ⟨r, hr, -, rfl⟩ := hrun.lookup
  rw [Table.lookup_mem hx, Option.some.injEq] at hr
  subst hr
  rw [hpending] at hstate
  cases hstate

theorem afterPass_keeps (hfacts : FactsApart db)
    (hbatch : ∀ x ∈ pendingRuns db, x.runId ≠ runId) :
    KeepsRun runId db (afterPass lib batchSize turns db) := by
  rw [afterPass_eq]
  split
  · exact .refl db
  · refine sweep_keeps (fun x hx => ?_) 1 hfacts
    obtain ⟨y, hy, rfl⟩ := List.mem_map.mp hx
    exact hbatch y (List.mem_of_mem_take hy)

theorem Apart.hasRun (h : Apart lib b ids db) {state : ImportState} (hrun : HasRun runId state db)
    (hne : runId ≠ b.runId) : HasRun runId state (withoutRun b db) := by
  obtain ⟨r, hr, rfl, hstate, s, hs, hsid⟩ := hrun
  refine ⟨r, (Table.mem_delete _ _ r).mpr ⟨hr, by simpa using hne⟩, rfl, hstate, s, ?_, hsid⟩
  refine (Table.mem_delete _ _ s).mpr ⟨hs, ?_⟩
  rw [decide_eq_false_iff_not]
  exact fun hsame => hne (h.snapshot r hr (hsid.symm.trans hsame))

/-- How the two stores go on. While the run is pending the second is the first without `b`; when
it has ended, nothing changes its outcome in either. -/
inductive Along (lib : Externals) (b : ImportRun) (ids : Set Uuid) (runId : Uuid) (db db' : Db) :
    Prop
  | beside {state : ImportState} (hsame : db' = withoutRun b db) (hapart : Apart lib b ids db)
      (hfacts : FactsApart db) (hrun : HasRun runId state db)
  | ended {state : ImportState} (hrun : HasRun runId state db) (hrun' : HasRun runId state db')
      (hstate : ImportState.pending state = false) (hfacts : FactsApart db)
      (hfacts' : FactsApart db') (houtcome : runOutcome runId db = runOutcome runId db')

theorem Along.outcome (h : Along lib b ids runId db db') (hne : runId ≠ b.runId) :
    runOutcome runId db = runOutcome runId db' := by
  cases h with
  | beside hsame hapart _ _ =>
    rw [hsame]
    exact (hapart.outcome hne).symm
  | ended _ _ _ _ _ houtcome => exact houtcome

/-- From a store in which the run ended, whatever keeps it. -/
theorem Along.of_ended {m : Db} (hapart : Apart lib b ids m) (hfacts : FactsApart m)
    (hended : Ended runId m) (hne : runId ≠ b.runId) (hkeeps : KeepsRun runId m db)
    (hkeeps' : KeepsRun runId (withoutRun b m) db') : Along lib b ids runId db db' := by
  obtain ⟨state, hrun, hstate⟩ := hended
  refine .ended (hkeeps.hasRun hrun) (hkeeps'.hasRun (hapart.hasRun hrun hne)) hstate
    (hkeeps.factsApart hfacts) (hkeeps'.factsApart (hfacts.withoutRun b)) ?_
  rw [hkeeps.outcome, hkeeps'.outcome, hapart.outcome hne]

theorem take_split {α : Type} (p : List α) (x : α) (rest : List α) {n : Nat} (h : p.length < n) :
    (p ++ x :: rest).take n = p ++ x :: rest.take (n - p.length - 1) := by
  obtain ⟨k, rfl⟩ : ∃ k, n = p.length + (k + 1) := ⟨n - p.length - 1, by omega⟩
  rw [List.take_append]
  have hk : p.length + (k + 1) - p.length = k + 1 := by omega
  rw [hk, List.take_of_length_le (by omega), List.take_succ_cons, Nat.add_sub_cancel]

theorem take_within {α : Type} (p : List α) (rest : List α) {n : Nat} (h : n ≤ p.length) :
    (p ++ rest).take n = p.take n := by
  rw [List.take_append, Nat.sub_eq_zero_of_le h, List.take_zero, List.append_nil]

/-- The batch around a run before `b`, in both stores: the same up to the run, or the run and what
stands before it alike. -/
theorem batch_beside (batchSize : Nat) (hb : b ∈ db.importRuns) (hr : r ∈ pendingRuns db)
    (hne : r.runId ≠ b.runId) (hbefore : runBefore r b) :
    ∃ rows, (∀ x ∈ rows, x.1 ≠ b.runId ∧ x.1 ≠ r.runId) ∧
      ((batch batchSize db = rows ∧ batch batchSize (withoutRun b db) = rows) ∨
        ∃ t t', (∀ x ∈ t, x.1 ≠ r.runId) ∧ (∀ x ∈ t', x.1 ≠ r.runId) ∧
          batch batchSize db = rows ++ (r.runId, r.state) :: t ∧
          batch batchSize (withoutRun b db) = rows ++ (r.runId, r.state) :: t') := by
  obtain ⟨p, rest, hsplit, hp, hrest⟩ := split_pendingRuns hb hr hne hbefore
  have hfilter : pendingRuns (withoutRun b db) =
      p ++ r :: rest.filter fun x => x.runId ≠ b.runId := by
    have hkept : p.filter (fun x => x.runId ≠ b.runId) = p :=
      List.filter_eq_self.mpr fun x hx => by simpa using (hp x hx).1
    rw [pendingRuns_withoutRun, hsplit, List.filter_append, hkept, List.filter_cons_of_pos]
    simpa using hne
  unfold batch
  rw [hfilter, hsplit]
  by_cases hn : batchSize ≤ p.length
  · refine ⟨(p.take batchSize).map fun x => (x.runId, x.state), fun x hx => ?_, Or.inl ?_⟩
    · obtain ⟨y, hy, rfl⟩ := List.mem_map.mp hx
      exact hp y (List.mem_of_mem_take hy)
    · rw [take_within p _ hn, take_within p _ hn]
      exact ⟨rfl, rfl⟩
  · have hn : p.length < batchSize := Nat.lt_of_not_le hn
    refine ⟨p.map fun x => (x.runId, x.state), fun x hx => ?_, Or.inr ?_⟩
    · obtain ⟨y, hy, rfl⟩ := List.mem_map.mp hx
      exact hp y hy
    · rw [take_split p r _ hn, take_split p r _ hn, List.map_append, List.map_cons, List.map_append,
        List.map_cons]
      refine ⟨_, _, fun x hx => ?_, fun x hx => ?_, rfl, rfl⟩
      · obtain ⟨y, hy, rfl⟩ := List.mem_map.mp hx
        exact hrest y (List.mem_of_mem_take hy)
      · obtain ⟨y, hy, rfl⟩ := List.mem_map.mp hx
        exact hrest y (List.mem_filter.mp (List.mem_of_mem_take hy)).1

/-- A sweep up to the run and over it: the run ends, or the sweep does. -/
theorem sweep_over (hfree : lib.CollisionFree) (hlen : ∀ text, (lib.sha256 text).length = 32)
    (hturns : ∀ n, DrawsOutside ids (turns n).1) (hne : runId ≠ b.runId) {state : ImportState}
    (n : Nat) (hapart : Apart lib b ids db) (hfacts : FactsApart db) (hrun : HasRun runId state db)
    {t t' : List (Uuid × ImportState)} (ht : ∀ x ∈ t, x.1 ≠ runId) (ht' : ∀ x ∈ t', x.1 ≠ runId) :
    Along lib b ids runId (sweep lib turns ((runId, state) :: t) n db)
      (sweep lib turns ((runId, state) :: t') n (withoutRun b db)) := by
  obtain ⟨heval, hapart'⟩ := (advance_beside hfree hne state).eval hturns n hapart
  have hend := (advance_ensures hlen hrun).eval turns n
  have hwrites : RunWrites runId db ((advance lib runId state).eval turns n db).2.2 :=
    (advance_writes runId state).eval turns n db
  have hfacts' := hfacts.of_receipts hwrites.receipts hwrites.snapshots
  have hrun' := hrun.of_receipts hwrites.receipts hwrites.snapshots
  unfold sweep
  rw [heval]
  cases hcase : (advance lib runId state).eval turns n db with
  | mk result after =>
    obtain ⟨n', m⟩ := after
    rw [hcase] at hapart' hend hfacts' hrun'
    cases result with
    | ok _ =>
      exact .of_ended hapart' hfacts' hend hne (sweep_keeps ht n' hfacts')
        (sweep_keeps ht' n' (hfacts'.withoutRun b))
    | error e =>
      obtain ⟨state', hrun'⟩ := hrun'
      cases e with
      | stateConflict => exact (hend trivial).elim
      | archive _ | parser _ | publish _ | reconciliation | receipt _ =>
        exact .beside rfl hapart' hfacts' hrun'

/-- **A pass with the run in front of `b`.** -/
theorem Along.pass (hfree : lib.CollisionFree) (hlen : ∀ text, (lib.sha256 text).length = 32)
    (hturns : ∀ n, DrawsOutside ids (turns n).1) (hne : runId ≠ b.runId)
    (hb : ImportState.pending b.state = true)
    (hbefore : ∀ x ∈ pendingRuns db, x.runId = runId → ∀ y ∈ pendingRuns db, y.runId = b.runId →
      runBefore x y) (h : Along lib b ids runId db db') :
    Along lib b ids runId (afterPass lib batchSize turns db)
      (afterPass lib batchSize turns db') := by
  cases h with
  | ended hrun hrun' hstate hfacts hfacts' houtcome =>
    have hkeeps : KeepsRun runId db (afterPass lib batchSize turns db) :=
      afterPass_keeps hfacts (Ended.not_pending ⟨_, hrun, hstate⟩)
    have hkeeps' : KeepsRun runId db' (afterPass lib batchSize turns db') :=
      afterPass_keeps hfacts' (Ended.not_pending ⟨_, hrun', hstate⟩)
    refine .ended (hkeeps.hasRun hrun) (hkeeps'.hasRun hrun') hstate (hkeeps.factsApart hfacts)
      (hkeeps'.factsApart hfacts') ?_
    rw [hkeeps.outcome, hkeeps'.outcome, houtcome]
  | @beside state hsame hapart hfacts hrun =>
    subst hsame
    by_cases hpending : ImportState.pending state = true
    · obtain ⟨r, hr, rfl, rfl, -⟩ := id hrun
      have hrp : r ∈ pendingRuns db := mem_pendingRuns.mpr ⟨hr, hpending⟩
      have hbp : b ∈ pendingRuns db := mem_pendingRuns.mpr ⟨hapart.row, hb⟩
      obtain ⟨rows, hrows, hbatch⟩ := batch_beside batchSize hapart.row hrp hne
        (hbefore r hrp rfl b hbp rfl)
      obtain ⟨m, hapart', hkeeps, hswept⟩ := sweep_beside hfree hturns hrows 1 hapart hfacts
      have hfacts' := hkeeps.factsApart hfacts
      rw [afterPass_eq, afterPass_eq]
      split
      · exact .beside rfl hapart hfacts hrun
      rcases hbatch with ⟨hrowsA, hrowsB⟩ | ⟨t, t', ht, ht', hrowsA, hrowsB⟩
      · rw [hrowsA, hrowsB]
        rcases hswept with hstop | ⟨n', hon⟩
        · obtain ⟨h1, h2⟩ := hstop [] []
          rw [List.append_nil] at h1 h2
          rw [h1, h2]
          exact .beside rfl hapart' hfacts' (hkeeps.hasRun hrun)
        · obtain ⟨h1, h2⟩ := hon [] []
          rw [List.append_nil] at h1 h2
          rw [h1, h2]
          exact .beside rfl hapart' hfacts' (hkeeps.hasRun hrun)
      · rw [hrowsA, hrowsB]
        rcases hswept with hstop | ⟨n', hon⟩
        · obtain ⟨h1, h2⟩ := hstop ((r.runId, r.state) :: t) ((r.runId, r.state) :: t')
          rw [h1, h2]
          exact .beside rfl hapart' hfacts' (hkeeps.hasRun hrun)
        · obtain ⟨h1, h2⟩ := hon ((r.runId, r.state) :: t) ((r.runId, r.state) :: t')
          rw [h1, h2]
          exact sweep_over hfree hlen hturns hne n' hapart' hfacts' (hkeeps.hasRun hrun) ht ht'
    · have hended : Ended runId db := ⟨state, hrun, by simpa using hpending⟩
      have hended' : Ended runId (DataExport.withoutRun b db) :=
        ⟨state, hapart.hasRun hrun hne, by simpa using hpending⟩
      exact .of_ended hapart hfacts hended hne (afterPass_keeps hfacts hended.not_pending)
        (afterPass_keeps (hfacts.withoutRun b) hended'.not_pending)

end Batch

/-! ## Runs of the worker -/

section Reached

variable {lib : Externals} {db : Db} {r b : ImportRun}

theorem ImportTables.factsApart (h : ImportTables db) : FactsApart db :=
  fun _ hr _ hr' _ he he' => congrArg ImportRun.runId (runFact_unique h.receipts hr hr' he he')

theorem ImportTables.hasRun (h : ImportTables db) (hr : r ∈ db.importRuns) :
    HasRun r.runId r.state db := by
  obtain ⟨s, hs, hsid⟩ := h.receipts.has_snapshot r hr
  exact ⟨r, hr, rfl, rfl, s, hs, hsid⟩

/-- The identities that the transitions of a run have. -/
def transitionIds (runId : Uuid) (db : Db) : Set Uuid :=
  { u | ∃ t ∈ runTransitions runId db, t.transitionId = u }

/-- A pending run is apart: it has no conflict rows. -/
theorem ImportTables.apart (h : ImportTables db) (hids : RecordIds lib db) (hb : b ∈ db.importRuns)
    (hpending : ImportState.pending b.state = true) :
    Apart lib b (transitionIds b.runId db) db where
  row := hb
  snapshot q hq hsame := h.receipts.run_unique q hq b hb hsame
  records x hx hown := by
    obtain ⟨path, hpath⟩ := h.histories b hb
    have hreconciled : .reconciled ∉ path := by
      rw [(parsed_mem_iff hpath.legal hpath.state).2]
      rintro hstate
      rw [hstate] at hpending
      cases hpending
    have hm : x ∈ runRecords b.runId db := List.mem_filter.mpr ⟨hx, by simpa using hown⟩
    rw [hpath.conflicts hreconciled] at hm
    have hkind : x.recordKind ≠ .conflict := by simpa using (List.mem_filter.mp hm).2
    rcases hids x hx with ⟨-, hid, hcolon⟩ | ⟨hconflict, -⟩
    · exact ⟨by rw [hid, hown], hcolon⟩
    · exact (hkind hconflict).elim
  transitions t ht hown := ⟨t, List.mem_filter.mpr ⟨ht, by simpa using hown⟩, rfl⟩

end Reached

/-- **A run is taken along as if the other one were not there** as long as it stands before it: in
whatever state the import lane reaches, and over any number of passes, if in each pass that finds
both runs pending the run is before the other in the order of the batch, then its state, its
transitions, its staged records, its report and its facts are those that the same passes bring
about in the store without the other run. -/
theorem run_taken_along_beside_other (lib : Externals) (hfree : lib.CollisionFree)
    (hlen : ∀ text, (lib.sha256 text).length = 32) {actions : List ImportAction}
    (hg : Guarded (importStep lib) ImportSystem.Sanctioned {} actions) {r b : ImportRun}
    (hr : r ∈ (run (importStep lib) {} actions).db.importRuns)
    (hb : b ∈ (run (importStep lib) {} actions).db.importRuns) (hother : r.userRef ≠ b.userRef)
    (hpending : ImportState.pending b.state = true) {batchSize : Nat} {turns : Nat → Turns}
    (hdrawn : ∀ k n tick, ∀ t ∈ runTransitions b.runId (run (importStep lib) {} actions).db,
      t.transitionId ≠ (turns k n).1.uuid tick)
    (hbefore : ∀ k, ∀ x ∈ pendingRuns
        (afterPasses lib batchSize turns k (run (importStep lib) {} actions).db),
      x.runId = r.runId → ∀ y ∈ pendingRuns
        (afterPasses lib batchSize turns k (run (importStep lib) {} actions).db),
      y.runId = b.runId → runBefore x y) :
    ∀ k, runOutcome r.runId
        (afterPasses lib batchSize turns k (run (importStep lib) {} actions).db) =
      runOutcome r.runId (afterPasses lib batchSize turns k
        (withoutRun b (run (importStep lib) {} actions).db)) := by
  have htables := (imports_sound hg).tables
  have hne : r.runId ≠ b.runId := fun hid => hother (by rw [Table.eq_of_key_eq hr hb hid])
  have hapart := htables.apart (recordIds_reachable hg) hb hpending
  have hturns : ∀ k n, DrawsOutside (transitionIds b.runId (run (importStep lib) {} actions).db)
      (turns k n).1 := by
    rintro k n tick ⟨t, ht, hsame⟩
    exact hdrawn k n tick t ht hsame
  have halong : ∀ k, Along lib b
      (transitionIds b.runId (run (importStep lib) {} actions).db) r.runId
      (afterPasses lib batchSize turns k (run (importStep lib) {} actions).db)
      (afterPasses lib batchSize turns k (withoutRun b (run (importStep lib) {} actions).db)) := by
    intro k
    induction k with
    | zero => exact .beside rfl hapart htables.factsApart (htables.hasRun hr)
    | succ k ih => exact ih.pass hfree hlen (hturns k) hne hpending (hbefore k)
  exact fun k => (halong k).outcome hne

/-! ## A run that stands behind one that fails -/

section Behind

variable {lib : Externals} {turns : Turns} {db : Db} {runId : Uuid} {digest : List UInt8}
  {byteSize n : Nat} {failure : ReceiptError}

/-- The object of the run cannot be read: the pass is told so, and nothing is written. -/
theorem advance_unreadable (hrun : runArchive runId db =
      some (.received, archiveRef digest byteSize, ⟨digest, byteSize⟩))
    (hfault : (turns n).1.fault 0 = false)
    (hanswer : (turns (n + 1)).2 ⟨digest, byteSize⟩ = .error failure) :
    (advance lib runId .received).eval turns n db = (.error (.receipt failure), n + 2, db) := by
  have hread : (tx (fetchOne .stateConflict (runArchive runId)) :
      ImportScript (ImportState × BlobRef × FileRequest)).eval turns n db =
        (.ok (.received, archiveRef digest byteSize, ⟨digest, byteSize⟩), n + 1, db) :=
    eval_fetchOne hfault hrun
  have hopen : (openArchive (archiveRef digest byteSize) ⟨digest, byteSize⟩).eval turns (n + 1) db =
      (.error (.receipt failure), n + 2, db) := by
    unfold openArchive
    rw [if_neg (by simp), eval_bind, eval_request, hanswer]
    rfl
  have hinspect : (inspect runId).eval turns n db = (.error (.receipt failure), n + 2, db) := by
    unfold inspect
    rw [eval_bind, hread]
    dsimp only
    rw [if_neg (by simp), eval_bind, hopen]
  unfold advance advanceReceived
  rw [eval_bind, eval_attempt, hinspect]
  rfl

/-- A pass that comes to it first does nothing. -/
theorem afterPass_blocked {rest : List (Uuid × ImportState)}
    (hfirst : (pendingRuns db).map (fun r => (r.runId, r.state)) = (runId, .received) :: rest)
    (hrun : runArchive runId db =
      some (.received, archiveRef digest byteSize, ⟨digest, byteSize⟩))
    (hfault : (turns 1).1.fault 0 = false)
    (hanswer : (turns 2).2 ⟨digest, byteSize⟩ = .error failure) (batchSize : Nat) :
    afterPass lib batchSize turns db = db := by
  rw [afterPass_eq]
  split
  · rfl
  have hbatch : batch batchSize db = ((runId, .received) :: rest).take batchSize := by
    rw [← hfirst, ← List.map_take]
    rfl
  rw [hbatch]
  cases batchSize with
  | zero => rfl
  | succ n =>
    rw [List.take_succ_cons, sweep, advance_unreadable hrun hfault hanswer]

end Behind

/-- Two archives are received, the first of them for `first`. -/
def twoExports (first second : Uuid) : List ImportAction :=
  [.receive (quietEnv 0 100) first [first.toUInt8] 10,
    .receive (quietEnv 0 200) second [second.toUInt8] 10]

/-- The archive of the second owner cannot be read, in any pass. -/
def unreadableSecond : Turns := fun n => (quietEnv 5 (1000 + 100 * n), fun file =>
  if file.digest = [2] then .error .rawStorage else .ok (.ok (savedArchive [savedEntry])))

theorem twoExports_sanctioned (first second : Uuid) :
    Guarded (importStep padded) ImportSystem.Sanctioned {} (twoExports first second) := by
  refine sanctioned_of_noOthers fun a ha db hothers => ?_
  simp [twoExports, hothers] at ha

/-- The run that cannot be read is in front: no pass comes to the other one, which one pass alone
would reconcile. -/
theorem unreadableRun_blocks_other :
    Guarded (importStep padded) ImportSystem.Sanctioned {} (twoExports 2 1) ∧
      (run (importStep padded) {} (twoExports 2 1)).db.importRuns.rows.map
        (fun r => (r.runId, r.userRef, r.state)) = [(103, 2, .received), (203, 1, .received)] ∧
      (∀ batchSize k, (runOutcome 203 (afterPasses padded batchSize (fun _ => unreadableSecond) k
        (run (importStep padded) {} (twoExports 2 1)).db)).row.map ImportRun.state =
          some .received) ∧
      ∀ b ∈ (run (importStep padded) {} (twoExports 2 1)).db.importRuns, b.runId = 103 →
        (runOutcome 203 (afterPasses padded 1 (fun _ => unreadableSecond) 1
          (withoutRun b (run (importStep padded) {} (twoExports 2 1)).db))).row.map
            ImportRun.state = some .reconciled := by
  refine ⟨twoExports_sanctioned 2 1, by decide +kernel, ?_, by decide +kernel⟩
  intro batchSize k
  have hsame : afterPasses padded batchSize (fun _ => unreadableSecond) k
      (run (importStep padded) {} (twoExports 2 1)).db =
        (run (importStep padded) {} (twoExports 2 1)).db := by
    induction k with
    | zero => rfl
    | succ k ih =>
      rw [afterPasses, ih]
      have hfirst : (pendingRuns (run (importStep padded) {} (twoExports 2 1)).db).map
          (fun r => (r.runId, r.state)) = [(103, .received), (203, .received)] := by decide +kernel
      have hrun : runArchive 103 (run (importStep padded) {} (twoExports 2 1)).db =
          some (.received, archiveRef [2] 10, ⟨[2], 10⟩) := by decide +kernel
      exact afterPass_blocked hfirst hrun rfl rfl batchSize
  rw [hsame]
  decide +kernel

/-- In front of the run that cannot be read, the other one is reconciled. -/
theorem run_taken_along_beside_other_unreadable :
    ∃ r ∈ (run (importStep padded) {} (twoExports 1 2)).db.importRuns,
      ∃ b ∈ (run (importStep padded) {} (twoExports 1 2)).db.importRuns, r.userRef ≠ b.userRef ∧
        ∀ k, runOutcome r.runId (afterPasses padded 2 (fun _ => unreadableSecond) k
            (run (importStep padded) {} (twoExports 1 2)).db) =
          runOutcome r.runId (afterPasses padded 2 (fun _ => unreadableSecond) k
            (withoutRun b (run (importStep padded) {} (twoExports 1 2)).db)) := by
  have hruns : (run (importStep padded) {} (twoExports 1 2)).db.importRuns.rows.map
      (fun r => (r.runId, r.userRef, r.state)) =
        [(103, 1, .received), (203, 2, .received)] := by decide +kernel
  have hrm : ((103, 1, .received) : Uuid × Uuid × ImportState) ∈
      (run (importStep padded) {} (twoExports 1 2)).db.importRuns.rows.map
        fun r => (r.runId, r.userRef, r.state) := by simp [hruns]
  have hbm : ((203, 2, .received) : Uuid × Uuid × ImportState) ∈
      (run (importStep padded) {} (twoExports 1 2)).db.importRuns.rows.map
        fun r => (r.runId, r.userRef, r.state) := by simp [hruns]
  obtain ⟨r, hr, hrid⟩ := List.mem_map.mp hrm
  obtain ⟨b, hb, hbid⟩ := List.mem_map.mp hbm
  simp only [Prod.mk.injEq] at hrid hbid
  -- every pass but the first finds nothing but the run that cannot be read
  have hafter : ∀ k, afterPasses padded 2 (fun _ => unreadableSecond) (k + 1)
      (run (importStep padded) {} (twoExports 1 2)).db =
        afterPass padded 2 unreadableSecond (run (importStep padded) {} (twoExports 1 2)).db := by
    intro k
    induction k with
    | zero => rfl
    | succ k ih =>
      have hfirst : (pendingRuns (afterPass padded 2 unreadableSecond
          (run (importStep padded) {} (twoExports 1 2)).db)).map (fun r => (r.runId, r.state)) =
            [(203, .received)] := by decide +kernel
      have hrun : runArchive 203 (afterPass padded 2 unreadableSecond
          (run (importStep padded) {} (twoExports 1 2)).db) =
            some (.received, archiveRef [2] 10, ⟨[2], 10⟩) := by decide +kernel
      rw [afterPasses, ih]
      exact afterPass_blocked hfirst hrun rfl rfl 2
  have hold : ∀ t ∈ (run (importStep padded) {} (twoExports 1 2)).db.importRunTransitions.rows,
      t.transitionId < 1000 := by decide +kernel
  refine ⟨r, hr, b, hb, by rw [hrid.2.1, hbid.2.1]; decide, ?_⟩
  refine run_taken_along_beside_other padded reference_collisionFree (fun text => by simp [padded])
    (twoExports_sanctioned 1 2) hr hb (by rw [hrid.2.1, hbid.2.1]; decide)
    (by rw [hbid.2.2]; rfl) (fun k n tick t ht hsame => ?_) (fun k => ?_)
  · have hlt := hold t (List.mem_filter.mp ht).1
    have hle : 1000 ≤ 1000 + 100 * n + tick := by omega
    rw [hsame] at hlt
    exact absurd hlt (Nat.not_lt.mpr hle)
  · rw [hrid.1, hbid.1]
    cases k with
    | zero =>
      change ∀ x ∈ pendingRuns (run (importStep padded) {} (twoExports 1 2)).db, _
      decide +kernel
    | succ k =>
      rw [hafter k]
      decide +kernel

end InstagramArchive.DataExport

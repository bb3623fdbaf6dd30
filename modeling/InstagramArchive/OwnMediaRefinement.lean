import InstagramArchive.OwnMediaTraversal
import InstagramArchive.OwnMediaWrites

/-!
# Passes follow the traversal machine

Every transaction of a pass moves the tables of its account as the traversal machine moves
by the event it leaves, whatever the provider answers and however the rest of the database
changes in between. `runAccountOnce_follows` is the statement for a whole pass.
-/

namespace InstagramArchive

open Relational Relational.Tx

section Frames

variable {accountId : Uuid} {provider : String} {m : Mirror} {t : Traversal} {db db' : Db}

theorem Observed.mono {log log' : List SyncEvent} (hlog : log ⊆ log') {i : SyncItem}
    (h : Observed log i) : Observed log' i := by
  obtain ⟨runId, cursor, page, item, raw, now, hmem, hrest⟩ := h
  exact ⟨runId, cursor, page, item, raw, now, hlog hmem, hrest⟩

/-- The tables the machine is represented in stay as they are, and accounts keep their
provider identities. -/
structure SameOwnMedia (db db' : Db) : Prop where
  accounts : ∀ a ∈ db'.accounts, ∃ b ∈ db.accounts,
    b.accountId = a.accountId ∧ b.providerAccountId = a.providerAccountId
  runs : db'.syncRuns = db.syncRuns
  states : db'.syncStates = db.syncStates
  items : db'.syncItems = db.syncItems
  authorities : db'.syncAuthorities = db.syncAuthorities

theorem SameOwnMedia.trans {a b c : Db} (h : SameOwnMedia a b) (h' : SameOwnMedia b c) :
    SameOwnMedia a c := by
  refine ⟨fun x hx => ?_, h'.runs.trans h.runs, h'.states.trans h.states, h'.items.trans h.items,
    h'.authorities.trans h.authorities⟩
  obtain ⟨y, hy, hid, hprovider⟩ := h'.accounts x hx
  obtain ⟨z, hz, hid', hprovider'⟩ := h.accounts y hy
  exact ⟨z, hz, hid'.trans hid, hprovider'.trans hprovider⟩

theorem SameOwnMedia.of_eq (haccounts : db'.accounts = db.accounts)
    (hruns : db'.syncRuns = db.syncRuns) (hstates : db'.syncStates = db.syncStates)
    (hitems : db'.syncItems = db.syncItems)
    (hauthorities : db'.syncAuthorities = db.syncAuthorities) : SameOwnMedia db db' :=
  ⟨fun a ha => ⟨a, haccounts ▸ ha, rfl, rfl⟩, hruns, hstates, hitems, hauthorities⟩

theorem SameOwnMedia.sameView (h : SameOwnMedia db db') (accountId : Uuid) :
    SameView accountId db db' := by
  simp [SameView, syncWatermark, syncAuthority, visibleItems, runItems, h.states, h.items,
    h.authorities]

theorem Represents.frame (h : Represents accountId provider m db) (hs : SameOwnMedia db db') :
    Represents accountId provider m db' := by
  obtain ⟨hwatermark, hauthority, -⟩ := hs.sameView accountId
  constructor
  · intro a ha hid
    obtain ⟨b, hb, hbid, hprovider⟩ := hs.accounts a ha
    rw [← hprovider]
    exact h.account b hb (hbid.trans hid)
  · rw [hwatermark, h.watermark]
  · rw [hauthority, h.authority]
  · rw [hs.runs]
    exact h.completed
  · simpa only [Staged, hs.items] using h.catalogue
  · rw [hs.runs]
    exact h.idle
  · rw [hs.runs]
    exact h.active
  · simpa only [Staged, hs.items] using h.staged
  · rw [hs.items, hs.runs]
    exact h.origin
  · rw [hs.items, hs.runs]
    exact h.located
  · rw [hs.runs]
    exact h.recorded

theorem OnlyUsage.sameOwnMedia (h : OnlyUsage db db') : SameOwnMedia db db' := by
  obtain ⟨t, rfl⟩ := h
  exact .of_eq rfl rfl rfl rfl rfl

theorem OnlyMedia.sameOwnMedia (h : OnlyMedia db db') : SameOwnMedia db db' := by
  obtain ⟨t, u, rfl⟩ := h
  exact .of_eq rfl rfl rfl rfl rfl

theorem OnlyOutbox.sameOwnMedia (h : OnlyOutbox db db') : SameOwnMedia db db' := by
  obtain ⟨t, rfl⟩ := h
  exact .of_eq rfl rfl rfl rfl rfl

/-- The row under the key of the traversal is the row of the traversal. -/
theorem Represents.row (h : Represents accountId provider m db) (ha : m.active = some t)
    {r : SyncRun} (hr : r ∈ db.syncRuns) (hid : r.runId = t.runId) : RunOf accountId t r := by
  obtain ⟨r', hr', hrun, -⟩ := h.active t ha
  rwa [Table.eq_of_key_eq hr hr' (hid.trans hrun.runId.symm)]

theorem RunOf.status_active {r : SyncRun} (h : RunOf accountId t r) : r.status.active = true := by
  rw [h.status]
  cases t.running <;> rfl

/-- A traversal under way has no authority. -/
theorem Represents.authority_ne (h : Represents accountId provider m db)
    (ha : m.active = some t) : m.authority ≠ some t.runId := by
  intro he
  obtain ⟨r, hr, hid, -, hstatus⟩ := h.completed t.runId he
  have hactive := (h.row ha hr hid).status_active
  rw [hstatus] at hactive
  cases hactive

theorem SameView.updateRuns {p : SyncRun → Bool} {f : SyncRun → SyncRun}
    {hf : ∀ r, (f r).runId = r.runId} : SameView accountId db (updateRuns p f hf db) :=
  ⟨rfl, rfl, rfl⟩

end Frames

/-! ## Moves of the active run -/

section ActiveRun

variable {accountId : Uuid} {provider : String} {m : Mirror} {t t' : Traversal} {db : Db}
  {e : SyncEvent} {p : SyncRun → Bool} {f : SyncRun → SyncRun} {hf : ∀ r, (f r).runId = r.runId}

theorem Represents.of_updateRuns (h : Represents accountId provider m db)
    (hacc : ∀ r, (f r).accountId = r.accountId) {i : SyncItem} (hi : i ∈ db.syncItems)
    (hr : ∃ r ∈ (updateRuns p f hf db).syncRuns, r.runId = i.runId ∧ r.accountId = accountId) :
    Observed (m.log ++ [e]) i ∧ i.ownerProviderAccountId = provider := by
  obtain ⟨x, hx, hid, hx'⟩ := hr
  obtain ⟨r, hr, rfl⟩ := mem_updateRuns.mp hx
  have hrun : (if p r then f r else r).runId = r.runId := by split <;> simp [hf]
  have haccount : (if p r then f r else r).accountId = r.accountId := by split <;> simp [hacc]
  obtain ⟨hobserved, howner⟩ := h.origin i hi ⟨r, hr, hrun.symm.trans hid, haccount.symm.trans hx'⟩
  exact ⟨hobserved.mono (by simp), howner⟩

theorem Represents.located_updateRuns (h : Represents accountId provider m db) {i : SyncItem}
    (hi : i ∈ db.syncItems) : ∃ r ∈ (updateRuns p f hf db).syncRuns, r.runId = i.runId := by
  obtain ⟨r, hr, hid⟩ := h.located i hi
  refine ⟨_, mem_updateRuns.mpr ⟨r, hr, rfl⟩, ?_⟩
  split <;> simp [hf, hid]

theorem Represents.recorded_updateRuns (h : Represents accountId provider m db)
    (he : ∀ runId cursor page, e ≠ .accepted runId cursor page) {runId : Uuid}
    {cursor : Option String} {page : ProviderOwnMediaPage}
    (hlog : SyncEvent.accepted runId cursor page ∈ m.log ++ [e]) :
    ∃ r ∈ (updateRuns p f hf db).syncRuns, r.runId = runId := by
  rcases List.mem_append.mp hlog with hlog | hlog
  · obtain ⟨r, hr, hid⟩ := h.recorded runId cursor page hlog
    refine ⟨_, mem_updateRuns.mpr ⟨r, hr, rfl⟩, ?_⟩
    split <;> simp [hf, hid]
  · exact (he runId cursor page (List.mem_singleton.mp hlog).symm).elim

/-- The completed run behind the authority is out of reach of an update of the active one. -/
theorem Represents.completed_updateRuns (h : Represents accountId provider m db)
    (hp : ∀ r ∈ db.syncRuns, r.accountId = accountId → p r = true → r.status.active = true)
    (runId : Uuid) (hm : m.authority = some runId) :
    ∃ r ∈ (updateRuns p f hf db).syncRuns,
      r.runId = runId ∧ r.accountId = accountId ∧ r.status = .completed := by
  obtain ⟨r, hr, hid, hacc, hstatus⟩ := h.completed runId hm
  have hout : p r = false := by
    cases hpr : p r with
    | false => rfl
    | true =>
      have hactive := hp r hr hacc hpr
      rw [hstatus] at hactive
      cases hactive
  exact ⟨r, mem_updateRuns.mpr ⟨r, hr, by simp [hout]⟩, hid, hacc, hstatus⟩

/-- An update of the active run's row that turns it into the row of `t'`. -/
theorem Represents.moveRun (h : Represents accountId provider m db) (ha : m.active = some t)
    (hp : ∀ r, p r = true → r.runId = t.runId) (hacc : ∀ r, (f r).accountId = r.accountId)
    (hrun : ∀ r, RunOf accountId t r → RunOf accountId t' (if p r then f r else r))
    (hids : t'.ids = t.ids) (hid : t'.runId = t.runId)
    (he : ∀ runId cursor page, e ≠ .accepted runId cursor page) :
    Represents accountId provider { m with active := some t', log := m.log ++ [e] }
      (updateRuns p f hf db) := by
  obtain ⟨r, hr, hof, huniq⟩ := h.active t ha
  have hrow : ∀ q ∈ db.syncRuns, p q = true → q = r := fun q hq hpq =>
    Table.eq_of_key_eq hq hr ((hp q hpq).trans hof.runId.symm)
  constructor
  · exact h.account
  · exact h.watermark
  · exact h.authority
  · refine fun runId hm => h.completed_updateRuns (fun q hq _ hpq => ?_) runId hm
    rw [hrow q hq hpq]
    exact hof.status_active
  · exact h.catalogue
  · intro hnone
    cases hnone
  · intro u hu
    cases hu
    refine ⟨_, mem_updateRuns.mpr ⟨r, hr, rfl⟩, hrun r hof, ?_⟩
    intro x hx hxa hxs
    obtain ⟨q, hq, rfl⟩ := mem_updateRuns.mp hx
    suffices hqr : q = r by rw [hqr]
    cases hpq : p q with
    | true => exact hrow q hq hpq
    | false =>
      simp only [hpq, Bool.false_eq_true, if_false] at hxa hxs
      exact huniq q hq hxa hxs
  · intro u hu
    cases hu
    rw [hid, hids]
    exact h.staged t ha
  · exact fun i hi hr => h.of_updateRuns hacc hi hr
  · exact fun i hi => h.located_updateRuns hi
  · exact fun runId cursor page hlog => h.recorded_updateRuns he hlog

/-- An update that leaves the account without an active run. -/
theorem Represents.endRun (h : Represents accountId provider m db)
    (hp : ∀ r ∈ db.syncRuns, r.accountId = accountId → p r = true → r.status.active = true)
    (hacc : ∀ r, (f r).accountId = r.accountId) (hstatus : ∀ r, (f r).status.active = false)
    (hall : ∀ r ∈ db.syncRuns, r.accountId = accountId → r.status.active = true → p r = true)
    (he : ∀ runId cursor page, e ≠ .accepted runId cursor page) :
    Represents accountId provider { m with active := none, log := m.log ++ [e] }
      (updateRuns p f hf db) := by
  constructor
  · exact h.account
  · exact h.watermark
  · exact h.authority
  · exact fun runId hm => h.completed_updateRuns hp runId hm
  · exact h.catalogue
  · intro _ x hx hxa
    obtain ⟨q, hq, rfl⟩ := mem_updateRuns.mp hx
    cases hpq : p q with
    | true =>
      simp only [if_true]
      exact hstatus q
    | false =>
      simp only [hpq, Bool.false_eq_true, if_false] at hxa ⊢
      by_contra hactive
      rw [hall q hq hxa (by simpa using hactive)] at hpq
      cases hpq
  · intro u hu
    cases hu
  · intro u hu
    cases hu
  · exact fun i hi hr => h.of_updateRuns hacc hi hr
  · exact fun i hi => h.located_updateRuns hi
  · exact fun runId cursor page hlog => h.recorded_updateRuns he hlog

/-- The same for an update of one run's row. -/
theorem Represents.endRunOf (h : Represents accountId provider m db) (ha : m.active = some t)
    (hp : ∀ r, p r = true → r.runId = t.runId)
    (hhit : ∀ r, RunOf accountId t r → p r = true)
    (hacc : ∀ r, (f r).accountId = r.accountId) (hstatus : ∀ r, (f r).status.active = false)
    (he : ∀ runId cursor page, e ≠ .accepted runId cursor page) :
    Represents accountId provider { m with active := none, log := m.log ++ [e] }
      (updateRuns p f hf db) := by
  obtain ⟨r, hr, hof, huniq⟩ := h.active t ha
  refine h.endRun (fun q hq _ hpq => ?_) hacc hstatus (fun q hq hqa hqs => ?_) he
  · exact (h.row ha hq (hp q hpq)).status_active
  · rw [huniq q hq hqa hqs]
    exact hhit r hof

end ActiveRun

/-! ## Transactions -/

section Transactions

variable {lib : Externals} {Answers : OwnMediaRequest → OwnMediaAnswer → Prop} {accountId : Uuid}
  {provider : String} {m : Mirror} {t : Traversal} {env : Env} {db db' : Db}

theorem moves_none (h : Represents accountId provider m db) (hs : SameOwnMedia db db') :
    (ownMediaProtocol accountId provider Answers).Moves m none db db' :=
  ⟨fun e he => absurd he (by simp), h.frame hs, fun _ => hs.sameView accountId⟩

theorem resume_moves (h : Represents accountId provider m db) (ha : m.active = some t)
    (now : Instant) :
    (ownMediaProtocol accountId provider Answers).Moves m (some (.resumed t.runId)) db
      (resumeRun t.runId now db) := by
  have hmove : m.apply (.resumed t.runId) =
      { m with active := some { t with running := true }
               log := m.log ++ [.resumed t.runId] } := by
    simp [Mirror.apply, Mirror.move, ha]
  refine .of_event ⟨t, ha, rfl⟩ ?_ fun _ => SameView.updateRuns
  change Represents accountId provider (m.apply _) _
  rw [hmove]
  refine h.moveRun ha (fun r hr => by simp_all) (fun r => rfl) (fun r hr => ?_) rfl rfl (by simp)
  split
  · exact { hr with status := rfl }
  · rename_i hstatus
    refine { hr with status := ?_ }
    have hrow := hr.status
    cases hrunning : t.running with
    | true => simpa [hrunning] using hrow
    | false => simp_all [hr.runId]

theorem suspend_moves (h : Represents accountId provider m db) (ha : m.active = some t)
    (hrunning : t.running = true) (reason : SyncRunReason) (now : Instant) :
    (ownMediaProtocol accountId provider Answers).Moves m (some (.suspended t.runId)) db
      (suspendRun t.runId reason now db) := by
  have hmove : m.apply (.suspended t.runId) =
      { m with active := some { t with running := false }
               log := m.log ++ [.suspended t.runId] } := by
    simp [Mirror.apply, Mirror.move, ha]
  refine .of_event ⟨t, ha, rfl⟩ ?_ fun _ => SameView.updateRuns
  change Represents accountId provider (m.apply _) _
  rw [hmove]
  refine h.moveRun ha (fun r hr => ?_) (fun r => rfl) (fun r hr => ?_) rfl rfl (by simp)
  · simp only [SyncRun.runningAs, Bool.and_eq_true, decide_eq_true_eq] at hr
    exact hr.1
  · have hhit : SyncRun.runningAs t.runId r = true := by
      simp [SyncRun.runningAs, hr.runId, hr.status, hrunning]
    rw [if_pos hhit]
    exact { hr with status := rfl }

/-- Closing the row of the traversal under way. -/
theorem close_moves {p : SyncRun → Bool} {f : SyncRun → SyncRun}
    {hf : ∀ r, (f r).runId = r.runId} (h : Represents accountId provider m db)
    (ha : m.active = some t) (hp : ∀ r, p r = true → r.runId = t.runId)
    (hhit : ∀ r, RunOf accountId t r → p r = true) (hacc : ∀ r, (f r).accountId = r.accountId)
    (hstatus : ∀ r, (f r).status.active = false) :
    (ownMediaProtocol accountId provider Answers).Moves m (some (.closed t.runId)) db
      (updateRuns p f hf db) :=
  .of_event ⟨t, ha, rfl⟩ (h.endRunOf ha hp hhit hacc hstatus nofun) fun _ => SameView.updateRuns

theorem failRun_moves (h : Represents accountId provider m db) (ha : m.active = some t)
    (now : Instant) :
    (ownMediaProtocol accountId provider Answers).Moves m (some (.closed t.runId)) db
      (failRun t.runId now db) :=
  close_moves h ha (fun r hr => by simpa using hr) (fun r hr => by simp [hr.runId])
    (fun _ => rfl) fun _ => rfl

theorem markProviderFailure_moves (h : Represents accountId provider m db)
    (ha : m.active = some t) (hrunning : t.running = true) (error : ProviderError)
    (now : Instant) :
    (ownMediaProtocol accountId provider Answers).Moves m
      (some (if isRetryable error.failureClass then .suspended t.runId else .closed t.runId)) db
      (markProviderFailure t.runId error now db) := by
  unfold markProviderFailure
  split
  · exact suspend_moves h ha hrunning .providerRetryable now
  · refine close_moves h ha (fun r hr => ?_) (fun r hr => ?_) (fun _ => rfl) fun _ => rfl
    · simp only [SyncRun.runningAs, Bool.and_eq_true, decide_eq_true_eq] at hr
      exact hr.1
    · simp [SyncRun.runningAs, hr.runId, hr.status, hrunning]

/-! ### No-op -/

theorem recordNoop_moves {config : OwnMediaSyncConfig} {read : CapabilityRead} {now : Instant}
    {runId : Uuid} (h : Represents accountId provider m db)
    (hy : (recordNoop config accountId read now).Yields env db runId db') :
    (ownMediaProtocol accountId provider Answers).Moves m (some (.noop accountId runId)) db
      db' := by
  obtain ⟨row, due, runs, hid, hacc, hstatus, hrows, hfresh, rfl⟩ := recordNoop_yields hy
  have hclosed : Represents accountId provider (m.apply (.noop accountId runId))
      (closeActiveRuns accountId now db) := by
    refine h.endRun (fun r _ _ hr => ?_) (fun _ => rfl) (fun _ => rfl) (fun r _ hra hrs => ?_) nofun
    · simp only [SyncRun.activeFor, Bool.and_eq_true, decide_eq_true_eq] at hr
      exact hr.2
    · simp [SyncRun.activeFor, hra, hrs]
  have hmem : ∀ r, r ∈ runs ↔ r ∈ (closeActiveRuns accountId now db).syncRuns ∨ r = row := by
    intro r
    rw [Table.mem_rows, hrows, List.mem_append, List.mem_singleton, Table.mem_rows]
  have hlocated : ∀ i ∈ db.syncItems, i.runId ≠ row.runId := by
    intro i hi he
    obtain ⟨r, hr, hri⟩ := h.located i hi
    exact hfresh r hr (hri.trans (he.trans hid))
  have hwatermark := syncWatermark_upsert { db with syncRuns := runs }
    (noopState accountId runId due now (db.syncStates.lookup accountId))
  refine .of_event trivial ?_ fun _ => ⟨hwatermark, rfl, rfl⟩
  constructor
  · exact h.account
  · exact hwatermark.trans h.watermark
  · exact h.authority
  · intro id hm
    obtain ⟨r, hr, hr'⟩ := hclosed.completed id hm
    exact ⟨r, (hmem r).mpr (Or.inl hr), hr'⟩
  · exact h.catalogue
  · intro _ r hr hra
    rcases (hmem r).mp hr with hr | rfl
    · exact hclosed.idle rfl r hr hra
    · rw [hstatus]
      rfl
  · intro u hu
    cases hu
  · intro u hu
    cases hu
  · rintro i hi ⟨r, hr, hri, hra⟩
    rcases (hmem r).mp hr with hr | rfl
    · exact hclosed.origin i hi ⟨r, hr, hri, hra⟩
    · exact (hlocated i hi hri.symm).elim
  · intro i hi
    obtain ⟨r, hr, hri⟩ := hclosed.located i hi
    exact ⟨r, (hmem r).mpr (Or.inl hr), hri⟩
  · intro id cursor page hlog
    obtain ⟨r, hr, hri⟩ := hclosed.recorded id cursor page hlog
    exact ⟨r, (hmem r).mpr (Or.inl hr), hri⟩

/-! ### Opening -/

theorem mem_visibleItems {i : SyncItem} :
    i ∈ visibleItems accountId db ↔
      ∃ runId, syncAuthority accountId db = some runId ∧ i ∈ db.syncItems ∧ i.runId = runId := by
  unfold visibleItems
  cases syncAuthority accountId db with
  | none => simp
  | some runId => simp [runItems, Table.mem_rows, and_comm, eq_comm]

theorem visibleItems_congr {db' : Db}
    (hauthority : syncAuthority accountId db' = syncAuthority accountId db)
    (hitems : ∀ id, syncAuthority accountId db = some id → runItems id db' = runItems id db) :
    visibleItems accountId db' = visibleItems accountId db := by
  unfold visibleItems
  rw [hauthority]
  cases hauth : syncAuthority accountId db with
  | none => rfl
  | some id => exact hitems id hauth

theorem openRun_moves {userRef generationId runId : Uuid} {now : Instant}
    (h : Represents accountId provider m db)
    (hy : (openRun accountId userRef generationId m.watermark now).Yields env db runId db') :
    (ownMediaProtocol accountId provider Answers).Moves m
      (some (.opened accountId runId generationId)) db db' := by
  obtain ⟨runs, items, hrows, hitems, hfresh, hidle, rfl⟩ := openRun_yields hy
  have hnone : m.active = none := by
    cases hactive : m.active with
    | none => rfl
    | some t =>
      obtain ⟨r, hr, hof, -⟩ := h.active t hactive
      have := hidle r hr hof.account
      rw [hof.status_active] at this
      cases this
  have hruns : ∀ r, r ∈ runs ↔ r ∈ db.syncRuns ∨
      r = openedRun accountId userRef generationId m.watermark now runId := by
    intro r
    rw [Table.mem_rows, hrows, List.mem_append, List.mem_singleton, Table.mem_rows]
  have hmem : ∀ i, i ∈ items ↔ i ∈ db.syncItems ∨
      ∃ j ∈ visibleItems accountId db, { j with runId := runId } = i := by
    intro i
    rw [Table.mem_rows, hitems, List.mem_append, List.mem_map, Table.mem_rows]
  have hold : ∀ i ∈ db.syncItems, i.runId ≠ runId := by
    intro i hi he
    obtain ⟨r, hr, hri⟩ := h.located i hi
    exact hfresh r hr (hri.trans he)
  have hauthority : ∀ id, m.authority = some id → id ≠ runId := by
    intro id hm he
    obtain ⟨r, hr, hri, -⟩ := h.completed id hm
    exact hfresh r hr (hri.trans he)
  -- the copies go to the new run, so the authority shows what it showed
  have hview : SameView accountId db { db with syncRuns := runs, syncItems := items } := by
    refine ⟨rfl, rfl, visibleItems_congr rfl fun id hauth => ?_⟩
    have hne := hauthority id (h.authority.symm.trans hauth)
    simp only [runItems, hitems, List.filter_append, List.filter_map]
    rw [List.append_right_eq_self]
    simp [Function.comp_def, hne.symm]
  have hunread : ∀ cursor page, SyncEvent.accepted runId cursor page ∉ m.log := by
    intro cursor page hlog
    obtain ⟨r, hr, hri⟩ := h.recorded runId cursor page hlog
    exact hfresh r hr hri
  refine .of_event ⟨hnone, hunread⟩ ?_ fun _ => hview
  constructor
  · exact h.account
  · exact h.watermark
  · exact h.authority
  · intro id hm
    obtain ⟨r, hr, hr'⟩ := h.completed id hm
    exact ⟨r, (hruns r).mpr (Or.inl hr), hr'⟩
  · intro id
    refine (h.catalogue id).trans ?_
    constructor
    · rintro ⟨auth, hm, i, hi, hrun, hid⟩
      exact ⟨auth, hm, i, (hmem i).mpr (Or.inl hi), hrun, hid⟩
    · rintro ⟨auth, hm, i, hi, hrun, hid⟩
      rcases (hmem i).mp hi with hi | ⟨j, -, rfl⟩
      · exact ⟨auth, hm, i, hi, hrun, hid⟩
      · exact (hauthority auth hm hrun.symm).elim
  · intro hactive
    cases hactive
  · intro u hu
    cases hu
    refine ⟨_, (hruns _).mpr (Or.inr rfl), ⟨rfl, rfl, rfl, rfl, rfl, rfl, rfl⟩, ?_⟩
    intro r hr hra hrs
    rcases (hruns r).mp hr with hr | rfl
    · rw [hidle r hr hra] at hrs
      cases hrs
    · rfl
  · intro u hu
    cases hu
    intro id
    change Staged runId _ id ↔ id ∈ m.catalogue ∨ id ∈ []
    rw [h.catalogue id]
    constructor
    · rintro ⟨i, hi, hrun, hid⟩
      rcases (hmem i).mp hi with hi | ⟨j, hj, rfl⟩
      · exact (hold i hi hrun).elim
      · obtain ⟨auth, hauth, hj, hjr⟩ := mem_visibleItems.mp hj
        exact Or.inl ⟨auth, h.authority.symm.trans hauth, j, hj, hjr, hid⟩
    · rintro (⟨auth, hm, j, hj, hjr, hid⟩ | hid)
      · have hvisible : j ∈ visibleItems accountId db :=
          mem_visibleItems.mpr ⟨auth, h.authority.trans hm, hj, hjr⟩
        exact ⟨{ j with runId := runId }, (hmem _).mpr (Or.inr ⟨j, hvisible, rfl⟩), rfl, hid⟩
      · cases hid
  · rintro i hi ⟨r, hr, hri, hra⟩
    rcases (hmem i).mp hi with hi | ⟨j, hj, rfl⟩
    · rcases (hruns r).mp hr with hr | rfl
      · obtain ⟨hobserved, howner⟩ := h.origin i hi ⟨r, hr, hri, hra⟩
        exact ⟨hobserved.mono (List.subset_append_left _ _), howner⟩
      · exact (hold i hi hri.symm).elim
    · obtain ⟨auth, hauth, hj, hjr⟩ := mem_visibleItems.mp hj
      obtain ⟨q, hq, hqid, hqa, -⟩ := h.completed auth (h.authority.symm.trans hauth)
      obtain ⟨hobserved, howner⟩ := h.origin j hj ⟨q, hq, hqid.trans hjr.symm, hqa⟩
      obtain ⟨source, cursor, page, item, raw, at_, hlog, hitem, heq⟩ := hobserved
      refine ⟨⟨source, cursor, page, item, raw, at_, List.mem_append_left _ hlog, hitem, ?_⟩,
        howner⟩
      rw [← heq]
      rfl
  · intro i hi
    rcases (hmem i).mp hi with hi | ⟨j, -, rfl⟩
    · obtain ⟨r, hr, hri⟩ := h.located i hi
      exact ⟨r, (hruns r).mpr (Or.inl hr), hri⟩
    · exact ⟨_, (hruns _).mpr (Or.inr rfl), rfl⟩
  · intro id cursor page hlog
    rcases List.mem_append.mp hlog with hlog | hlog
    · obtain ⟨r, hr, hri⟩ := h.recorded id cursor page hlog
      exact ⟨r, (hruns r).mpr (Or.inl hr), hri⟩
    · cases List.mem_singleton.mp hlog

/-! ### Pages -/

theorem persistPage_moves {page : ProviderOwnMediaPage} {request : OwnMediaRequest} {now : Instant}
    {u : Unit} (h : Represents accountId provider m db) (ha : m.active = some t)
    (hrunning : t.running = true) (hrequest : request.after = t.cursor)
    (hanswer : Answers request (.ok page))
    (hy : (persistPage lib t.runId provider page (t.walk.candidateAfter page) now).Yields env db u
      db') :
    (ownMediaProtocol accountId provider Answers).Moves m
      (some (.accepted t.runId t.cursor page)) db db' := by
  obtain ⟨rawRecordId, raws, -, howner, rfl⟩ := persistPage_yields hy
  obtain ⟨r, hr, hof, huniq⟩ := h.active t ha
  have hmove : m.apply (.accepted t.runId t.cursor page) =
      { m with active := some (t.accept t.cursor page)
               log := m.log ++ [.accepted t.runId t.cursor page] } := by
    simp [Mirror.apply, Mirror.move, ha]
  have hp : ∀ q : SyncRun, SyncRun.runningAs t.runId q = true → q.runId = t.runId := by
    intro q hq
    simp only [SyncRun.runningAs, Bool.and_eq_true, decide_eq_true_eq] at hq
    exact hq.1
  have hother : ∀ id, m.authority = some id → id ≠ t.runId := by
    rintro id hm rfl
    exact h.authority_ne ha hm
  have hrun : ∀ q, RunOf accountId t q → RunOf accountId (t.accept t.cursor page)
      (if SyncRun.runningAs t.runId q then
        { q with
          nextCursor := page.nextCursor
          candidateWatermark := q.candidateWatermark <|> t.walk.candidateAfter page
          pageCount := q.pageCount + 1
          itemCount := q.itemCount + page.items.length
          updatedAt := now } else q) := by
    intro q hq
    have hhit : SyncRun.runningAs t.runId q = true := by
      simp [SyncRun.runningAs, hq.runId, hq.status, hrunning]
    rw [if_pos hhit]
    refine { hq with
      cursor := (t.cursor_accept t.cursor page).symm
      candidate := ?_
      status := hq.status }
    rw [t.candidate_accept t.cursor page, hq.candidate]
    change (t.candidate <|> (t.candidate <|> _)) = (t.candidate <|> _)
    cases t.candidate <;> rfl
  -- the row moves as in any update of the active run; the staged items are the page's
  have hstaged : ∀ id, Staged t.runId
      { db with rawRecords := raws
                syncItems := stagedOnto t.runId rawRecordId now db.syncItems page.items } id ↔
        id ∈ m.catalogue ∨ id ∈ (t.accept t.cursor page).ids := by
    intro id
    rw [t.ids_accept, List.mem_append, List.mem_map, ← or_assoc, ← h.staged t ha id]
    exact staged_stagedOnto
  have hkept : ∀ id ≠ t.runId, ∀ i : SyncItem, i.runId = id →
      (i ∈ stagedOnto t.runId rawRecordId now db.syncItems page.items ↔ i ∈ db.syncItems) := by
    intro id hne i hi
    have hfilter : ((stagedOnto t.runId rawRecordId now db.syncItems page.items).rows.filter
        fun i => i.runId = id) = db.syncItems.rows.filter fun i => i.runId = id :=
      filter_stagedOnto hne
    simpa [hi, Table.mem_rows] using congrArg (i ∈ ·) hfilter
  refine .of_event ⟨t, ⟨ha, rfl⟩, rfl, request, hrequest, hanswer⟩ ?_ fun _ => ⟨rfl, rfl, ?_⟩
  · change Represents accountId provider (m.apply _) _
    rw [hmove]
    constructor
    · exact h.account
    · exact h.watermark
    · exact h.authority
    · refine fun id hm => h.completed_updateRuns (fun q hq _ hpq => ?_) id hm
      exact (h.row ha hq (hp q hpq)).status_active
    · intro id
      refine (h.catalogue id).trans ⟨?_, ?_⟩
      · rintro ⟨auth, hm, i, hi, hir, hid⟩
        exact ⟨auth, hm, i, (hkept auth (hother auth hm) i hir).mpr hi, hir, hid⟩
      · rintro ⟨auth, hm, i, hi, hir, hid⟩
        exact ⟨auth, hm, i, (hkept auth (hother auth hm) i hir).mp hi, hir, hid⟩
    · intro hnone
      cases hnone
    · intro u hu
      cases hu
      refine ⟨_, mem_updateRuns.mpr ⟨r, hr, rfl⟩, hrun r hof, ?_⟩
      intro x hx hxa hxs
      obtain ⟨q, hq, rfl⟩ := mem_updateRuns.mp hx
      suffices hqr : q = r by rw [hqr]
      cases hpq : SyncRun.runningAs t.runId q with
      | true => exact Table.eq_of_key_eq hq hr ((hp q hpq).trans hof.runId.symm)
      | false =>
        simp only [hpq, Bool.false_eq_true, if_false] at hxa hxs
        exact huniq q hq hxa hxs
    · intro u hu
      cases hu
      exact hstaged
    · rintro i hi hri
      rcases mem_stagedOnto hi with hi | ⟨item, hitem, rfl⟩
      · refine h.of_updateRuns ?_ hi hri
        exact fun _ => rfl
      · exact ⟨⟨t.runId, t.cursor, page, item, rawRecordId, now, by simp, hitem, rfl⟩,
          howner item hitem⟩
    · intro i hi
      rcases mem_stagedOnto hi with hi | ⟨item, hitem, rfl⟩
      · exact h.located_updateRuns hi
      · refine ⟨_, mem_updateRuns.mpr ⟨r, hr, rfl⟩, ?_⟩
        exact (hrun r hof).runId
    · intro id cursor read hlog
      rcases List.mem_append.mp hlog with hlog | hlog
      · obtain ⟨q, hq, hqid⟩ := h.recorded id cursor read hlog
        refine ⟨_, mem_updateRuns.mpr ⟨q, hq, rfl⟩, ?_⟩
        rw [← hqid]
        split <;> rfl
      · cases List.mem_singleton.mp hlog
        exact ⟨_, mem_updateRuns.mpr ⟨r, hr, rfl⟩, (hrun r hof).runId⟩
  · refine visibleItems_congr rfl fun id hauth => ?_
    exact filter_stagedOnto (hother id (h.authority.symm.trans hauth))

/-! ### Completion -/

theorem finalizeRun_moves {config : OwnMediaSyncConfig} {ctx : SyncContext} {now : Instant}
    {completed : Bool} (h : Represents accountId provider m db) (ha : m.active = some t)
    (hrunning : t.running = true) (hfinished : t.finished = true) (hctx : ctx.accountId = accountId)
    (hy : (finalizeRun lib config ctx t.runId t.candidate now).Yields env db completed db') :
    (ownMediaProtocol accountId provider Answers).Moves m
      (some (if completed then .completed t.runId t.candidate else .closed t.runId)) db db' := by
  subst hctx
  rcases finalizeRun_yields hy with ⟨rfl, -, rfl⟩ | ⟨rfl, -, applied, published, n, happly, hpub, rfl⟩
  · exact failRun_moves h ha now
  · have hsame : SameOwnMedia db published := by
      have h1 := (applyStagedItems_onlyMedia _ _ _ _ _ _ _ happly).sameOwnMedia
      have h2 := (appendOwnMediaFacts_onlyOutbox _ _ _ _ _ _ _ _ hpub).sameOwnMedia
      exact h1.trans h2
    have h' := h.frame hsame
    have hhit : ∀ r, RunOf ctx.accountId t r → SyncRun.runningAs t.runId r = true := by
      intro r hr
      simp [SyncRun.runningAs, hr.runId, hr.status, hrunning]
    have hend : Represents ctx.accountId provider
        { m with active := none, log := m.log ++ [.completed t.runId t.candidate] }
        (completeRun t.runId now published) := by
      refine h'.endRunOf ha (fun r hr => ?_) hhit (fun _ => rfl) (fun _ => rfl) nofun
      simp only [SyncRun.runningAs, Bool.and_eq_true, decide_eq_true_eq] at hr
      exact hr.1
    obtain ⟨r, hr, hof, -⟩ := h'.active t ha
    refine .of_event ⟨t, ⟨ha, rfl⟩, hfinished, rfl⟩ ?_ fun hswap => by simp [SyncEvent.swaps] at hswap
    constructor
    · exact hend.account
    · simp [activated, completeRun, updateRuns, syncWatermark, Table.lookup_upsert,
        ownMediaProtocol, Mirror.apply, Mirror.move]
    · simp [activated, completeRun, updateRuns, syncAuthority, Table.lookup_upsert,
        ownMediaProtocol, Mirror.apply, Mirror.move]
    · rintro id hm
      cases hm
      refine ⟨_, mem_updateRuns.mpr ⟨r, hr, rfl⟩, ?_⟩
      rw [if_pos (hhit r hof)]
      exact ⟨hof.runId, hof.account, rfl⟩
    · intro id
      change id ∈ m.catalogue ++ (m.active.map Traversal.ids).getD [] ↔
        ∃ runId, some t.runId = some runId ∧ Staged runId published id
      rw [ha, List.mem_append]
      simpa using (h'.staged t ha id).symm
    · exact fun _ => hend.idle rfl
    · intro u hu
      cases hu
    · intro u hu
      cases hu
    · exact hend.origin
    · exact hend.located
    · exact hend.recorded

end Transactions

/-! ## Passes -/

theorem Mirror.swaps_apply (m : Mirror) (e : SyncEvent) :
    (m.apply e).swaps = m.swaps + if e.swaps then 1 else 0 := by
  simp [Mirror.swaps, Mirror.apply, List.countP_cons]

/-- A pass that does not end completed has swapped nothing since `n` swaps. -/
def Unswapped (n : Nat) (result : Except OwnMediaSyncError OwnMediaSyncOutcome) (m : Mirror) :
    Prop :=
  (∀ runId watermark, result ≠ .ok (.completed runId watermark)) → m.swaps = n

section Passes

variable {lib : Externals} {Answers : OwnMediaRequest → OwnMediaAnswer → Prop} {accountId : Uuid}
  {provider : String} {m : Mirror} {t : Traversal} {n : Nat} {config : OwnMediaSyncConfig}
  {ctx : SyncContext} {token : String} {now : Instant}

theorem Unswapped.error (hn : m.swaps = n) (e : OwnMediaSyncError) : Unswapped n (.error e) m :=
  fun _ => hn

theorem keeps_none (db : Db) : (ownMediaProtocol accountId provider Answers).Keeps none db db :=
  fun _ => SameView.refl accountId db

theorem stopRetryable_follows (ha : m.active = some t) (hrunning : t.running = true)
    (hn : m.swaps = n) (reason : SyncRunReason) :
    (stopRetryable t.walk reason now).Follows (ownMediaProtocol accountId provider Answers)
      (Unswapped n) m := by
  refine .emit (Unswapped.error hn) fun env db _ db' h hy => ?_
  obtain rfl := hy.execute
  refine ⟨suspend_moves h ha hrunning reason now, fun _ => ?_⟩
  exact (m.swaps_apply _).trans hn

theorem refuse_follows (ha : m.active = some t) (hrunning : t.running = true) (hn : m.swaps = n)
    (error : ProviderError) :
    (refuse t.walk error now).Follows (ownMediaProtocol accountId provider Answers)
      (Unswapped n) m := by
  refine .emit (Unswapped.error hn) fun env db _ db' h hy => ?_
  obtain rfl := hy.execute
  refine ⟨markProviderFailure_moves h ha hrunning error now, ?_⟩
  cases isRetryable error.failureClass with
  | true => exact fun _ => (m.swaps_apply _).trans hn
  | false => exact fun _ => (m.swaps_apply _).trans hn

theorem complete_follows (ha : m.active = some t) (hrunning : t.running = true)
    (hfinished : t.finished = true) (hn : m.swaps = n) (hctx : ctx.accountId = accountId) :
    (complete lib config ctx t.walk now).Follows (ownMediaProtocol accountId provider Answers)
      (Unswapped n) m := by
  refine .emit (Unswapped.error hn) fun env db completed db' h hy => ?_
  refine ⟨finalizeRun_moves h ha hrunning hfinished hctx hy, ?_⟩
  cases completed with
  | true => exact fun hne => (hne _ _ rfl).elim
  | false => exact fun _ => (m.swaps_apply _).trans hn

/-- **The page loop follows the machine**, by induction on the pages that are left. -/
theorem traverse_follows (hctx : ctx.accountId = accountId) (hp : ctx.providerAccountId = provider)
    (pages : Nat) (budget : ProviderBudget) (ha : m.active = some t) (hrunning : t.running = true)
    (hn : m.swaps = n) :
    (traverse lib config ctx token now pages budget t.walk).Follows
      (ownMediaProtocol accountId provider Answers) (Unswapped n) m := by
  induction pages generalizing budget m t with
  | zero => exact stopRetryable_follows ha hrunning hn .pageLimit
  | succ pages ih =>
    unfold traverse
    split
    · exact stopRetryable_follows ha hrunning hn .budgetExhausted
    · refine .tx (Unswapped.error hn) fun env db reserved db' h hy => ?_
      have hreserve := budget.reserve_onlyUsage _ _ _ _ _ _ hy.mapError
      refine ⟨moves_none h hreserve.sameOwnMedia, ?_⟩
      refine .request fun answer hanswer => ?_
      refine .tx (Unswapped.error hn) fun env db _ db' h hy => ?_
      have hfinish : OnlyUsage db db' := by
        cases answer with
        | ok page => exact ProviderBudget.complete_onlyUsage _ _ _ _ _ _ _ _ _ hy.mapError
        | error e => exact ProviderBudget.complete_onlyUsage _ _ _ _ _ _ _ _ _ hy.mapError
      refine ⟨moves_none h hfinish.sameOwnMedia, ?_⟩
      cases answer with
      | error error => exact refuse_follows ha hrunning hn error
      | ok page =>
        refine .emit (Unswapped.error hn) fun env db _ db' h hy => ?_
        rw [hp] at hy
        refine ⟨persistPage_moves h ha hrunning rfl hanswer hy, ?_⟩
        have ha' : (m.apply (.accepted t.runId t.cursor page)).active =
            some (t.accept t.cursor page) := by
          simp [Mirror.apply, Mirror.move, ha]
        have hn' : (m.apply (.accepted t.runId t.cursor page)).swaps = n :=
          (m.swaps_apply _).trans hn
        rw [← t.walk_accept t.cursor page]
        split
        · rename_i hcompletes
          refine complete_follows ha' hrunning ?_ hn' hctx
          rw [t.finished_accept, hcompletes]
        · split
          · exact stopRetryable_follows ha' hrunning hn' .pageLimit
          · exact ih _ ha' hrunning hn'

/-- The active run of the tables is the traversal of the machine. -/
theorem Represents.activeRun {db : Db} {run : SyncRun} (h : Represents accountId provider m db)
    (hrun : activeRun accountId db = some run) :
    ∃ t, m.active = some t ∧ RunOf accountId t run := by
  obtain ⟨hmem, hacc, hactive⟩ := activeRun_eq_some hrun
  cases hm : m.active with
  | none =>
    rw [h.idle hm run hmem hacc] at hactive
    cases hactive
  | some t =>
    obtain ⟨r, -, hof, huniq⟩ := h.active t hm
    rw [huniq run hmem hacc hactive]
    exact ⟨t, rfl, hof⟩

theorem resumeActive_follows (hctx : ctx.accountId = accountId)
    (hp : ctx.providerAccountId = provider) {run : SyncRun} (ha : m.active = some t)
    (hof : RunOf accountId t run) (hn : m.swaps = n) :
    (resumeActive lib config ctx token now run).Follows
      (ownMediaProtocol accountId provider Answers) (Unswapped n) m := by
  unfold resumeActive
  split
  · exact fun _ => hn
  · refine .emit (Unswapped.error hn) fun env db _ db' h hy => ?_
    obtain rfl := hy.execute
    rw [hof.runId]
    refine ⟨resume_moves h ha now, ?_⟩
    have ha' : (m.apply (.resumed t.runId)).active = some { t with running := true } := by
      simp [Mirror.apply, Mirror.move, ha]
    have hn' : (m.apply (.resumed t.runId)).swaps = n := (m.swaps_apply _).trans hn
    refine .tx (Unswapped.error hn') fun env db budget db' h hy => ?_
    obtain ⟨-, rfl⟩ := ProviderBudget.resume_yields hy.mapError
    refine ⟨moves_none h (.of_eq rfl rfl rfl rfl rfl), ?_⟩
    rw [hof.start, hof.candidate, hof.cursor]
    exact traverse_follows (t := { t with running := true }) hctx hp _ _ ha' rfl hn'

theorem startFresh_follows (hctx : ctx.accountId = accountId)
    (hp : ctx.providerAccountId = provider) (hn : m.swaps = n) :
    (startFresh lib config ctx token now).Follows (ownMediaProtocol accountId provider Answers)
      (Unswapped n) m := by
  refine .read (Unswapped.error hn) keeps_none fun db h => ?_
  rw [hctx, h.watermark]
  refine .emit (Unswapped.error hn) fun env db runId db' h hy => ?_
  refine ⟨openRun_moves h hy, ?_⟩
  have hn' : (m.apply (.opened accountId runId ctx.generationId)).swaps = n :=
    (m.swaps_apply _).trans hn
  exact traverse_follows (t := ⟨runId, ctx.generationId, m.watermark, [], true⟩) hctx hp _ _ rfl
    rfl hn'

theorem readCredential_provider {db : Db} {userRef : Uuid} {id : String} {envelope : List UInt8}
    (h : Represents accountId provider m db)
    (hread : readCredential accountId userRef db = some (id, envelope)) : id = provider := by
  unfold readCredential at hread
  obtain ⟨account, haccount, hread⟩ := Option.bind_eq_some_iff.mp hread
  obtain ⟨credential, -, hread⟩ := Option.bind_eq_some_iff.mp hread
  obtain ⟨hmem, hid⟩ := Table.lookup_eq_some.mp haccount
  split at hread
  · cases hread
    exact h.account account hmem hid
  · cases hread

/-- **A pass follows the machine**, whatever the provider answers. -/
theorem runAccountOnce_follows (keys : CredentialKeyring) (config : OwnMediaSyncConfig)
    (now : Instant) (hn : m.swaps = n) :
    (runAccountOnce lib keys config accountId now).Follows
      (ownMediaProtocol accountId provider Answers) (Unswapped n) m := by
  refine .read (Unswapped.error hn) keeps_none fun db _ => ?_
  cases readCapability accountId db with
  | none => exact fun _ => hn
  | some read =>
    change Script.Follows _ _ (if read.eligible then _ else _) m
    split
    · refine .read (Unswapped.error hn) keeps_none fun db h => ?_
      cases hread : readCredential accountId read.userRef db with
      | none => exact fun _ => hn
      | some found =>
        obtain ⟨id, envelope⟩ := found
        have hctx : SyncContext.accountId ⟨accountId, read.userRef, read.generationId, id⟩ =
          accountId := rfl
        have hid := readCredential_provider h hread
        dsimp only
        cases keys.openAccess accountId envelope with
        | none => exact fun _ => hn
        | some token =>
          refine .read (Unswapped.error hn) keeps_none fun db h => ?_
          cases hrun : InstagramArchive.activeRun accountId db with
          | none => exact startFresh_follows hctx hid hn
          | some run =>
            obtain ⟨t, ha, hof⟩ := h.activeRun hrun
            exact resumeActive_follows hctx hid ha hof hn
    · refine .emit (Unswapped.error hn) fun env db runId db' h hy => ?_
      refine ⟨recordNoop_moves h hy, fun _ => ?_⟩
      exact (m.swaps_apply _).trans hn

end Passes

end InstagramArchive

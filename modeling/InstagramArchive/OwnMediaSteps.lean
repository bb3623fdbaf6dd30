import InstagramArchive.OwnMediaWrites

/-!
# What a pass can write

`SyncWrite` lists the transactions of a pass over one account, each with the event it leaves,
and `runAccountOnce_grounded` says that a pass commits nothing else. What a pass knows between
two of its transactions stays true while the rest of the service writes: the owner and the
provider identity of its account, and that its run belongs to the account.
-/

namespace InstagramArchive

open Relational Relational.Tx

/-- The account of a pass with what never changes about it. -/
structure PassAccount where
  accountId : Uuid
  owner : Uuid
  provider : String
  deriving DecidableEq, Repr

/-- What the pass carries under a capability generation. -/
def PassAccount.context (who : PassAccount) (generationId : Uuid) : SyncContext :=
  ⟨who.accountId, who.owner, generationId, who.provider⟩

/-- What a pass knows of the tables, once it works on a run. -/
structure PassAccount.Holds (who : PassAccount) (run : Option Uuid) (db : Db) : Prop where
  account : ∀ a ∈ db.accounts, a.accountId = who.accountId →
    a.userRef = who.owner ∧ a.providerAccountId = who.provider
  run : ∀ runId, run = some runId → ∀ r ∈ db.syncRuns, r.runId = runId →
    r.accountId = who.accountId

/-- What one transaction of a pass can commit. -/
inductive SyncWrite (lib : Externals) (who : PassAccount) (run : Option Uuid) (env : Env)
    (db : Db) : Option SyncEvent → Db → Prop
  /-- A read, or a row of the usage ledger. -/
  | usage {db' : Db} (h : OnlyUsage db db') : SyncWrite lib who run env db none db'
  | noop {config : OwnMediaSyncConfig} {read : CapabilityRead} {now : Instant} {runId : Uuid}
      {db' : Db} (howner : read.userRef = who.owner)
      (h : (recordNoop config who.accountId read now).Yields env db runId db') :
      SyncWrite lib who run env db (some (.noop who.accountId runId)) db'
  | opened {generationId runId : Uuid} {watermark : Option String} {now : Instant} {db' : Db}
      (h : (openRun who.accountId who.owner generationId watermark now).Yields env db runId db') :
      SyncWrite lib who run env db (some (.opened who.accountId runId generationId)) db'
  | resumed {runId : Uuid} {now : Instant} (hrun : run = some runId) :
      SyncWrite lib who run env db (some (.resumed runId)) (resumeRun runId now db)
  | accepted {runId : Uuid} {cursor candidate : Option String} {page : ProviderOwnMediaPage}
      {now : Instant} {db' : Db} (hrun : run = some runId)
      (h : (persistPage lib runId who.provider page candidate now).Yields env db () db') :
      SyncWrite lib who run env db (some (.accepted runId cursor page)) db'
  | suspended {runId : Uuid} {reason : SyncRunReason} {now : Instant} (hrun : run = some runId) :
      SyncWrite lib who run env db (some (.suspended runId)) (suspendRun runId reason now db)
  | refused {runId : Uuid} {error : ProviderError} {now : Instant} (hrun : run = some runId)
      (h : isRetryable error.failureClass = false) :
      SyncWrite lib who run env db (some (.closed runId)) (markProviderFailure runId error now db)
  | finalized {config : OwnMediaSyncConfig} {generationId runId : Uuid}
      {candidate : Option String} {now : Instant} {completed : Bool} {db' : Db}
      (hrun : run = some runId)
      (h : (finalizeRun lib config (who.context generationId) runId candidate
        now).Yields env db completed db') :
      SyncWrite lib who run env db
        (some (if completed then .completed runId candidate else .closed runId)) db'

/-! ## Knowledge survives the own writes of a pass -/

section Knowledge

variable {lib : Externals} {who : PassAccount} {run : Option Uuid} {env : Env} {db db' : Db}

theorem PassAccount.Holds.of_eq (h : who.Holds run db) (haccounts : db'.accounts = db.accounts)
    (hruns : db'.syncRuns = db.syncRuns) : who.Holds run db' := by
  constructor
  · rw [haccounts]
    exact h.account
  · rw [hruns]
    exact h.run

/-- Updates that leave the account of a run alone. -/
theorem PassAccount.Holds.updateRuns (h : who.Holds run db) {p : SyncRun → Bool}
    {f : SyncRun → SyncRun} {hf : ∀ r, (f r).runId = r.runId}
    (ha : ∀ r, (f r).accountId = r.accountId) : who.Holds run (updateRuns p f hf db) := by
  refine ⟨h.account, fun runId hk r hr hid => ?_⟩
  obtain ⟨q, hq, rfl⟩ := mem_updateRuns.mp hr
  by_cases hp : p q = true
  · rw [if_pos hp] at hid ⊢
    rw [ha]
    exact h.run runId hk q hq ((hf q).symm.trans hid)
  · rw [if_neg hp] at hid ⊢
    exact h.run runId hk q hq hid

theorem PassAccount.Holds.withRun (h : who.Holds run db) {runId : Uuid}
    (hrun : ∀ r ∈ db.syncRuns, r.runId = runId → r.accountId = who.accountId) :
    who.Holds (some runId) db := by
  refine ⟨h.account, fun id hid => ?_⟩
  cases hid
  exact hrun

theorem markProviderFailure_holds (h : who.Holds run db) (runId : Uuid) (error : ProviderError)
    (now : Instant) : who.Holds run (markProviderFailure runId error now db) := by
  unfold markProviderFailure
  split
  · exact h.updateRuns fun _ => rfl
  · exact h.updateRuns fun _ => rfl

theorem persistPage_holds (h : who.Holds run db) {runId : Uuid} {provider : String}
    {page : ProviderOwnMediaPage} {candidate : Option String} {now : Instant} {u : Unit}
    (hy : (persistPage lib runId provider page candidate now).Yields env db u db') :
    who.Holds run db' := by
  obtain ⟨rawRecordId, raws, -, -, rfl⟩ := persistPage_yields hy
  apply PassAccount.Holds.updateRuns
  · exact h.of_eq rfl rfl
  · exact fun _ => rfl

theorem openRun_holds (h : who.Holds run db) {generationId runId : Uuid} {watermark : Option String}
    {now : Instant}
    (hy : (openRun who.accountId who.owner generationId watermark now).Yields env db runId db') :
    who.Holds (some runId) db' := by
  obtain ⟨runs, items, hrows, -, hfresh, -, rfl⟩ := openRun_yields hy
  refine ⟨h.account, fun id hid r hr hrid => ?_⟩
  cases hid
  rw [Table.mem_rows, hrows, List.mem_append, List.mem_singleton] at hr
  rcases hr with hr | rfl
  · exact (hfresh r hr hrid).elim
  · rfl

end Knowledge

/-! ## Passes -/

section Passes

variable {lib : Externals} {who : PassAccount} {run : Option Uuid} {config : OwnMediaSyncConfig} {token : String}
  {now : Instant} {runId generationId : Uuid}

/-- The script commits what `SyncWrite` lists. -/
abbrev Grounds (lib : Externals) (who : PassAccount) (run : Option Uuid)
    (script : SyncScript OwnMediaSyncOutcome) : Prop :=
  script.Grounded who.Holds (SyncWrite lib who) run

theorem read_write (run : Option Uuid) (env : Env) (db : Db) : SyncWrite lib who run env db none db :=
  .usage ⟨db.providerUsage, rfl⟩

theorem OnlyUsage.holds {db db' : Db} (h : who.Holds run db) (hu : OnlyUsage db db') : who.Holds run db' := by
  obtain ⟨t, rfl⟩ := hu
  exact h.of_eq rfl rfl

theorem stopRetryable_grounded (walk : Walk) (hrun : run = some walk.runId)
    (reason : SyncRunReason) : Grounds lib who run (stopRetryable walk reason now) := by
  refine .emit fun env db _ db' hk hy => ?_
  obtain rfl := hy.execute
  exact ⟨.suspended hrun, run, hk.updateRuns fun _ => rfl, trivial⟩

theorem refuse_grounded (walk : Walk) (hrun : run = some walk.runId) (error : ProviderError) :
    Grounds lib who run (refuse walk error now) := by
  refine .emit fun env db _ db' hk hy => ?_
  obtain rfl := hy.execute
  refine ⟨?_, run, markProviderFailure_holds hk walk.runId error now, ?_⟩
  · cases hretry : isRetryable error.failureClass with
    | true =>
      have hsuspend : markProviderFailure walk.runId error now db =
          suspendRun walk.runId .providerRetryable now db := by
        simp [markProviderFailure, hretry]
      rw [hsuspend]
      exact .suspended hrun
    | false => exact .refused hrun hretry
  · cases isRetryable error.failureClass <;> trivial

theorem complete_grounded (walk : Walk) (hrun : run = some walk.runId) :
    Grounds lib who run
      (complete lib config (who.context generationId) walk now) := by
  refine .emit fun env db completed db' hk hy => ?_
  refine ⟨.finalized hrun hy, run, ?_, ?_⟩
  · rcases finalizeRun_yields hy with ⟨-, -, rfl⟩ | ⟨-, -, applied, published, n, happly, hpub, rfl⟩
    · exact hk.updateRuns fun _ => rfl
    · obtain ⟨m, r, rfl⟩ := applyStagedItems_onlyMedia _ _ _ _ _ _ _ happly
      obtain ⟨outbox, rfl⟩ := appendOwnMediaFacts_onlyOutbox _ _ _ _ _ _ _ _ hpub
      apply PassAccount.Holds.updateRuns
      · exact hk.of_eq rfl rfl
      · exact fun _ => rfl
  · cases completed <;> trivial

/-- The page loop, by induction on the pages that are left. -/
theorem traverse_grounded (pages : Nat) (budget : ProviderBudget) (walk : Walk)
    (hrun : run = some walk.runId) :
    Grounds lib who run (traverse lib config (who.context generationId) token now
      pages budget walk) := by
  induction pages generalizing budget walk with
  | zero => exact stopRetryable_grounded walk hrun .pageLimit
  | succ pages ih =>
    unfold traverse
    split
    · exact stopRetryable_grounded walk hrun .budgetExhausted
    · refine .tx fun env db reserved db' hk hy => ?_
      have hreserve := budget.reserve_onlyUsage _ _ _ _ _ _ hy.mapError
      refine ⟨.usage hreserve, run, hreserve.holds hk, ?_⟩
      refine .request fun answer => ?_
      refine .tx fun env db _ db' hk hy => ?_
      have hfinish : OnlyUsage db db' := by
        cases answer with
        | ok page => exact ProviderBudget.complete_onlyUsage _ _ _ _ _ _ _ _ _ hy.mapError
        | error e => exact ProviderBudget.complete_onlyUsage _ _ _ _ _ _ _ _ _ hy.mapError
      refine ⟨.usage hfinish, run, hfinish.holds hk, ?_⟩
      cases answer with
      | error error => exact refuse_grounded walk hrun error
      | ok page =>
        refine .emit fun env db _ db' hk hy => ?_
        refine ⟨.accepted hrun hy, run, persistPage_holds hk hy, ?_⟩
        have hafter : run = some (walk.after page).runId := hrun
        split
        · exact complete_grounded (walk.after page) hafter
        · split
          · exact stopRetryable_grounded (walk.after page) hafter .pageLimit
          · exact ih _ _ hafter

theorem resumeActive_grounded (active : SyncRun) (hrun : run = some active.runId) :
    Grounds lib who run
      (resumeActive lib config (who.context generationId) token now active) := by
  unfold resumeActive
  split
  · trivial
  · refine .emit fun env db _ db' hk hy => ?_
    obtain rfl := hy.execute
    refine ⟨.resumed hrun, run, hk.updateRuns fun _ => rfl, ?_⟩
    refine .tx fun env db budget db' hk hy => ?_
    obtain ⟨-, rfl⟩ := ProviderBudget.resume_yields hy.mapError
    exact ⟨read_write run env db, run, hk, traverse_grounded _ _ _ hrun⟩

theorem startFresh_grounded :
    Grounds lib who run (startFresh lib config (who.context generationId) token now) := by
  refine .read read_write fun db hk => ⟨run, hk, ?_⟩
  refine .emit fun env db runId db' hk hy => ?_
  refine ⟨.opened hy, some runId, openRun_holds hk hy, ?_⟩
  exact traverse_grounded _ _ _ rfl

theorem readCapability_account {accountId : Uuid} {db : Db} {read : CapabilityRead}
    (h : readCapability accountId db = some read) :
    ∃ a ∈ db.accounts, a.accountId = accountId ∧ a.userRef = read.userRef ∧
      a.providerAccountId = read.providerAccountId ∧ a.connectionStatus = read.connectionStatus := by
  unfold readCapability at h
  obtain ⟨account, haccount, h⟩ := Option.bind_eq_some_iff.mp h
  obtain ⟨capability, -, h⟩ := Option.bind_eq_some_iff.mp h
  obtain ⟨hmem, hid⟩ := Table.lookup_eq_some.mp haccount
  cases h
  exact ⟨account, hmem, hid, rfl, rfl, rfl⟩

theorem readCredential_account {accountId userRef : Uuid} {db : Db} {provider : String}
    {envelope : List UInt8} (h : readCredential accountId userRef db = some (provider, envelope)) :
    ∃ a ∈ db.accounts, a.accountId = accountId ∧ a.userRef = userRef ∧
      a.providerAccountId = provider ∧ a.connectionStatus = .connected := by
  unfold readCredential at h
  obtain ⟨account, haccount, h⟩ := Option.bind_eq_some_iff.mp h
  obtain ⟨credential, -, h⟩ := Option.bind_eq_some_iff.mp h
  obtain ⟨hmem, hid⟩ := Table.lookup_eq_some.mp haccount
  split at h
  · rename_i howner
    cases h
    exact ⟨account, hmem, hid, howner.1, rfl, howner.2⟩
  · cases h

theorem recordNoop_holds {env : Env} {db db' : Db} (h : who.Holds run db) {read : CapabilityRead}
    (hy : (recordNoop config who.accountId read now).Yields env db runId db') : who.Holds run db' := by
  obtain ⟨row, due, runs, -, hacc, -, hrows, -, rfl⟩ := recordNoop_yields hy
  refine ⟨h.account, fun id hid r hr hrid => ?_⟩
  rw [Table.mem_rows, hrows, List.mem_append, List.mem_singleton] at hr
  rcases hr with hr | rfl
  · have hclosed : who.Holds run (closeActiveRuns who.accountId now db) := h.updateRuns fun _ => rfl
    exact hclosed.run id hid r hr hrid
  · exact hacc

/-- **A pass commits nothing but what `SyncWrite` lists**, whatever the provider answers. -/
theorem runAccountOnce_grounded (keys : CredentialKeyring) (config : OwnMediaSyncConfig)
    (now : Instant) (who : PassAccount) (run : Option Uuid) :
    Grounds lib who run (runAccountOnce lib keys config who.accountId now) := by
  refine .read read_write fun db hk => ⟨run, hk, ?_⟩
  cases hread : readCapability who.accountId db with
  | none => trivial
  | some read =>
    obtain ⟨account, hmem, hid, howner, -, -⟩ := readCapability_account hread
    have hread_owner : read.userRef = who.owner := howner.symm.trans (hk.account account hmem hid).1
    change Grounds lib who run (if read.eligible then _ else _)
    split
    · refine .read read_write fun db hk => ⟨run, hk, ?_⟩
      cases hread : readCredential who.accountId read.userRef db with
      | none => trivial
      | some found =>
        obtain ⟨provider, envelope⟩ := found
        obtain ⟨account, hmem, hid, -, hprovider, -⟩ := readCredential_account hread
        have hread_provider : provider = who.provider :=
          hprovider.symm.trans (hk.account account hmem hid).2
        dsimp only
        cases keys.openAccess who.accountId envelope with
        | none => trivial
        | some token =>
          rw [hread_owner, hread_provider]
          refine .read read_write fun db hk => ?_
          cases hrun : activeRun who.accountId db with
          | none => exact ⟨run, hk, startFresh_grounded⟩
          | some active =>
            obtain ⟨hmem, hacc, -⟩ := activeRun_eq_some hrun
            refine ⟨some active.runId, hk.withRun fun r hr hid => ?_, ?_⟩
            · rw [Table.eq_of_key_eq hr hmem hid]
              exact hacc
            · exact resumeActive_grounded active rfl
    · refine .emit fun env db runId db' hk hy => ?_
      exact ⟨.noop hread_owner hy, run, recordNoop_holds hk hy, trivial⟩

end Passes

end InstagramArchive

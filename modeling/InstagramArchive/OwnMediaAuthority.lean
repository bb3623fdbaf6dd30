import InstagramArchive.OwnMediaRefinement
import InstagramArchive.Reference
import InstagramArchive.Relational.Execution

/-!
# Own-media authority is swapped whole

The synchronization of one account as a system: at most one pass is under way, the provider
answers whatever it likes, the process dies between any two commits, and the connection,
the capabilities, the credentials and every other table of the database change at any time.
In every such run the authority names a completed run, and only a completion moves the
watermark and the authority.
-/

namespace InstagramArchive

open Relational Relational.Tx

/-! ## The system -/

/-- One account's synchronization between two commits. -/
structure SyncSystem where
  db : Db
  /-- The pass under way, or the last one with its result. -/
  pass : Option (SyncScript OwnMediaSyncOutcome) := none
  /-- The database in which that pass began. -/
  since : Db
  history : List SyncEvent := []

inductive SyncAction where
  /-- A pass begins, unless one is under way. -/
  | begin (config : OwnMediaSyncConfig) (now : Instant)
  /-- The pass commits its next transaction or receives its next answer. -/
  | advance (env : Env) (answer : OwnMediaAnswer)
  | crash
  | connection (status : ConnectionStatus)
  /-- The rest of the service writes: every table but the accounts and the own-media ones. -/
  | others (tables : Db)

/-- Whether a pass is under way. -/
def SyncSystem.busy (s : SyncSystem) : Bool :=
  match s.pass with
  | none | some (.finish _) => false
  | some _ => true

def withConnection (accountId : Uuid) (status : ConnectionStatus) (db : Db) : Db :=
  { db with
    accounts := db.accounts.update (fun a => a.accountId = accountId)
      fun a => { a with connectionStatus := status } }

/-- The tables of others, with the accounts and the own-media tables of the database. -/
def withOthers (tables db : Db) : Db :=
  { tables with
    accounts := db.accounts
    syncRuns := db.syncRuns
    syncStates := db.syncStates
    syncItems := db.syncItems
    syncAuthorities := db.syncAuthorities }

section Steps

variable (lib : Externals) (keys : CredentialKeyring) (accountId : Uuid)

def syncStep (s : SyncSystem) : SyncAction → SyncSystem
  | .begin config now =>
    if s.busy then s
    else { s with pass := some (runAccountOnce lib keys config accountId now), since := s.db }
  | .advance env answer =>
    match s.pass with
    | none => s
    | some script =>
      match script.advance env answer s.db with
      | (next, db, event) =>
        { s with db, pass := some next, history := s.history ++ event.toList }
  | .crash => { s with pass := none }
  | .connection status => { s with db := withConnection accountId status s.db }
  | .others tables => { s with db := withOthers tables s.db }

/-- The system of a database in which the account has not synchronized yet. -/
def SyncSystem.start (db : Db) : SyncSystem := { db, since := db }

end Steps

/-- The account has no run, no state and no authority, and items belong to runs. -/
structure Untouched (accountId : Uuid) (db : Db) : Prop where
  runs : ∀ r ∈ db.syncRuns, r.accountId ≠ accountId
  state : db.syncStates.lookup accountId = none
  authority : db.syncAuthorities.lookup accountId = none
  located : ∀ i ∈ db.syncItems, ∃ r ∈ db.syncRuns, r.runId = i.runId

/-! ## What the system keeps -/

/-- The tables represent the machine that replays the history, and the pass follows it. -/
structure SyncSystem.Sound (Answers : OwnMediaRequest → OwnMediaAnswer → Prop) (accountId : Uuid)
    (provider : String) (s : SyncSystem) : Prop where
  represents : Represents accountId provider (Mirror.replay s.history) s.db
  pass : ∀ script, s.pass = some script → ∃ n,
    script.Follows (ownMediaProtocol accountId provider Answers) (Unswapped n)
      (Mirror.replay s.history) ∧
    n ≤ (Mirror.replay s.history).swaps ∧
    ((Mirror.replay s.history).swaps = n → SameView accountId s.since s.db)

/-- The answer of an action fits the question of the pass. -/
def SyncSystem.Answered (Answers : OwnMediaRequest → OwnMediaAnswer → Prop) (s : SyncSystem) :
    SyncAction → Prop
  | .advance _ answer => ∀ request ∈ s.pass.bind Script.asked, Answers request answer
  | _ => True

instance {Answers : OwnMediaRequest → OwnMediaAnswer → Prop} [∀ r a, Decidable (Answers r a)]
    (s : SyncSystem) : (a : SyncAction) → Decidable (s.Answered Answers a)
  | .advance _ answer =>
    inferInstanceAs (Decidable (∀ request ∈ s.pass.bind Script.asked, Answers request answer))
  | .begin _ _ | .crash | .connection _ | .others _ => instDecidableTrue

section Kept

variable {accountId : Uuid} {provider : String}
  {Answers : OwnMediaRequest → OwnMediaAnswer → Prop} {s : SyncSystem} {db : Db}

theorem Untouched.represents (h : Untouched accountId db)
    (hprovider : ∀ a ∈ db.accounts, a.accountId = accountId → a.providerAccountId = provider) :
    Represents accountId provider {} db := by
  constructor
  · exact hprovider
  · simp [syncWatermark, h.state]
  · simp [syncAuthority, h.authority]
  · intro runId hm
    cases hm
  · simp
  · exact fun _ r hr ha => (h.runs r hr ha).elim
  · intro t ht
    cases ht
  · intro t ht
    cases ht
  · rintro i - ⟨r, hr, -, ha⟩
    exact (h.runs r hr ha).elim
  · exact h.located
  · intro runId cursor page hlog
    cases hlog

theorem Untouched.sound (h : Untouched accountId db)
    (hprovider : ∀ a ∈ db.accounts, a.accountId = accountId → a.providerAccountId = provider) :
    (SyncSystem.start db).Sound Answers accountId provider :=
  ⟨h.represents hprovider, fun script hs => by cases hs⟩

theorem after_swaps (Answers : OwnMediaRequest → OwnMediaAnswer → Prop) (accountId : Uuid)
    (provider : String) (m : Mirror) (event : Option SyncEvent) :
    ((ownMediaProtocol accountId provider Answers).after m event).swaps =
      m.swaps + if event.any SyncEvent.swaps then 1 else 0 := by
  cases event with
  | none => rfl
  | some e => exact m.swaps_apply e

/-- An account has one provider identity. -/
theorem provider_exists (accountId : Uuid) (db : Db) :
    ∃ provider, ∀ a ∈ db.accounts, a.accountId = accountId → a.providerAccountId = provider := by
  cases haccount : db.accounts.lookup accountId with
  | none => exact ⟨"", fun a ha hid => (Table.lookup_eq_none.mp haccount a ha hid).elim⟩
  | some account =>
    obtain ⟨hmem, hid⟩ := Table.lookup_eq_some.mp haccount
    refine ⟨account.providerAccountId, fun a ha haid => ?_⟩
    rw [Table.eq_of_key_eq ha hmem (haid.trans hid.symm)]

theorem SameOwnMedia.withConnection (status : ConnectionStatus) :
    SameOwnMedia db (withConnection accountId status db) := by
  refine ⟨fun a ha => ?_, rfl, rfl, rfl, rfl⟩
  obtain ⟨b, hb, rfl⟩ := Table.exists_of_mem_update ha
  refine ⟨b, hb, ?_⟩
  split <;> exact ⟨rfl, rfl⟩

/-- A write outside the own-media tables. -/
theorem SyncSystem.Sound.outside {db' : Db} (h : s.Sound Answers accountId provider)
    (hsame : SameOwnMedia s.db db') :
    SyncSystem.Sound Answers accountId provider { s with db := db' } := by
  refine ⟨h.represents.frame hsame, fun script hs => ?_⟩
  obtain ⟨n, hfollows, hle, hview⟩ := h.pass script hs
  exact ⟨n, hfollows, hle, fun hn => (hview hn).trans (hsame.sameView accountId)⟩

/-- **One step of the system**: it leaves at most one event, by which the machine and the
tables move together. -/
theorem SyncSystem.Sound.step (lib : Externals) (keys : CredentialKeyring)
    (h : s.Sound Answers accountId provider) (a : SyncAction) (ha : s.Answered Answers a) :
    ∃ event, (syncStep lib keys accountId s a).history = s.history ++ Option.toList event ∧
      (ownMediaProtocol accountId provider Answers).Moves (Mirror.replay s.history) event s.db
        (syncStep lib keys accountId s a).db ∧
      (syncStep lib keys accountId s a).Sound Answers accountId provider := by
  have hstay : (ownMediaProtocol accountId provider Answers).Moves (Mirror.replay s.history) none
      s.db s.db := moves_none h.represents (.of_eq rfl rfl rfl rfl rfl)
  cases a with
  | begin config now =>
    refine ⟨none, ?_, ?_, ?_⟩
    · simp only [syncStep]
      split <;> simp
    · simp only [syncStep]
      split <;> exact hstay
    · simp only [syncStep]
      split
      · exact h
      · refine ⟨h.represents, fun script hs => ?_⟩
        cases hs
        exact ⟨_, runAccountOnce_follows keys config now rfl, le_rfl,
          fun _ => SameView.refl accountId s.db⟩
  | crash => exact ⟨none, by simp [syncStep], hstay, h.represents, fun script hs => by cases hs⟩
  | connection status =>
    have hsame : SameOwnMedia s.db (withConnection accountId status s.db) :=
      .withConnection status
    exact ⟨none, by simp [syncStep], moves_none h.represents hsame, h.outside hsame⟩
  | others tables =>
    have hsame : SameOwnMedia s.db (withOthers tables s.db) := .of_eq rfl rfl rfl rfl rfl
    exact ⟨none, by simp [syncStep], moves_none h.represents hsame, h.outside hsame⟩
  | advance env answer =>
    cases hs : s.pass with
    | none => exact ⟨none, by simp [syncStep, hs], by simpa [syncStep, hs] using hstay,
        by simpa [syncStep, hs] using h⟩
    | some script =>
      obtain ⟨n, hfollows, hle, hview⟩ := h.pass script hs
      have hanswer : ∀ request ∈ script.asked, Answers request answer := by
        simpa [SyncSystem.Answered, hs] using ha
      obtain ⟨hmove, hnext⟩ := hfollows.advance h.represents (keeps_none s.db) env answer hanswer
      have hreplay : Mirror.replay
          (s.history ++ (script.advance env answer s.db).2.2.toList) =
            (ownMediaProtocol accountId provider Answers).after (Mirror.replay s.history)
              (script.advance env answer s.db).2.2 := by
        cases (script.advance env answer s.db).2.2 with
        | none => simp [Protocol.after]
        | some e => exact Mirror.replay_concat s.history e
      simp only [syncStep, hs]
      refine ⟨_, rfl, hmove, ⟨?_, ?_⟩⟩
      · rw [hreplay]
        exact hmove.represents
      · intro next hpass
        cases hpass
        rw [hreplay]
        have hcount := after_swaps Answers accountId provider (Mirror.replay s.history)
          (script.advance env answer s.db).2.2
        refine ⟨n, hnext, by omega, fun hn => ?_⟩
        -- a swap would have raised the count above `n`
        cases hswap : (script.advance env answer s.db).2.2.any SyncEvent.swaps with
        | false =>
          rw [hswap] at hcount
          exact (hview (by simpa [hn] using hcount.symm)).trans (hmove.keeps hswap)
        | true =>
          rw [hswap] at hcount
          simp only [if_true] at hcount
          omega

/-- **Every run of the system** keeps the tables and the machine together, and every
invariant of the machine. -/
theorem sync_run_sound (lib : Externals) (keys : CredentialKeyring) {I : Mirror → Prop} (hI : I {})
    (hmove : ∀ m e, m.Allows Answers e → I m → I (m.apply e)) (h : Untouched accountId db)
    (hprovider : ∀ a ∈ db.accounts, a.accountId = accountId → a.providerAccountId = provider)
    {actions : List SyncAction}
    (hg : Guarded (syncStep lib keys accountId) (SyncSystem.Answered Answers)
      (SyncSystem.start db) actions) :
    (run (syncStep lib keys accountId) (SyncSystem.start db) actions).Sound Answers accountId
        provider ∧
      I (Mirror.replay (run (syncStep lib keys accountId) (SyncSystem.start db) actions).history) := by
  refine run_invariant _ (SyncSystem.Answered Answers)
    (fun s => s.Sound Answers accountId provider ∧ I (Mirror.replay s.history)) ?_ hg
    ⟨h.sound hprovider, hI⟩
  rintro s a ha ⟨hs, hi⟩
  obtain ⟨event, hhistory, hmoves, hs'⟩ := hs.step lib keys a ha
  refine ⟨hs', ?_⟩
  rw [hhistory]
  cases event with
  | none => simpa using hi
  | some e =>
    rw [Option.toList_some, Mirror.replay_concat]
    exact hmove _ e (hmoves.allowed e rfl) hi

end Kept

/-! ## What the machine keeps -/

/-- The identities a run accepted with an event. -/
def SyncEvent.acceptedIds (runId : Uuid) : SyncEvent → List String
  | .accepted id _ page =>
    if id = runId then page.items.map ProviderOwnMediaItem.providerMediaId else []
  | _ => []

/-- The identities a run accepted, in the order it accepted them. -/
def acceptedIds (runId : Uuid) (history : List SyncEvent) : List String :=
  history.flatMap (SyncEvent.acceptedIds runId)

/-- The authority was completed with the watermark, and a traversal has read what its run
accepted. -/
structure Mirror.Consistent (m : Mirror) : Prop where
  authority : ∀ runId, m.authority = some runId → SyncEvent.completed runId m.watermark ∈ m.log
  ids : ∀ t, m.active = some t → t.ids = acceptedIds t.runId m.log

theorem acceptedIds_concat (runId : Uuid) (history : List SyncEvent) (e : SyncEvent) :
    acceptedIds runId (history ++ [e]) = acceptedIds runId history ++ e.acceptedIds runId := by
  simp [acceptedIds]

theorem acceptedIds_eq_nil {runId : Uuid} {history : List SyncEvent}
    (h : ∀ cursor page, SyncEvent.accepted runId cursor page ∉ history) :
    acceptedIds runId history = [] := by
  refine List.flatMap_eq_nil_iff.mpr fun e he => ?_
  cases e with
  | accepted id cursor page =>
    have hne : id ≠ runId := by
      rintro rfl
      exact h cursor page he
    simp [SyncEvent.acceptedIds, hne]
  | _ => rfl

theorem Mirror.Consistent.apply {Answers : OwnMediaRequest → OwnMediaAnswer → Prop} {m : Mirror}
    {e : SyncEvent} (ha : m.Allows Answers e) (h : m.Consistent) : (m.apply e).Consistent := by
  have hauthority : ∀ runId, m.authority = some runId →
      SyncEvent.completed runId m.watermark ∈ m.log ++ [e] :=
    fun runId hm => List.mem_append_left _ (h.authority runId hm)
  -- an event that accepts nothing leaves every traversal's reading as it is
  have hids : ∀ t t' : Traversal, m.active = some t → t'.ids = t.ids → t'.runId = t.runId →
      e.acceptedIds t'.runId = [] → t'.ids = acceptedIds t'.runId (m.log ++ [e]) := by
    intro t t' hm hread hid hnone
    rw [acceptedIds_concat, hnone, List.append_nil, hread, hid]
    exact h.ids t hm
  cases e with
  | noop | closed => exact ⟨hauthority, fun t ht => (by cases ht)⟩
  | opened accountId runId generationId =>
    refine ⟨hauthority, ?_⟩
    rintro t ht
    cases ht
    change [] = acceptedIds runId (m.log ++ _)
    rw [acceptedIds_concat, acceptedIds_eq_nil ha.2]
    rfl
  | resumed runId =>
    obtain ⟨t, hm, -⟩ := ha
    refine ⟨hauthority, fun t' ht' => ?_⟩
    simp only [Mirror.apply, Mirror.move, hm, Option.map_some, Option.some.injEq] at ht'
    subst ht'
    exact hids t _ hm rfl rfl rfl
  | suspended runId =>
    obtain ⟨t, hm, -⟩ := ha
    refine ⟨hauthority, fun t' ht' => ?_⟩
    simp only [Mirror.apply, Mirror.move, hm, Option.map_some, Option.some.injEq] at ht'
    subst ht'
    exact hids t _ hm rfl rfl rfl
  | accepted runId cursor page =>
    obtain ⟨t, ⟨hm, rfl⟩, -⟩ := ha
    refine ⟨hauthority, fun t' ht' => ?_⟩
    simp only [Mirror.apply, Mirror.move, hm, Option.map_some, Option.some.injEq] at ht'
    subst ht'
    rw [t.ids_accept, h.ids t hm]
    simp [Mirror.apply, Mirror.move, acceptedIds_concat, SyncEvent.acceptedIds, Traversal.accept]
  | completed runId watermark =>
    refine ⟨fun id hid => ?_, fun t ht => (by cases ht)⟩
    cases hid
    simp [Mirror.apply, Mirror.move]

theorem Represents.mem_catalogue {accountId : Uuid} {provider : String} {m : Mirror} {db : Db}
    (h : Represents accountId provider m db) {id : String} :
    id ∈ m.catalogue ↔ ∃ i ∈ visibleItems accountId db, i.providerMediaId = id := by
  rw [h.catalogue id, ← h.authority]
  constructor
  · rintro ⟨runId, hm, i, hi, hrun, hid⟩
    exact ⟨i, mem_visibleItems.mpr ⟨runId, hm, hi, hrun⟩, hid⟩
  · rintro ⟨i, hi, hid⟩
    obtain ⟨runId, hm, hi, hrun⟩ := mem_visibleItems.mp hi
    exact ⟨runId, hm, i, hi, hrun, hid⟩

/-! ## The authority -/

/-- What holds between two commits. -/
structure AuthoritySound (accountId : Uuid) (s : SyncSystem) : Prop where
  /-- The authority names a run that was finalized with the visible watermark. -/
  completed : ∀ runId, syncAuthority accountId s.db = some runId →
    (∃ r ∈ s.db.syncRuns, r.runId = runId ∧ r.accountId = accountId ∧ r.status = .completed) ∧
      SyncEvent.completed runId (syncWatermark accountId s.db) ∈ s.history
  /-- Visible items are the account's own and were read from accepted pages. -/
  observed : ∀ account, s.db.accounts.lookup accountId = some account →
    ∀ i ∈ visibleItems accountId s.db,
      i.ownerProviderAccountId = account.providerAccountId ∧ Observed s.history i
  /-- A pass that ended otherwise than completed shows what was shown when it began. -/
  unfinished : ∀ result, s.pass = some (.finish result) →
    (∀ runId watermark, result ≠ .ok (.completed runId watermark)) →
      SameView accountId s.since s.db
  oneActive : ∀ r ∈ s.db.syncRuns, ∀ r' ∈ s.db.syncRuns, r.accountId = accountId →
    r'.accountId = accountId → r.status.active = true → r'.status.active = true → r = r'

/-- What one step does to the view: nothing, or a completion replaces it by a greater one. -/
structure SwapsWhole (accountId : Uuid) (s s' : SyncSystem) : Prop where
  together : SameView accountId s.db s'.db ∨ ∃ runId watermark,
    s'.history = s.history ++ [.completed runId watermark] ∧
      syncAuthority accountId s'.db = some runId ∧ syncWatermark accountId s'.db = watermark ∧
      watermark = (acceptedIds runId s.history).head?
  grows : ∀ i ∈ visibleItems accountId s.db,
    ∃ i' ∈ visibleItems accountId s'.db, i'.providerMediaId = i.providerMediaId

section Authority

variable {accountId : Uuid} {provider : String}
  {Answers : OwnMediaRequest → OwnMediaAnswer → Prop} {s : SyncSystem} {db : Db}

theorem SyncSystem.Sound.authoritySound (h : s.Sound Answers accountId provider)
    (hm : (Mirror.replay s.history).Consistent) : AuthoritySound accountId s := by
  have hr := h.represents
  constructor
  · intro runId hauth
    rw [hr.authority] at hauth
    refine ⟨hr.completed runId hauth, ?_⟩
    rw [hr.watermark]
    simpa only [Mirror.log_replay] using hm.authority runId hauth
  · intro account haccount i hi
    obtain ⟨hmem, hid⟩ := Table.lookup_eq_some.mp haccount
    obtain ⟨runId, hauth, hi, hrun⟩ := mem_visibleItems.mp hi
    rw [hr.authority] at hauth
    obtain ⟨r, hr', hrid, hracc, -⟩ := hr.completed runId hauth
    obtain ⟨hobserved, howner⟩ := hr.origin i hi ⟨r, hr', hrid.trans hrun.symm, hracc⟩
    rw [Mirror.log_replay] at hobserved
    exact ⟨howner.trans (hr.account account hmem hid).symm, hobserved⟩
  · intro result hpass hresult
    obtain ⟨n, hfollows, -, hview⟩ := h.pass _ hpass
    exact hview (hfollows hresult)
  · intro r hr1 r' hr2 ha ha' hs hs'
    cases hactive : (Mirror.replay s.history).active with
    | none =>
      rw [hr.idle hactive r hr1 ha] at hs
      cases hs
    | some t =>
      obtain ⟨q, -, -, huniq⟩ := hr.active t hactive
      rw [huniq r hr1 ha hs, huniq r' hr2 ha' hs']

theorem SyncSystem.Sound.swapsWhole (lib : Externals) (keys : CredentialKeyring)
    (h : s.Sound Answers accountId provider)
    (hm : (Mirror.replay s.history).Consistent) (a : SyncAction) (ha : s.Answered Answers a) :
    SwapsWhole accountId s (syncStep lib keys accountId s a) := by
  obtain ⟨event, hhistory, hmoves, hs'⟩ := h.step lib keys a ha
  have hr := h.represents
  have hr' := hs'.represents
  cases hswap : event.any SyncEvent.swaps with
  | false =>
    have hview : SameView accountId s.db _ := hmoves.keeps hswap
    refine ⟨Or.inl hview, fun i hi => ⟨i, ?_, rfl⟩⟩
    rwa [hview.2.2]
  | true =>
    obtain ⟨e, rfl, he⟩ : ∃ e, event = some e ∧ e.swaps = true := by
      simpa [Option.any_eq_true] using hswap
    cases e with
    | completed runId watermark =>
      obtain ⟨t, ⟨hactive, rfl⟩, -, hwatermark⟩ := hmoves.allowed _ rfl
      rw [Option.toList_some] at hhistory
      rw [hhistory, Mirror.replay_concat] at hr'
      constructor
      · refine Or.inr ⟨t.runId, watermark, hhistory, hr'.authority, hr'.watermark, ?_⟩
        rw [hwatermark, Traversal.candidate, hm.ids t hactive, Mirror.log_replay]
      · intro i hi
        have hid := hr.mem_catalogue.mpr ⟨i, hi, rfl⟩
        exact hr'.mem_catalogue.mp (List.mem_append_left _ hid)
    | _ => cases he

/-- **Own-media authority is only ever swapped whole.** -/
theorem own_media_authority_swapped_whole (lib : Externals) (keys : CredentialKeyring)
    {accountId : Uuid} {db : Db} (h : Untouched accountId db) (actions : List SyncAction) :
    AuthoritySound accountId (run (syncStep lib keys accountId) (SyncSystem.start db) actions) ∧
      ∀ a, SwapsWhole accountId (run (syncStep lib keys accountId) (SyncSystem.start db) actions)
        (syncStep lib keys accountId
          (run (syncStep lib keys accountId) (SyncSystem.start db) actions) a) := by
  obtain ⟨provider, hprovider⟩ := provider_exists accountId db
  have hany : ∀ (s : SyncSystem) (a : SyncAction), s.Answered (fun _ _ => True) a := by
    intro s a
    cases a with
    | advance => exact fun _ _ => trivial
    | _ => trivial
  obtain ⟨hsound, hconsistent⟩ := sync_run_sound lib keys (I := Mirror.Consistent) ⟨nofun, nofun⟩
    (fun m e ha hm => hm.apply ha) h hprovider (guarded_of_all _ hany _ actions)
  exact ⟨hsound.authoritySound hconsistent,
    fun a => hsound.swapsWhole lib keys hconsistent a (hany _ a)⟩

end Authority

/-! ### A run of the system -/

/-- A keyring that keeps tokens in the clear. -/
def plainKeys : CredentialKeyring where
  openAccess _ bytes := some (String.ofList (bytes.map fun b => Char.ofNat b.toNat))
  sealAccess _ token := some (token.toList.map fun c => UInt8.ofNat c.toNat)
  currentVersion := 1

def connectedAccount : Account :=
  { accountId := 1, userRef := 9, providerAccountId := "p", username := "u",
    accountType := .business, connectionStatus := .connected, scopes := [], connectedAt := 0,
    updatedAt := 0 }

def mediaReadable (generationId : Uuid) : CapabilityRow :=
  { accountId := 1, generationId, capability := .ownMediaRead, capabilityState := .available,
    reason := .granted, observedAt := 0 }

def storedCredential : Credential :=
  { credentialId := 2, accountId := 1, accessTokenEnvelope := [116], keyVersion := 1,
    grantedPermissions := [], createdAt := 0 }

/-- A database with one connected account whose own media is readable under generation 5. -/
def connectedDb : Db where
  accounts := ⟨[connectedAccount], by decide⟩
  accountCapabilities := ⟨[mediaReadable 5], by decide⟩
  credentials := ⟨[storedCredential], by decide⟩

theorem connectedDb_untouched : Untouched 1 connectedDb where
  runs r hr := absurd hr (Table.not_mem_empty r)
  state := rfl
  authority := rfl
  located i hi := absurd hi (Table.not_mem_empty i)

def ownItem (id permalink : String) (caption : Option String) : ProviderOwnMediaItem :=
  { providerMediaId := id, ownerProviderAccountId := "p", mediaType := "IMAGE",
    mediaProductType := "FEED", permalink, caption, publishedAt := 0 }

/-- A page of posts without captions. -/
def ownPage (ids : List String) (next : Option String) : ProviderOwnMediaPage :=
  { items := ids.map fun id => ownItem id ("https://www.instagram.com/p/" ++ id ++ "/") none
    nextCursor := next
    rawBody := "[]" }

/-- A pass and twelve steps of it, with one answer for its questions. -/
def onePass (config : OwnMediaSyncConfig) (first : Uuid) (answer : OwnMediaAnswer) :
    List SyncAction :=
  .begin config 0 :: (List.range 12).map fun k => .advance (quietEnv 0 (first + 16 * k)) answer

/-- One page a pass. -/
def pageByPage (callBudget : Nat) : OwnMediaSyncConfig :=
  { cadenceSeconds := 60, pagesPerRun := 1, callBudget }

/-- The first synchronization of an account with two posts. -/
def firstSync : List SyncAction := onePass (pageByPage 1) 100 (.ok (ownPage ["b", "a"] none))

theorem own_media_authority_swapped_first :
    (run (syncStep reference plainKeys 1) (SyncSystem.start connectedDb) firstSync).history =
        [.opened 1 164 5, .accepted 164 none (ownPage ["b", "a"] none), .completed 164 (some "b")] ∧
      AuthoritySound 1
        (run (syncStep reference plainKeys 1) (SyncSystem.start connectedDb) firstSync) :=
  ⟨by decide +kernel,
    (own_media_authority_swapped_whole reference plainKeys connectedDb_untouched firstSync).1⟩

end InstagramArchive

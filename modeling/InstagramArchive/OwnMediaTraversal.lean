import InstagramArchive.OwnMedia

/-!
# The traversal machine

What the synchronization of one account is for, in its own terms: a watermark, the run
that has authority, the catalogue of provider identities it makes visible, and at most one
traversal under way with the pages it has accepted. The machine moves by the events a pass
leaves; only `completed` moves the watermark, the authority and the catalogue.

`Represents` ties the machine to the tables, and `ownMediaProtocol` is the protocol that
every pass follows.
-/

namespace InstagramArchive

open Relational Relational.Tx

/-! ## Traversals -/

/-- One traversal of an account's feed. -/
structure Traversal where
  runId : Uuid
  generationId : Uuid
  /-- The watermark the traversal has to reach. -/
  start : Option String
  /-- The accepted pages, each with the cursor it was asked at. -/
  pages : List (Option String × ProviderOwnMediaPage) := []
  running : Bool := true

namespace Traversal

def items (t : Traversal) : List ProviderOwnMediaItem := t.pages.flatMap fun p => p.2.items

def ids (t : Traversal) : List String := t.items.map ProviderOwnMediaItem.providerMediaId

/-- The first identity the traversal accepted. -/
def candidate (t : Traversal) : Option String := t.ids.head?

/-- Where the next page is asked: nowhere yet, or where the last page ends. -/
def cursor (t : Traversal) : Option String := t.pages.getLast?.bind fun p => p.2.nextCursor

def accept (t : Traversal) (cursor : Option String) (page : ProviderOwnMediaPage) : Traversal :=
  { t with pages := t.pages ++ [(cursor, page)] }

/-- What a pass carries for the traversal. -/
def walk (t : Traversal) : Walk := ⟨t.runId, t.start, t.candidate, t.cursor⟩

/-- The last page reaches the start or, without one, ends the feed. -/
def finished (t : Traversal) : Bool := t.pages.getLast?.any fun p => t.walk.completes p.2

variable (t : Traversal) (cursor : Option String) (page : ProviderOwnMediaPage)

@[simp] theorem ids_accept :
    (t.accept cursor page).ids =
      t.ids ++ page.items.map ProviderOwnMediaItem.providerMediaId := by
  simp [ids, items, accept]

@[simp] theorem cursor_accept : (t.accept cursor page).cursor = page.nextCursor := by
  simp [Traversal.cursor, accept]

theorem candidate_accept : (t.accept cursor page).candidate = t.walk.candidateAfter page := by
  simp only [candidate, ids_accept, Walk.candidateAfter, walk, List.head?_append, List.head?_map]
  cases t.ids.head? <;> rfl

/-- Accepting a page moves the walk as the page loop does. -/
theorem walk_accept : (t.accept cursor page).walk = t.walk.after page := by
  simp only [walk, Walk.after, cursor_accept, candidate_accept]
  rfl

theorem finished_accept : (t.accept cursor page).finished = t.walk.completes page := by
  simp only [finished, accept, List.getLast?_concat, Option.any_some]
  rfl

end Traversal

/-! ## The machine -/

structure Mirror where
  watermark : Option String := none
  authority : Option Uuid := none
  catalogue : List String := []
  active : Option Traversal := none
  log : List SyncEvent := []

namespace Mirror

/-- The machine after an event, its log aside. -/
def move (m : Mirror) : SyncEvent → Mirror
  | .noop _ _ | .closed _ => { m with active := none }
  | .opened _ runId generationId =>
    { m with active := some { runId, generationId, start := m.watermark } }
  | .resumed _ => { m with active := m.active.map fun t => { t with running := true } }
  | .suspended _ => { m with active := m.active.map fun t => { t with running := false } }
  | .accepted _ cursor page => { m with active := m.active.map fun t => t.accept cursor page }
  | .completed runId watermark =>
    { m with
      watermark
      authority := some runId
      catalogue := m.catalogue ++ (m.active.map Traversal.ids).getD []
      active := none }

def apply (m : Mirror) (e : SyncEvent) : Mirror := { m.move e with log := m.log ++ [e] }

/-- The machine after a history of events. -/
def replay (history : List SyncEvent) : Mirror := history.foldl apply {}

theorem replay_concat (history : List SyncEvent) (e : SyncEvent) :
    replay (history ++ [e]) = (replay history).apply e := by
  simp [replay]

theorem log_replay (history : List SyncEvent) : (replay history).log = history := by
  induction history using List.reverseRecOn with
  | nil => rfl
  | append_singleton history e ih =>
    rw [replay_concat]
    simp [apply, ih]

/-- The traversal under way, if it is the one of the run. -/
def Under (m : Mirror) (runId : Uuid) (t : Traversal) : Prop :=
  m.active = some t ∧ t.runId = runId

end Mirror

/-- Whether an event swaps the authority. -/
def SyncEvent.swaps : SyncEvent → Bool
  | .completed _ _ => true
  | _ => false

/-- How often the authority was swapped. -/
def Mirror.swaps (m : Mirror) : Nat := m.log.countP SyncEvent.swaps

/-- What the machine allows: a traversal opens under a run of its own, a page continues where
the last one ended, and a traversal completes when its last page finishes it. -/
def Mirror.Allows (Answers : OwnMediaRequest → OwnMediaAnswer → Prop) (m : Mirror) :
    SyncEvent → Prop
  | .noop _ _ => True
  | .opened _ runId _ =>
    m.active = none ∧ ∀ cursor page, SyncEvent.accepted runId cursor page ∉ m.log
  | .resumed runId | .suspended runId | .closed runId => ∃ t, m.Under runId t
  | .accepted runId cursor page =>
    ∃ t, m.Under runId t ∧ t.cursor = cursor ∧
      ∃ request, request.after = cursor ∧ Answers request (.ok page)
  | .completed runId watermark =>
    ∃ t, m.Under runId t ∧ t.finished = true ∧ watermark = t.candidate

/-! ## Representation -/

/-- The row of the traversal under way. -/
structure RunOf (accountId : Uuid) (t : Traversal) (r : SyncRun) : Prop where
  runId : r.runId = t.runId
  account : r.accountId = accountId
  generation : r.capabilityGenerationId = t.generationId
  start : r.startWatermark = t.start
  candidate : r.candidateWatermark = t.candidate
  cursor : r.nextCursor = t.cursor
  status : r.status = if t.running then .running else .retryable

/-- The item was read from an accepted page. -/
def Observed (log : List SyncEvent) (i : SyncItem) : Prop :=
  ∃ runId cursor page item rawRecordId now,
    SyncEvent.accepted runId cursor page ∈ log ∧ item ∈ page.items ∧
      SyncItem.observed i.runId rawRecordId now item = i

/-- The identities a run has staged. -/
def Staged (runId : Uuid) (db : Db) (id : String) : Prop :=
  ∃ i ∈ db.syncItems, i.runId = runId ∧ i.providerMediaId = id

/-- The tables of an account with a provider identity represent a state of the machine. -/
structure Represents (accountId : Uuid) (provider : String) (m : Mirror) (db : Db) : Prop where
  account : ∀ a ∈ db.accounts, a.accountId = accountId → a.providerAccountId = provider
  watermark : syncWatermark accountId db = m.watermark
  authority : syncAuthority accountId db = m.authority
  completed : ∀ runId, m.authority = some runId →
    ∃ r ∈ db.syncRuns, r.runId = runId ∧ r.accountId = accountId ∧ r.status = .completed
  catalogue : ∀ id, id ∈ m.catalogue ↔ ∃ runId, m.authority = some runId ∧ Staged runId db id
  idle : m.active = none → ∀ r ∈ db.syncRuns, r.accountId = accountId → r.status.active = false
  active : ∀ t, m.active = some t → ∃ r ∈ db.syncRuns, RunOf accountId t r ∧
    ∀ r' ∈ db.syncRuns, r'.accountId = accountId → r'.status.active = true → r' = r
  staged : ∀ t, m.active = some t →
    ∀ id, Staged t.runId db id ↔ id ∈ m.catalogue ∨ id ∈ t.ids
  origin : ∀ i ∈ db.syncItems, (∃ r ∈ db.syncRuns, r.runId = i.runId ∧ r.accountId = accountId) →
    Observed m.log i ∧ i.ownerProviderAccountId = provider
  located : ∀ i ∈ db.syncItems, ∃ r ∈ db.syncRuns, r.runId = i.runId
  recorded : ∀ runId cursor page, SyncEvent.accepted runId cursor page ∈ m.log →
    ∃ r ∈ db.syncRuns, r.runId = runId

/-- What the account shows: its watermark, its authority and the items behind it. -/
def SameView (accountId : Uuid) (db db' : Db) : Prop :=
  syncWatermark accountId db' = syncWatermark accountId db ∧
    syncAuthority accountId db' = syncAuthority accountId db ∧
    visibleItems accountId db' = visibleItems accountId db

theorem SameView.refl (accountId : Uuid) (db : Db) : SameView accountId db db := ⟨rfl, rfl, rfl⟩

theorem SameView.trans {accountId : Uuid} {a b c : Db} (h : SameView accountId a b)
    (h' : SameView accountId b c) : SameView accountId a c :=
  ⟨h'.1.trans h.1, h'.2.1.trans h.2.1, h'.2.2.trans h.2.2⟩

/-- The protocol of one account's synchronization. -/
def ownMediaProtocol (accountId : Uuid) (provider : String)
    (Answers : OwnMediaRequest → OwnMediaAnswer → Prop) :
    Protocol Db OwnMediaRequest OwnMediaAnswer SyncEvent Mirror where
  Represents := Represents accountId provider
  Answers := Answers
  Allows := Mirror.Allows Answers
  apply := Mirror.apply
  Keeps event db db' := event.any SyncEvent.swaps = false → SameView accountId db db'

end InstagramArchive

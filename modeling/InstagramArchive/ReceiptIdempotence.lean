import InstagramArchive.ReceiptCalls
import InstagramArchive.ReceiptTables

/-!
# One run for each received archive

Calls of `receive` interleave step by step. What identifies an archive is its owner and its
bytes: the first committed receipt creates the snapshot, the run and its first transition, and
every later one finds them. The object of an archive is named by its digest, so the calls of
all owners share it.
-/

namespace InstagramArchive.DataExport

open Relational Relational.Tx Relational.Script

/-! ## What the tables say about the receipts -/

/-- The tables are those of the receipts. -/
structure Receipts (store : ArchiveStore) (receipts : List Receipt) (db : Db) : Prop where
  tables : ReceiptTables db
  answered : ∀ x ∈ receipts, ∃ s ∈ db.exportSnapshots, s.userRef = x.owner ∧
    s.archiveHash = store.sha256 x.body ∧
    s.archive = archiveRef (store.sha256 x.body) x.body.length ∧
    ∃ r ∈ db.importRuns, r.snapshotId = s.snapshotId ∧ x.outcome.receipt.runId = r.runId ∧
      x.outcome.receipt.archive = s.archive
  received : ∀ s ∈ db.exportSnapshots, ∃ x ∈ receipts, x.owner = s.userRef ∧
    store.sha256 x.body = s.archiveHash

section Receipts

variable {store : ArchiveStore} {receipts : List Receipt} {db db' : Db}

/-- The receipt of a snapshot finds it. -/
theorem Receipts.receivedRun (h : Receipts store receipts db) {x : Receipt} (hx : x ∈ receipts) :
    ∃ state, DataExport.receivedRun x.owner (store.sha256 x.body) db =
      some (x.outcome.receipt.runId, state, x.outcome.receipt.archive) := by
  obtain ⟨s, hs, howner, hhash, -, r, hr, hrs, hid, harchive⟩ := h.answered x hx
  have hfound : snapshotOf x.owner (store.sha256 x.body) db = some s := by
    cases hcase : snapshotOf x.owner (store.sha256 x.body) db with
    | none =>
      have hnone := List.find?_eq_none.mp hcase s hs
      simp [howner, hhash] at hnone
    | some s' =>
      have hkey : s'.userRef = x.owner ∧ s'.archiveHash = store.sha256 x.body := by
        simpa using List.find?_some hcase
      rw [h.tables.snapshot_unique s' (List.mem_of_find?_eq_some hcase) s hs (hkey.1.trans howner.symm)
        (hkey.2.trans hhash.symm)]
  cases hrun : db.importRuns.rows.find? fun r => r.snapshotId = s.snapshotId with
  | none =>
    have hnone := List.find?_eq_none.mp hrun r hr
    simp [hrs] at hnone
  | some r' =>
    have hr's : r'.snapshotId = s.snapshotId := by simpa using List.find?_some hrun
    have hsame := h.tables.run_unique r' (List.mem_of_find?_eq_some hrun) r hr (hr's.trans hrs.symm)
    refine ⟨r'.state, ?_⟩
    unfold DataExport.receivedRun
    rw [hfound]
    change (db.importRuns.rows.find? fun r => r.snapshotId = s.snapshotId).bind _ = _
    rw [hrun, hid, ← hsame, harchive]
    rfl

/-- Other transactions keep what the receipts wrote. -/
theorem Receipts.others (h : Receipts store receipts db) (hsame : SameReceipts db db') :
    Receipts store receipts db' where
  tables := h.tables.others hsame
  answered x hx := by
    rw [hsame.snapshots]
    obtain ⟨s, hs, howner, hhash, harchive, r, hr, hrs, hid, houtcome⟩ := h.answered x hx
    obtain ⟨r', hr', heq⟩ := hsame.symm.run_mem hr
    simp only [runReceipt, Prod.mk.injEq] at heq
    exact ⟨s, hs, howner, hhash, harchive, r', hr', heq.2.1.trans hrs, hid.trans heq.1.symm,
      houtcome⟩
  received := by
    rw [hsame.snapshots]
    exact h.received

/-- A repeated receipt joins the others. -/
theorem Receipts.replayed (h : Receipts store receipts db) {x : Receipt}
    (hx : ∃ s ∈ db.exportSnapshots, s.userRef = x.owner ∧ s.archiveHash = store.sha256 x.body ∧
      s.archive = archiveRef (store.sha256 x.body) x.body.length ∧
      ∃ r ∈ db.importRuns, r.snapshotId = s.snapshotId ∧ x.outcome.receipt.runId = r.runId ∧
        x.outcome.receipt.archive = s.archive) : Receipts store (receipts ++ [x]) db where
  tables := h.tables
  answered y hy := by
    rcases List.mem_append.mp hy with hy | hy
    · exact h.answered y hy
    · rw [List.mem_singleton.mp hy]
      exact hx
  received s hs := by
    obtain ⟨y, hy, hkey⟩ := h.received s hs
    exact ⟨y, List.mem_append_left _ hy, hkey⟩

/-- A first receipt creates its snapshot, its run and its transition. -/
theorem Receipts.created (h : Receipts store receipts db) {owner : Uuid} {body : List UInt8}
    {snapshotId runId transitionId : Uuid} {receivedAt : Instant}
    (hnew : snapshotOf owner (store.sha256 body) db = none)
    (hfirst : FirstReceipt owner (storedArchive (store.sha256 body) body.length) snapshotId runId
      transitionId receivedAt db db') :
    Receipts store (receipts ++ [⟨owner, body,
      .created ⟨runId, .received, archiveRef (store.sha256 body) body.length⟩⟩]) db' := by
  have hsnapshot := Table.mem_of_insert? hfirst.snapshots
  have hrun := Table.mem_of_insert? hfirst.runs
  constructor
  case tables => exact h.tables.created hnew hfirst
  case answered =>
    intro x hx
    rcases List.mem_append.mp hx with hx | hx
    · obtain ⟨s, hs, howner, hhash, harchive, r, hr, hanswer⟩ := h.answered x hx
      exact ⟨s, (hsnapshot s).mpr (Or.inl hs), howner, hhash, harchive, r,
        (hrun r).mpr (Or.inl hr), hanswer⟩
    · obtain rfl := List.mem_singleton.mp hx
      exact ⟨_, (hsnapshot _).mpr (Or.inr rfl), rfl, rfl, rfl, _, (hrun _).mpr (Or.inr rfl), rfl,
        rfl, rfl⟩
  case received =>
    intro s hs
    rcases (hsnapshot s).mp hs with hs | rfl
    · obtain ⟨x, hx, hkey⟩ := h.received s hs
      exact ⟨x, List.mem_append_left _ hx, hkey⟩
    · exact ⟨_, List.mem_append_right _ (List.mem_singleton.mpr rfl), rfl, rfl⟩

/-- What a committed receipt answers and leaves. -/
theorem Receipts.persisted (h : Receipts store receipts db) {env : Env} {owner : Uuid}
    {body : List UInt8} {outcome : ReceiptOutcome}
    (hy : (persistReceipt owner (storedArchive (store.sha256 body) body.length)).Yields env db
      outcome db') :
    Receipts store (receipts ++ [⟨owner, body, outcome⟩]) db' ∧
      ((∃ state, outcome = .replayed ⟨outcome.receipt.runId, state, outcome.receipt.archive⟩ ∧
        db' = db) ∨
        (outcome = .created ⟨outcome.receipt.runId, .received, outcome.receipt.archive⟩ ∧
          snapshotOf owner (store.sha256 body) db = none)) := by
  rcases persistReceipt_yields hy with ⟨runId, state, hfound, rfl, rfl⟩ |
    ⟨hnew, snapshotId, runId, transitionId, receivedAt, hfirst, rfl⟩
  · refine ⟨h.replayed ?_, Or.inl ⟨state, rfl, rfl⟩⟩
    obtain ⟨s, hs, howner, hhash, harchive, r, hr, hrs, hid, -⟩ := receivedRun_some hfound
    exact ⟨s, hs, howner, hhash, harchive, r, hr, hrs, hid.symm, harchive.symm⟩
  · exact ⟨h.created hnew hfirst, Or.inr ⟨rfl, hnew⟩⟩

end Receipts

/-! ## Refused streams -/

/-- The copy loop takes the whole stream when every write succeeds. -/
def accepted (store : ArchiveStore) : List StreamItem → Nat → Bool
  | [], _ => true
  | .failed :: _, _ => false
  | .chunk bytes :: rest, byteSize =>
    !overLimit store (byteSize + bytes.length) &&
      accepted store rest (byteSize + bytes.length)

/-- No table and no object is changed. -/
def NothingStored (w w' : ArchiveWorld) : Prop :=
  w'.db = w.db ∧ w'.disk.objects = w.disk.objects

section Refused

variable {store : ArchiveStore}

/-- Every step of the script stores nothing, and its answer satisfies `Post`. -/
abbrev StoresNothing {α : Type} (Post : α → Prop) (script : ReceiptScript α) : Prop :=
  script.Tracks (fun (_ : Unit) _ => True)
    (fun _ _ w receipt _ w' => receipt = none ∧ NothingStored w w') (fun a _ => Post a) ()

theorem onDisk_storesNothing {α : Type} {x : DiskTx α}
    (h : ∀ env disk a disk', x.Yields env disk a disk' → disk'.objects = disk.objects) :
    StoresNothing (fun _ => True) (onDisk x) := by
  refine .tx fun env w b w' _ hy => ⟨(), ⟨rfl, ?_⟩, trivial, trivial⟩
  rcases hy.attempt with ⟨a, rfl, hx⟩ | ⟨e, rfl, rfl, -⟩
  · obtain ⟨disk, hdisk, rfl⟩ := hx.zoom
    exact ⟨rfl, h env w.disk a disk hdisk⟩
  · exact ⟨rfl, rfl⟩

theorem orFail_storesNothing {α : Type} {e : ReceiptError} {x : DiskTx α}
    (h : ∀ env disk a disk', x.Yields env disk a disk' → disk'.objects = disk.objects) :
    StoresNothing (fun _ => True) (orFail e x) := by
  refine (onDisk_storesNothing h).bind fun r _ _ => ?_
  cases r with
  | error e' => exact .fail e
  | ok a => exact .pure trivial

theorem removeTemporary_objects {name : Uuid} (env : Env) (disk : Disk) (u : Unit) (disk' : Disk)
    (h : (removeTemporary name).Yields env disk u disk') : disk'.objects = disk.objects := by
  have h := h.statement
  split at h
  · cases h
  · cases h
    rfl

theorem copyAndHash_storesNothing {name : Uuid} (chunks : List StreamItem) {hashed : List UInt8}
    (hrefused : accepted store chunks hashed.length = false) :
    StoresNothing (fun r => ∃ e, r = .error e) (copyAndHash store name chunks hashed) := by
  induction chunks generalizing hashed with
  | nil => cases hrefused
  | cons item rest ih =>
    cases item with
    | failed => exact .pure ⟨_, rfl⟩
    | chunk bytes =>
      unfold copyAndHash
      split
      · exact .pure ⟨_, rfl⟩
      · rename_i hlimit
        refine (onDisk_storesNothing fun env disk a disk' hy => ?_).bind fun r _ _ => ?_
        · rw [hy.execute]
        · cases r with
          | error e => exact .pure ⟨_, rfl⟩
          | ok u =>
            apply ih
            simpa [accepted, hlimit] using hrefused

/-- **A refused stream** stores nothing, whatever its call does. -/
theorem receive_refused (owner : Uuid) {chunks : List StreamItem}
    (hrefused : accepted store chunks 0 = false) :
    StoresNothing (fun _ => True) (receive store owner chunks) := by
  have hstore : StoresNothing (fun _ => False) (storeArchive store chunks) := by
    refine (orFail_storesNothing fun _ _ _ _ hy => ?_).bind fun _ _ _ => ?_
    · rw [hy.commit]
    refine (orFail_storesNothing fun _ _ _ _ hy => ?_).bind fun name _ _ => ?_
    · obtain ⟨t, -, rfl⟩ := createTemporary_yields hy
      rfl
    refine (copyAndHash_storesNothing chunks hrefused).bind ?_
    rintro r _ ⟨e, rfl⟩
    exact (orFail_storesNothing removeTemporary_objects).bind fun _ _ _ => .fail e
  exact hstore.bind fun _ _ h => h.elim

end Refused

/-! ## Calls side by side -/

section Sides

variable {store : ArchiveStore} {owner : Uuid} {whole : List UInt8} {k k' g : CallKnowledge}
  {env : Env} {w w' : ArchiveWorld} {receipt : Option Receipt}

/-- What a call owns after a step it owned before, or nobody did. -/
theorem ReceiptWrite.owns (h : ReceiptWrite store owner whole k env w receipt k' w')
    {f' : StagedFile} (hf' : k'.temporary = some f') :
    (∃ f, k.temporary = some f ∧ f.name = f'.name) ∨ w.disk.staging.lookup f'.name = none := by
  cases h with
  | created hfree hinsert =>
    cases hf'
    exact Or.inr (Table.lookup_eq_none.mpr (Table.insert?_eq_some hinsert).2)
  | written hfile =>
    cases hf'
    exact Or.inl ⟨_, hfile, rfl⟩
  | removed => cases hf'
  | idle | linked | verified | persisted => exact Or.inl ⟨f', hf', rfl⟩

/-- A step leaves alone what another call owns and knows. -/
theorem ReceiptWrite.others (h : ReceiptWrite store owner whole k env w receipt k' w')
    (hg : g.Holds store w)
    (hapart : ∀ f f', k.temporary = some f → g.temporary = some f' → f.name ≠ f'.name) :
    g.Holds store w' := by
  cases h with
  | idle | verified => exact hg
  | persisted => exact ⟨hg.file, hg.object⟩
  | created hfree hinsert =>
    refine { hg with file := fun f hf => ?_ }
    have hlookup := hg.file f hf
    refine (Table.lookup_of_insert? hinsert f.name).trans ?_
    rw [if_neg, hlookup]
    rintro rfl
    obtain ⟨hmem, -⟩ := Table.lookup_eq_some.mp hlookup
    exact (Table.insert?_eq_some hinsert).2 f hmem rfl
  | written hfile =>
    refine { hg with file := fun f hf => ?_ }
    refine (Disk.lookup_append _ _ _ _).trans ?_
    rw [hg.file f hf, Option.map_some, if_neg (hapart _ f hfile hf).symm]
  | removed hfile =>
    refine { hg with file := fun f hf => ?_ }
    obtain ⟨hmem, -⟩ := Table.lookup_eq_some.mp (hg.file f hf)
    refine Table.lookup_mem ((Table.mem_delete _ _ f).mpr ⟨hmem, ?_⟩)
    simpa using (hapart _ f hfile hf).symm
  | linked hfile hinsert =>
    refine { hg with object := fun body hbody => ?_ }
    have hlookup := hg.object body hbody
    refine (Table.lookup_of_insert? hinsert _).trans ?_
    rw [if_neg, hlookup]
    intro hname
    obtain ⟨hmem, -⟩ := Table.lookup_eq_some.mp hlookup
    exact (Table.insert?_eq_some hinsert).2 _ hmem hname.symm

/-- Objects stay, and the receipts with them. -/
theorem ReceiptWrite.keeps (h : ReceiptWrite store owner whole k env w receipt k' w')
    {name : String} {o : StoredObject} (ho : w.disk.objects.lookup name = some o) :
    w'.disk.objects.lookup name = some o := by
  cases h with
  | linked hfile hinsert =>
    refine (Table.lookup_of_insert? hinsert _).trans ?_
    rw [if_neg, ho]
    rintro rfl
    obtain ⟨hmem, hname⟩ := Table.lookup_eq_some.mp ho
    exact (Table.insert?_eq_some hinsert).2 o hmem hname
  | _ => exact ho

/-- An object is named by its content. -/
theorem ReceiptWrite.named (h : ReceiptWrite store owner whole k env w receipt k' w')
    (hnamed : ∀ o ∈ w.disk.objects, o.name = objectName store o.content) :
    ∀ o ∈ w'.disk.objects, o.name = objectName store o.content := by
  cases h with
  | linked hfile hinsert =>
    intro o ho
    rcases (Table.mem_of_insert? hinsert o).mp ho with ho | rfl
    · exact hnamed o ho
    · rfl
  | _ => exact hnamed

end Sides

/-! ## The system -/

/-- What holds between two steps; `know` is what each call owns and knows. -/
structure ReceiptSystem.Sound (store : ArchiveStore) (s : ReceiptSystem)
    (know : Nat → CallKnowledge) : Prop where
  tracked : ∀ (i : Nat) (c : ReceiptCall), s.calls[i]? = some c →
    CallTracks store c.owner (streamBody c.chunks) (fun _ _ => True) c.script (know i)
  holds : ∀ i, (know i).Holds store s.world
  apart : ∀ i j f g, (know i).temporary = some f → (know j).temporary = some g →
    f.name = g.name → i = j
  idle : ∀ i : Nat, s.calls[i]? = none → know i = {}
  refused : ∀ (i : Nat) (c : ReceiptCall), s.calls[i]? = some c →
    accepted store c.chunks 0 = false → StoresNothing (fun _ => True) c.script
  receipts : Receipts store s.receipts s.world.db
  named : ∀ o ∈ s.world.disk.objects, o.name = objectName store o.content
  stored : ∀ x ∈ s.receipts, s.world.disk.objects.lookup (objectName store x.body) =
    some ⟨objectName store x.body, x.body⟩

/-- Other transactions of the service change no row of a receipt. -/
def ReceiptSystem.Sanctioned (s : ReceiptSystem) : ReceiptAction → Prop
  | .others db => SameReceipts s.world.db db
  | _ => True

section System

variable {store : ArchiveStore} {s : ReceiptSystem} {know : Nat → CallKnowledge}

theorem CallKnowledge.Holds.free (w : ArchiveWorld) : ({} : CallKnowledge).Holds store w :=
  ⟨by simp, by simp⟩

theorem sound_init (store : ArchiveStore) : ReceiptSystem.Sound store {} fun _ => {} where
  tracked i c h := by simp at h
  holds i := .free _
  apart i j f g h := by simp at h
  idle i _ := rfl
  refused i c h := by simp at h
  receipts := ⟨by constructor <;> simp [receivedTransitions], by simp, by simp⟩
  named := by simp
  stored := by simp

theorem ReceiptSystem.Sound.begin (h : s.Sound store know) (hsha : Function.Injective store.sha256)
    (owner : Uuid) (chunks : List StreamItem) :
    (receiptStep store s (.begin owner chunks)).Sound store know where
  tracked i c hc := by
    rcases getElem?_concat_cases hc with hc | ⟨rfl, rfl⟩
    · exact h.tracked i c hc
    · rw [h.idle s.calls.length (by simp)]
      exact receive_tracks hsha chunks rfl
  holds := h.holds
  apart := h.apart
  idle i hi := by
    apply h.idle
    rw [List.getElem?_eq_none_iff] at hi ⊢
    simp only [receiptStep, List.length_append, List.length_singleton] at hi
    omega
  refused i c hc hrefused := by
    rcases getElem?_concat_cases hc with hc | ⟨rfl, rfl⟩
    · exact h.refused i c hc hrefused
    · exact receive_refused owner hrefused
  receipts := h.receipts
  named := h.named
  stored := h.stored

/-- **A step of one call keeps the system sound.** -/
theorem ReceiptSystem.Sound.advance (h : s.Sound store know) (env : Env) (i : Nat) :
    ∃ know', (receiptStep store s (.advance env i)).Sound store know' := by
  cases hcall : s.calls[i]? with
  | none => exact ⟨know, by simpa only [receiptStep, hcall] using h⟩
  | some c =>
    obtain ⟨k', hstep, hk', hnext⟩ := (h.tracked i c hcall).advance (h.holds i) env ()
    have hrefused : accepted store c.chunks 0 = false →
        StoresNothing (fun _ => True) (c.script.advance env () s.world).1 := by
      intro hc
      obtain ⟨_, -, -, hr⟩ := (h.refused i c hcall hc).advance trivial env ()
      exact hr
    rcases hadvance : c.script.advance env () s.world with ⟨script, w', receipt⟩
    rw [hadvance] at hstep hk' hnext hrefused
    have hidle : ∀ j : Nat, (s.calls.set i { c with script })[j]? = none → j ≠ i := by
      rintro j hj rfl
      rw [List.getElem?_set_self (List.getElem?_eq_some_iff.mp hcall).1] at hj
      cases hj
    have hwrite : ∃ k', (ReceiptWrite store c.owner (streamBody c.chunks) (know i) env s.world
        receipt k' w') ∧ k'.Holds store w' ∧
        CallTracks store c.owner (streamBody c.chunks) (fun _ _ => True) script k' := by
      rcases hstep with ⟨heq, rfl⟩ | hstep
      · cases heq
        exact ⟨know i, .idle, hk', hnext⟩
      · exact ⟨k', hstep, hk', hnext⟩
    obtain ⟨k', hstep, hk', hnext⟩ := hwrite
    refine ⟨Function.update know i k', ?_⟩
    have hstate : receiptStep store s (.advance env i) =
        { world := w', calls := s.calls.set i { c with script }
          receipts := s.receipts ++ receipt.toList } := by
      simp only [receiptStep, hcall, hadvance]
    rw [hstate]
    have hother : ∀ j, j ≠ i → (know j).Holds store w' := by
      intro j hj
      refine hstep.others (h.holds j) fun f f' hf hf' hname => ?_
      exact hj (h.apart i j f f' hf hf' hname).symm
    have happart : ∀ j, j ≠ i → ∀ f g, k'.temporary = some f → (know j).temporary = some g →
        f.name ≠ g.name := by
      intro j hj f g hf hg hname
      rcases hstep.owns hf with ⟨f', hf', hsame⟩ | hfree
      · exact hj (h.apart i j f' g hf' hg (hsame.trans hname)).symm
      · rw [hname, (h.holds j).file g hg] at hfree
        cases hfree
    constructor
    case tracked =>
      intro j d hd
      rcases getElem?_set_cases hd with ⟨rfl, rfl⟩ | ⟨hj, hd⟩
      · rw [Function.update_self]
        exact hnext
      · rw [Function.update_of_ne hj]
        exact h.tracked j d hd
    case holds =>
      intro j
      by_cases hj : j = i
      · rw [hj, Function.update_self]
        exact hk'
      · rw [Function.update_of_ne hj]
        exact hother j hj
    case apart =>
      intro a b f g hf hg hname
      by_cases ha : a = i <;> by_cases hb : b = i
      · rw [ha, hb]
      · rw [ha, Function.update_self] at hf
        rw [Function.update_of_ne hb] at hg
        exact (happart b hb f g hf hg hname).elim
      · rw [hb, Function.update_self] at hg
        rw [Function.update_of_ne ha] at hf
        exact (happart a ha g f hg hf hname.symm).elim
      · rw [Function.update_of_ne ha] at hf
        rw [Function.update_of_ne hb] at hg
        exact h.apart a b f g hf hg hname
    case idle =>
      intro j hj
      rw [Function.update_of_ne (hidle j hj)]
      apply h.idle
      rw [List.getElem?_eq_none_iff] at hj ⊢
      simpa using hj
    case refused =>
      intro j d hd hchunks
      rcases getElem?_set_cases hd with ⟨rfl, rfl⟩ | ⟨hj, hd⟩
      · exact hrefused hchunks
      · exact h.refused j d hd hchunks
    case named => exact hstep.named h.named
    case stored =>
      intro x hx
      rcases List.mem_append.mp hx with hold | hnew
      · exact hstep.keeps (h.stored x hold)
      · cases hstep with
        | persisted hstored hy =>
          obtain rfl := List.mem_singleton.mp hnew
          exact (h.holds i).object _ hstored
        | _ => cases hnew
    case receipts =>
      cases hstep with
      | persisted hstored hy => exact (h.receipts.persisted hy).1
      | _ =>
        rw [Option.toList_none, List.append_nil]
        exact h.receipts

theorem ReceiptSystem.Sound.others (h : s.Sound store know) {db : Db}
    (hsame : SameReceipts s.world.db db) :
    (receiptStep store s (.others db)).Sound store know :=
  { h with
    holds := fun i => ⟨(h.holds i).file, (h.holds i).object⟩
    receipts := h.receipts.others hsame }

/-- **Every reachable system is sound.** -/
theorem receipts_sound (hsha : Function.Injective store.sha256) {actions : List ReceiptAction}
    (hg : Guarded (receiptStep store) ReceiptSystem.Sanctioned {} actions) :
    ∃ know, (run (receiptStep store) {} actions).Sound store know := by
  apply run_invariant (receiptStep store) ReceiptSystem.Sanctioned
    (fun s => ∃ know, s.Sound store know) _ hg ⟨_, sound_init store⟩
  rintro s a ha ⟨know, h⟩
  cases a with
  | begin owner chunks => exact ⟨know, h.begin hsha owner chunks⟩
  | advance env i => exact h.advance env i
  | others db => exact ⟨know, h.others ha⟩

end System

/-! ## A repeated receipt -/

section Repeated

variable {store : ArchiveStore} {turns : Nat → Env × (Empty → Unit)} {n : Nat} {w : ArchiveWorld}

theorem onDisk_completes {α : Type} {x : DiskTx α} {a : α} {disk : Disk}
    {Q : Except IoError α → Nat → ArchiveWorld → Prop}
    (hx : x.exec (turns n).1 w.disk = (.ok a, disk)) (h : Q (.ok a) (n + 1) { w with disk }) :
    (onDisk x).Completes turns Q n w := .tx (exec_attempt (exec_zoom hx)) h

theorem orFail_completes {α : Type} {x : DiskTx α} {a : α} {d : Disk} {e : ReceiptError}
    {Q : α → Nat → ArchiveWorld → Prop} (hx : x.exec (turns n).1 w.disk = (.ok a, d))
    (h : Q a (n + 1) { w with disk := d }) : (orFail e x).Completes turns Q n w := by
  refine Completes.bind (R := fun r n' w' => r = .ok a ∧ n' = n + 1 ∧ w' = { w with disk := d })
    ?_ ?_
  · exact onDisk_completes hx ⟨rfl, rfl, rfl⟩
  · rintro r n' w' ⟨rfl, rfl, rfl⟩
    exact .pure h

theorem exec_statement {σ ε α : Type} [OfSql ε] {env : Env} (hq : env.Quiet)
    {f : σ → Except SqlError (α × σ)} {s t : σ} {a : α} (h : f s = .ok (a, t)) :
    (Tx.statement f : Tx σ ε α).exec env s = (.ok a, t) := by
  simp [Tx.exec, Tx.statement, hq 0, h]

theorem exec_commit {σ ε : Type} [OfSql ε] {env : Env} (hq : env.Quiet) (s : σ) :
    (Tx.commit : Tx σ ε Unit).exec env s = (.ok (), s) := exec_query hq _ s

/-- The tables and the objects of `w`, and the staging file with its content. -/
structure Copied (w : ArchiveWorld) (name : Uuid) (content : List UInt8) (w' : ArchiveWorld) :
    Prop where
  nothing : NothingStored w w'
  file : w'.disk.staging.lookup name = some ⟨name, content⟩

theorem copyAndHash_completes (hq : ∀ n, (turns n).1.Quiet) {name : Uuid} (chunks : List StreamItem)
    {hashed : List UInt8} {start : ArchiveWorld}
    (haccepted : accepted store chunks hashed.length = true) (hw : Copied start name hashed w) :
    (copyAndHash store name chunks hashed).Completes turns
      (fun r _ w' => r = .ok (store.sha256 (hashed ++ streamBody chunks),
        (hashed ++ streamBody chunks).length) ∧ Copied start name (hashed ++ streamBody chunks) w')
      n w := by
  induction chunks generalizing hashed n w with
  | nil =>
    refine .pure ⟨?_, ?_⟩
    · simp [streamBody]
    · simpa [streamBody] using hw
  | cons item rest ih =>
    cases item with
    | failed => cases haccepted
    | chunk bytes =>
      simp only [accepted, Bool.and_eq_true, Bool.not_eq_true', ← List.length_append] at haccepted
      unfold copyAndHash
      rw [← List.length_append, if_neg (Bool.eq_false_iff.mp haccepted.1)]
      refine Completes.bind (R := fun r _ w' => r = .ok () ∧ Copied start name (hashed ++ bytes) w')
        ?_ ?_
      · refine onDisk_completes (exec_execute (hq n) _ _) ⟨rfl, hw.nothing, ?_⟩
        refine (Disk.lookup_append w.disk name name bytes).trans ?_
        rw [hw.file]
        simp
      · rintro r n' w' ⟨rfl, hw'⟩
        have h := ih haccepted.2 hw' (n := n')
        simpa only [streamBody, List.append_assoc] using h

theorem publishTemporary_completes (hq : ∀ n, (turns n).1.Quiet) {name : Uuid} {body : List UInt8}
    {start : ArchiveWorld} (hw : Copied start name body w)
    (hobject : start.disk.objects.lookup (objectName store body) =
      some ⟨objectName store body, body⟩) :
    (publishTemporary store name (store.sha256 body) body.length).Completes turns
      (fun _ _ w' => NothingStored start w') n w := by
  have hstored : w.disk.objects.lookup (objectName store body) =
      some ⟨objectName store body, body⟩ := by rw [hw.nothing.2, hobject]
  have hkeep : ∀ (x : DiskTx Unit) (n : Nat), x.exec (turns n).1 w.disk = (.ok (), w.disk) →
      (onDisk x).Completes turns (fun r _ w' => r = .ok () ∧ w = w') n w := fun x n hx =>
    onDisk_completes hx ⟨rfl, rfl⟩
  refine Completes.bind (R := fun r _ w' => r = .ok () ∧ NothingStored start w') ?_ ?_
  · refine (hkeep _ n (exec_commit (hq n) _)).bind ?_
    rintro r n _ ⟨rfl, rfl⟩
    refine Completes.bind (R := fun r _ w' => r = .ok .alreadyExists ∧ w = w') ?_ ?_
    · refine onDisk_completes (exec_statement (hq n) ?_) ⟨rfl, rfl⟩
      have htaken : w.disk.objects.insert? ⟨hexEncode (store.sha256 body), body⟩ = none := by
        cases hinsert : w.disk.objects.insert? ⟨hexEncode (store.sha256 body), body⟩ with
        | none => rfl
        | some t =>
          obtain ⟨hmem, -⟩ := Table.lookup_eq_some.mp hstored
          exact ((Table.insert?_eq_some hinsert).2 _ hmem rfl).elim
      simp only [hw.file, htaken]
    rintro r n _ ⟨rfl, rfl⟩
    refine (hkeep _ n (exec_statement (hq n) ?_)).bind ?_
    · rw [show w.disk.objects.lookup (hexEncode (store.sha256 body)) =
        some ⟨objectName store body, body⟩ from hstored]
      simp
    rintro r n _ ⟨rfl, rfl⟩
    refine Completes.bind (R := fun r _ w' => r = .ok () ∧ NothingStored start w') ?_ ?_
    · refine onDisk_completes (exec_statement (hq n) (t := w.disk.remove name) ?_)
        ⟨rfl, hw.nothing⟩
      rw [hw.file]
      rfl
    rintro r n w' ⟨rfl, hw'⟩
    exact .pure ⟨rfl, hw'⟩
  · rintro r n w' ⟨rfl, hw'⟩
    exact .pure hw'

/-- **A repeated receipt** of a stream within the limits finds the run of the first. -/
theorem ReceiptSystem.Sound.repeated {s : ReceiptSystem} {know : Nat → CallKnowledge}
    (h : s.Sound store know) {x : Receipt} (hx : x ∈ s.receipts) {chunks : List StreamItem}
    (hbody : streamBody chunks = x.body) (haccepted : accepted store chunks 0 = true)
    (hq : ∀ n, (turns n).1.Quiet)
    (hfree : s.world.disk.staging.lookup ((turns (n + 1)).1.uuid 0) = none) :
    (receive store x.owner chunks).Completes turns
      (fun outcome _ w => (∃ state, outcome =
        .replayed ⟨x.outcome.receipt.runId, state, x.outcome.receipt.archive⟩) ∧
        NothingStored s.world w) n s.world := by
  refine Completes.bind (R := fun stored _ w =>
    stored = storedArchive (store.sha256 x.body) x.body.length ∧ NothingStored s.world w) ?_ ?_
  · refine Completes.bind (R := fun _ n' w => n' = n + 1 ∧ w = s.world) ?_ ?_
    · exact orFail_completes (exec_commit (hq n) _) ⟨rfl, rfl⟩
    rintro _ _ _ ⟨rfl, rfl⟩
    refine Completes.bind (R := fun name _ w => Copied s.world name [] w) ?_ ?_
    · obtain ⟨t, ht⟩ := Table.insert?_isSome (t := s.world.disk.staging)
        (r := ⟨(turns (n + 1)).1.uuid 0, []⟩) (Table.lookup_eq_none.mp hfree)
      refine orFail_completes (a := (turns (n + 1)).1.uuid 0)
        (d := { s.world.disk with staging := t }) ?_ ⟨⟨rfl, rfl⟩, ?_⟩
      · have hends : createTemporary.Ends (turns (n + 1)).1 ⟨s.world.disk, 0⟩ fun name ses =>
            name = (turns (n + 1)).1.uuid 0 ∧
              ses.store = { s.world.disk with staging := t } := by
          refine .bind (.nowV7 (.bind ?_))
          refine .insertInto (hq _) rfl (Table.lookup_eq_none.mp hfree) fun t' ht' => ?_
          obtain rfl : t' = t := by
            rw [ht] at ht'
            exact (Option.some.inj ht').symm
          exact .pure ⟨rfl, rfl⟩
        obtain ⟨name, ses, hexec, rfl, hstore⟩ := hends.exec
        rw [hexec, hstore]
      · exact (Table.lookup_of_insert? ht _).trans (if_pos rfl)
    rintro name n w hw
    refine (copyAndHash_completes hq chunks haccepted hw).bind ?_
    rintro r n w ⟨rfl, hw⟩
    rw [List.nil_append, hbody] at hw ⊢
    refine Completes.bind (R := fun r _ w' => r = .ok () ∧ w' = w) ?_ ?_
    · exact onDisk_completes (exec_commit (hq n) _) ⟨rfl, rfl⟩
    rintro r n _ ⟨rfl, rfl⟩
    refine (publishTemporary_completes hq hw (h.stored x hx)).bind ?_
    rintro _ n w hw
    exact .pure ⟨rfl, hw⟩
  · rintro _ n w ⟨rfl, hw⟩
    obtain ⟨state, hfound⟩ := h.receipts.receivedRun hx
    obtain ⟨snapshot, -, -, -, harchive, run, -, -, -, hanswer⟩ := h.receipts.answered x hx
    rw [hanswer, harchive] at hfound ⊢
    refine .emit (exec_zoom (persistReceipt_replays (hq n) (hw.1 ▸ hfound))) ⟨⟨state, rfl⟩, hw⟩

end Repeated

/-! ## Idempotence -/

/-- The rows of a receipt, and that its owner and its bytes have no others. -/
structure RecordedOnce (store : ArchiveStore) (db : Db) (x : Receipt) (snapshot : ExportSnapshot)
    (run : ImportRun) (transition : ImportRunTransition) : Prop where
  onlySnapshot : ∀ s, s ∈ db.exportSnapshots ∧ s.userRef = x.owner ∧
    s.archiveHash = store.sha256 x.body ↔ s = snapshot
  onlyRun : ∀ r, r ∈ db.importRuns ∧ r.snapshotId = snapshot.snapshotId ↔ r = run
  onlyTransition : ∀ t, t ∈ db.importRunTransitions ∧ t.runId = run.runId ∧ t.toState = .received ↔
    t = transition
  owner : run.userRef = x.owner
  runId : x.outcome.receipt.runId = run.runId
  archive : x.outcome.receipt.archive = snapshot.archive ∧
    snapshot.archive = archiveRef (store.sha256 x.body) x.body.length

/-- What a step of a call leaves. -/
structure StepRecorded (store : ArchiveStore) (s s' : ReceiptSystem) (c : ReceiptCall) : Prop where
  /-- A refused stream stores nothing. -/
  refused : accepted store c.chunks 0 = false →
    NothingStored s.world s'.world ∧ s'.receipts = s.receipts
  /-- A receipt is of the owner and the body of its call. -/
  receipt : s'.receipts = s.receipts ∧ s'.world.db = s.world.db ∨
    ∃ outcome, s'.receipts = s.receipts ++ [⟨c.owner, streamBody c.chunks, outcome⟩]
  /-- A repeated receipt changes no table and answers what the first did. -/
  replayed : ∀ y ∈ s.receipts, y.owner = c.owner → y.body = streamBody c.chunks →
    s'.world.db = s.world.db ∧ ∀ x, s'.receipts = s.receipts ++ [x] → ∃ state,
      x.outcome = .replayed ⟨y.outcome.receipt.runId, state, y.outcome.receipt.archive⟩

/-- What holds of the receipts, the tables and the objects of a system. -/
structure ReceiptsIdempotent (store : ArchiveStore) (s : ReceiptSystem) : Prop where
  once : ∀ x ∈ s.receipts, ∃ snapshot run transition,
    RecordedOnce store s.world.db x snapshot run transition
  snapshots : ∀ snapshot ∈ s.world.db.exportSnapshots, ∃ x ∈ s.receipts,
    x.owner = snapshot.userRef ∧ store.sha256 x.body = snapshot.archiveHash
  runs : ∀ r ∈ s.world.db.importRuns, ∃ snapshot ∈ s.world.db.exportSnapshots,
    snapshot.snapshotId = r.snapshotId
  transitions : ∀ t ∈ s.world.db.importRunTransitions, t.toState = .received →
    ∃ r ∈ s.world.db.importRuns, t.runId = r.runId
  object : ∀ x ∈ s.receipts, ∀ o, o ∈ s.world.disk.objects ∧ o.name = objectName store x.body ↔
    o = ⟨objectName store x.body, x.body⟩
  owners : ∀ x ∈ s.receipts, ∀ y ∈ s.receipts, x.body = y.body →
    x.outcome.receipt.archive = y.outcome.receipt.archive ∧
      (x.outcome.receipt.runId = y.outcome.receipt.runId ↔ x.owner = y.owner)
  steps : ∀ env i c, s.calls[i]? = some c →
    StepRecorded store s (receiptStep store s (.advance env i)) c
  /-- A repeated receipt within the limits, run alone on working files, is answered. -/
  answered : ∀ x ∈ s.receipts, ∀ chunks, streamBody chunks = x.body →
    accepted store chunks 0 = true → ∀ turns : Nat → Env × (Empty → Unit),
    (∀ n, (turns n).1.Quiet) → s.world.disk.staging.lookup ((turns 1).1.uuid 0) = none →
    ∃ state w events, (receive store x.owner chunks).run turns 0 s.world = (.ok (.replayed
      ⟨x.outcome.receipt.runId, state, x.outcome.receipt.archive⟩), w, events) ∧
      NothingStored s.world w

section Idempotent

variable {store : ArchiveStore} {s : ReceiptSystem} {know : Nat → CallKnowledge}

theorem Receipts.recordedOnce {receipts : List Receipt} {db : Db} (h : Receipts store receipts db)
    {x : Receipt} (hx : x ∈ receipts) :
    ∃ snapshot run transition, RecordedOnce store db x snapshot run transition := by
  obtain ⟨snapshot, hs, howner, hhash, harchive, r, hr, hrs, hid, hanswer⟩ := h.answered x hx
  obtain ⟨t, ht, htr⟩ := h.tables.has_transition r hr
  refine ⟨snapshot, r, t, ?_⟩
  constructor
  case onlySnapshot =>
    intro s
    constructor
    · rintro ⟨hs', howner', hhash'⟩
      exact h.tables.snapshot_unique s hs' snapshot hs (howner'.trans howner.symm)
        (hhash'.trans hhash.symm)
    · rintro rfl
      exact ⟨hs, howner, hhash⟩
  case onlyRun =>
    intro r'
    constructor
    · rintro ⟨hr', hrs'⟩
      exact Table.eq_of_key_eq hr' hr (h.tables.run_unique r' hr' r hr (hrs'.trans hrs.symm))
    · rintro rfl
      exact ⟨hr, hrs⟩
  case onlyTransition =>
    intro t'
    constructor
    · rintro ⟨ht', htr', hstate⟩
      exact h.tables.transition_unique t' (mem_receivedTransitions.mpr ⟨ht', hstate⟩) t ht
        (htr'.trans htr.symm)
    · rintro rfl
      obtain ⟨ht', hstate⟩ := mem_receivedTransitions.mp ht
      exact ⟨ht', htr, hstate⟩
  case owner =>
    obtain ⟨r', hr', hrs', howner'⟩ := h.tables.has_run snapshot hs
    have hsame := Table.eq_of_key_eq hr' hr (h.tables.run_unique r' hr' r hr (hrs'.trans hrs.symm))
    rw [← hsame, howner', howner]
  case runId => exact hid
  case archive => exact ⟨hanswer, harchive⟩

theorem ReceiptSystem.Sound.stepRecorded (h : s.Sound store know) (env : Env) {i : Nat}
    {c : ReceiptCall} (hcall : s.calls[i]? = some c) :
    StepRecorded store s (receiptStep store s (.advance env i)) c := by
  obtain ⟨k', hstep, -, -⟩ := (h.tracked i c hcall).advance (h.holds i) env ()
  have hrefused := fun hc => (h.refused i c hcall hc).advance (s := s.world) trivial env ()
  rcases hadvance : c.script.advance env () s.world with ⟨script, w', receipt⟩
  rw [hadvance] at hstep hrefused
  have hstate : receiptStep store s (.advance env i) =
      { world := w', calls := s.calls.set i { c with script }
        receipts := s.receipts ++ receipt.toList } := by
    simp only [receiptStep, hcall, hadvance]
  rw [hstate]
  constructor
  case refused =>
    intro hc
    obtain ⟨_, ⟨heq, -⟩ | ⟨rfl, hnothing⟩, -⟩ := hrefused hc
    · cases heq
      exact ⟨⟨rfl, rfl⟩, by simp⟩
    · exact ⟨hnothing, by simp⟩
  case receipt =>
    rcases hstep with ⟨heq, -⟩ | hstep
    · cases heq
      exact Or.inl ⟨by simp, rfl⟩
    · cases hstep with
      | persisted hstored hy => exact Or.inr ⟨_, rfl⟩
      | _ => exact Or.inl ⟨by simp, rfl⟩
  case replayed =>
    intro y hy howner hbody
    have hnone : receipt = none → ∀ x, s.receipts ++ receipt.toList ≠ s.receipts ++ [x] := by
      rintro rfl x hx
      simp at hx
    rcases hstep with ⟨heq, -⟩ | hstep
    · cases heq
      exact ⟨rfl, fun x hx => (hnone rfl x hx).elim⟩
    · cases hstep with
      | persisted hstored hy' =>
        obtain ⟨state, hfound⟩ := h.receipts.receivedRun hy
        rw [howner, hbody] at hfound
        rcases persistReceipt_yields hy' with ⟨runId, state', hfound', rfl, rfl⟩ | ⟨hnew, -⟩
        · refine ⟨rfl, fun x hx => ⟨state', ?_⟩⟩
          obtain rfl := List.singleton_inj.mp (List.append_cancel_left hx)
          have hsame := hfound'.symm.trans hfound
          simp only [Option.some.injEq, Prod.mk.injEq] at hsame
          rw [← hsame.1, ← hsame.2.2]
        · unfold DataExport.receivedRun at hfound
          rw [show (storedArchive (store.sha256 (streamBody c.chunks))
            (streamBody c.chunks).length).digest = store.sha256 (streamBody c.chunks) from rfl]
            at hnew
          rw [hnew] at hfound
          cases hfound
      | _ => exact ⟨rfl, fun x hx => (hnone rfl x hx).elim⟩

theorem ReceiptSystem.Sound.owners (h : s.Sound store know) {x y : Receipt}
    (hx : x ∈ s.receipts) (hy : y ∈ s.receipts) (hbody : x.body = y.body) :
    x.outcome.receipt.archive = y.outcome.receipt.archive ∧
      (x.outcome.receipt.runId = y.outcome.receipt.runId ↔ x.owner = y.owner) := by
  obtain ⟨snapshot, r, t, hr⟩ := h.receipts.recordedOnce hx
  obtain ⟨snapshot', r', t', hr'⟩ := h.receipts.recordedOnce hy
  refine ⟨?_, ?_⟩
  · rw [hr.archive.1, hr'.archive.1, hr.archive.2, hr'.archive.2, hbody]
  · constructor
    · intro hid
      have hmem := ((hr.onlyRun r).mpr rfl).1
      have hmem' := ((hr'.onlyRun r').mpr rfl).1
      have hsame : r = r' :=
        Table.eq_of_key_eq hmem hmem' (hr.runId.symm.trans (hid.trans hr'.runId))
      rw [← hr.owner, ← hr'.owner, hsame]
    · intro howner
      have hsnapshot : snapshot = snapshot' := by
        apply (hr'.onlySnapshot snapshot).mp
        rw [← howner, ← hbody]
        exact (hr.onlySnapshot snapshot).mpr rfl
      have hrun : r = r' := by
        apply (hr'.onlyRun r).mp
        rw [← hsnapshot]
        exact (hr.onlyRun r).mpr rfl
      rw [hr.runId, hr'.runId, hrun]

/-- **Receipts are idempotent and separate the owners**, in every state that any interleaving of
calls reaches. -/
theorem receive_idempotent (store : ArchiveStore) (hsha : Function.Injective store.sha256)
    {actions : List ReceiptAction}
    (hg : Guarded (receiptStep store) ReceiptSystem.Sanctioned {} actions) :
    ReceiptsIdempotent store (run (receiptStep store) {} actions) := by
  obtain ⟨know, h⟩ := receipts_sound hsha hg
  constructor
  case once => exact fun x hx => h.receipts.recordedOnce hx
  case snapshots => exact h.receipts.received
  case runs => exact h.receipts.tables.has_snapshot
  case transitions =>
    exact fun t ht hstate => h.receipts.tables.transition_run t (mem_receivedTransitions.mpr ⟨ht, hstate⟩)
  case object =>
    intro x hx o
    obtain ⟨hmem, -⟩ := Table.lookup_eq_some.mp (h.stored x hx)
    constructor
    · rintro ⟨ho, hname⟩
      exact Table.eq_of_key_eq ho hmem hname
    · rintro rfl
      exact ⟨hmem, rfl⟩
  case owners => exact fun x hx y hy hbody => h.owners hx hy hbody
  case steps => exact fun env i c hcall => h.stepRecorded env hcall
  case answered =>
    intro x hx chunks hbody haccepted turns hq hfree
    obtain ⟨outcome, -, w, events, hrun, ⟨state, rfl⟩, hnothing⟩ :=
      (h.repeated hx hbody haccepted hq hfree).run
    exact ⟨state, w, events, hrun, hnothing⟩

end Idempotent

/-- A store whose digest of a body is the body, with a limit of four bytes. -/
def smallStore : ArchiveStore := ⟨id, 4⟩

/-- An environment that draws identifiers from `first` on. -/
def drawing (first : Nat) : Env := ⟨0, fun _ => 0, fun n => first + n, fun _ => false⟩

/-- Two owners send the same two bytes in other chunks, a third call breaks off. -/
def threeCalls : List ReceiptAction :=
  [.begin 1 [.chunk [7, 8]], .begin 2 [.chunk [7], .chunk [8]], .begin 1 [.chunk [7], .failed]] ++
    (List.range 12).flatMap fun n =>
      [.advance (drawing (100 * n + 1000)) 0, .advance (drawing (100 * n + 5000)) 1,
        .advance (drawing (100 * n + 9000)) 2]

theorem receive_idempotent_threeCalls :
    (run (receiptStep smallStore) {} threeCalls).receipts.map Receipt.owner = [1, 2] ∧
      ReceiptsIdempotent smallStore (run (receiptStep smallStore) {} threeCalls) := by
  have hcalls : Guarded (receiptStep smallStore) (fun _ a => ∀ db, a ≠ .others db) {} threeCalls :=
    guarded_of_forall _ (by
      simp only [threeCalls, List.mem_append, List.mem_flatMap, List.mem_cons]
      rintro a ((rfl | rfl | rfl | h) | ⟨n, -, (rfl | rfl | rfl | h)⟩) db <;> simp_all)
  refine ⟨by decide +kernel,
    receive_idempotent smallStore (fun _ _ h => h) (hcalls.mono _ fun s a ha => ?_)⟩
  cases a with
  | others db => exact (ha db rfl).elim
  | _ => trivial

end InstagramArchive.DataExport

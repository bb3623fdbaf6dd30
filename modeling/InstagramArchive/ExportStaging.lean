import InstagramArchive.ImportLifecycle

/-!
# Staging an archive

Staging inserts one row for each thing the parser returned, under a key of its own. The key of a
normalized record is made of what the record states, so an archive that states the same thing
twice cannot be staged. Neither can one with a retained value that the database does not store.
Everything else that parses is staged.
-/

namespace InstagramArchive.DataExport

open Relational Relational.Tx Relational.Script

/-! ## What can be staged -/

/-- The members of a section beside its saved array. -/
def otherMembers : Option Json → List (String × Json)
  | some (.obj root) =>
    match Json.removeMember "saved_saved_media" root with
    | some (_, rest) => rest
    | none => []
  | _ => []

/-- The values of a section that are retained as unknown. -/
def retainedValues (section? : Option Json) : List Json :=
  (refusedEntries (savedArray section?) ++ unknownFields (otherMembers section?)).map Prod.snd

/-- No two accepted entries state the same, and the database stores every retained value. -/
structure Stageable (section? : Option Json) : Prop where
  apart : (savedArray section?).Pairwise fun a b => ∀ o, readSaved a = .ok o → readSaved b ≠ .ok o
  storable : ∀ value ∈ retainedValues section?, value.hasNul = false

section Stageable

variable {lib : Externals} {section? : Option Json} {inventory : ArchiveInventory}
  {parsed : ParsedExport}

theorem observations_nodup_iff (saved : List Json) :
    (observations saved).Nodup ↔
      saved.Pairwise fun a b => ∀ o, readSaved a = .ok o → readSaved b ≠ .ok o := by
  unfold observations List.Nodup
  rw [List.pairwise_filterMap]
  apply List.Pairwise.iff
  intro a b
  constructor
  · intro h o ha hb
    exact h o (by rw [ha]; rfl) o (by rw [hb]; rfl) rfl
  · intro h o ha o' hb hsame
    subst hsame
    cases hra : readSaved a with
    | error e => simp [hra, Except.toOption] at ha
    | ok x =>
      cases hrb : readSaved b with
      | error e => simp [hrb, Except.toOption] at hb
      | ok y =>
        simp only [hra, hrb, Except.toOption, Option.some.injEq] at ha hb
        exact h o (by rw [hra, ha]) (by rw [hrb, hb])

theorem unknownRecords_raw (pending : List (String × Json)) :
    ((unknownRecords lib pending).map Prod.snd).map UnknownExportRecord.raw =
      (retained lib pending).map fun q => q.2.2 := by
  unfold unknownRecords
  rw [List.map_map, List.map_map]
  calc _ = ((retained lib pending).zipIdx.map Prod.fst).map fun q => q.2.2 := by
        rw [List.map_map]
        rfl
    _ = _ := by rw [List.zipIdx_map_fst]

theorem parsed_retained (h : parseSavedPosts lib section? inventory = .ok parsed) :
    (parsed.unknownRecords.map UnknownExportRecord.raw).Perm (retainedValues section?) := by
  unfold parseSavedPosts at h
  split at h
  · rename_i root
    cases hremove : Json.removeMember "saved_saved_media" root with
    | none => simp [hremove] at h
    | some found =>
      obtain ⟨value, rest⟩ := found
      cases value with
      | arr saved =>
        simp only [hremove, Except.ok.injEq] at h
        subst h
        have hvalues : retainedValues (some (.obj root)) =
            (refusedEntries saved ++ unknownFields rest).map Prod.snd := by
          simp [retainedValues, savedArray, otherMembers, hremove]
        rw [hvalues, unknownRecords_raw]
        refine ((List.perm_insertionSort _ _).map _).trans ?_
        rw [List.map_map]
        exact List.Perm.refl _
      | _ => simp [hremove] at h
  · cases h

theorem parsed_storable (h : parseSavedPosts lib section? inventory = .ok parsed) :
    (∀ r ∈ parsed.unknownRecords, r.raw.hasNul = false) ↔
      ∀ value ∈ retainedValues section?, value.hasNul = false := by
  have hperm := parsed_retained h
  constructor
  · intro hall value hvalue
    obtain ⟨r, hr, rfl⟩ := List.mem_map.mp (hperm.mem_iff.mpr hvalue)
    exact hall r hr
  · intro hall r hr
    exact hall _ (hperm.mem_iff.mp (List.mem_map_of_mem hr))

end Stageable

/-! ## Identities of stored records -/

/-- Staged rows are identified by their run and key, conflicts by the record they are about. -/
def RecordIdentified (lib : Externals) (x : ExportRecord) : Prop :=
  (x.recordKind ≠ .conflict ∧ x.recordId = stagedRecordId lib x.runId x.evidenceKey ∧
      ':' ∈ x.evidenceKey.toList) ∨
    (x.recordKind = .conflict ∧ ∃ parent, x.recordId = lib.newV5 (.named parent "identity-conflict"))

def RecordIds (lib : Externals) (db : Db) : Prop := ∀ x ∈ db.exportRecords, RecordIdentified lib x

section RecordIds

variable {lib : Externals} {env : Env} {db db' : Db}

theorem evidenceKeys_colon {section? : Option Json} {inventory : ArchiveInventory}
    {parsed : ParsedExport} (h : parseSavedPosts lib section? inventory = .ok parsed) :
    ∀ k ∈ evidenceKeys parsed, ':' ∈ k.toList := by
  obtain ⟨rest, rfl⟩ := parseSavedPosts_ok h
  intro k hk
  simp only [evidenceKeys, List.mem_append] at hk
  rcases hk with hk | hk | hk | hk
  · obtain ⟨r, -, rfl⟩ := List.mem_map.mp hk
    simp [normalizedKey]
  · obtain ⟨e, -, rfl⟩ := List.mem_map.mp hk
    simp [unknownSectionKey]
  · obtain ⟨r, hr, rfl⟩ := List.mem_map.mp hk
    obtain ⟨u, hu, rfl⟩ := List.mem_map.mp hr
    obtain ⟨p, -, rfl⟩ := List.mem_map.mp hu
    simp [unknownKey]
  · obtain ⟨w, -, rfl⟩ := List.mem_map.mp hk
    simp [warningKey]

theorem parseFile_ok {file : Except ArchiveFailureClass ArchiveFile} {parsed : ParsedExport}
    (h : parseFile lib file = .ok parsed) :
    ∃ section? inventory, parseSavedPosts lib section? inventory = .ok parsed := by
  cases file with
  | error failure => cases h
  | ok file =>
    obtain ⟨inventory, saved⟩ := file
    cases saved with
    | error failure => cases h
    | ok section? => exact ⟨section?, inventory, h⟩

theorem RecordIds.append (h : RecordIds lib db) {new : List ExportRecord}
    (hrows : db'.exportRecords.rows = db.exportRecords.rows ++ new)
    (hnew : ∀ x ∈ new, RecordIdentified lib x) : RecordIds lib db' := by
  intro x hx
  rw [Table.mem_rows, hrows, List.mem_append] at hx
  rcases hx with hx | hx
  · exact h x hx
  · exact hnew x hx

theorem RecordIds.write (h : RecordIds lib db) (hwrite : ImportWrite lib env db db') :
    RecordIds lib db' := by
  cases hwrite with
  | idle => exact h
  | received hy =>
    have hframe := persistReceipt_frame _ _ _ _ hy
    rw [hframe]
    exact h
  | inspected hy =>
    obtain ⟨-, runs, transitions, rfl⟩ := finishInspection_yields hy
    exact h
  | refused hy =>
    obtain ⟨-, runs, transitions, rfl⟩ := failParse_yields hy
    exact h
  | parsed hparse hy =>
    obtain ⟨section?, inventory, hparse⟩ := parseFile_ok hparse
    obtain ⟨processedAt, -, staged, records, runs, transitions, rfl, hrows, hkeys, hstaged, -⟩ :=
      persistParsed_yields hy
    refine h.append hrows fun x hx => ?_
    obtain ⟨hrun, hkind, hid⟩ := (hstaged x hx).facts
    have hkey : x.evidenceKey ∈ evidenceKeys _ := hkeys ▸ List.mem_map_of_mem hx
    exact Or.inl ⟨hkind, by rw [hid, hrun], evidenceKeys_colon hparse _ hkey⟩
  | reconciled hy =>
    rcases reconcile_yields hy with ⟨rfl, -⟩ | ⟨ctx, m, -, hreconciles, -, reports, runs, transitions,
      row, -, -, rfl⟩
    · exact h
    · obtain ⟨conflicts, hrows, hconflict⟩ := hreconciles.records
      exact h.append hrows fun x hx => Or.inr (hconflict x hx).2

theorem recordIds_reachable {actions : List ImportAction}
    (hg : Guarded (importStep lib) ImportSystem.Sanctioned {} actions) :
    RecordIds lib (run (importStep lib) {} actions).db := by
  have hinv := run_invariant (importStep lib) ImportSystem.Sanctioned
    (fun s => (∀ job ∈ s.jobs, Imports lib job) ∧ RecordIds lib s.db) ?_ hg
    ⟨by simp, fun x hx => (Table.not_mem_empty x hx).elim⟩
  · exact hinv.2
  · rintro s a ha ⟨hjobs, hids⟩
    obtain ⟨⟨env, hwrite⟩ | hleaves, hnext⟩ := importStep_writes hjobs ha
    · exact ⟨hnext, hids.write hwrite⟩
    · refine ⟨hnext, ?_⟩
      unfold RecordIds
      rw [hleaves.records]
      exact hids

end RecordIds

/-! ## Staging is total -/

/-- The keys are distinct and free, as keys of the run and as identities. -/
structure Vacant (lib : Externals) (runId : Uuid) (keys : List String) (db : Db) : Prop where
  run : (db.importRuns.lookup runId).isSome
  nodup : keys.Nodup
  key : ∀ k ∈ keys, ∀ x ∈ db.exportRecords, ¬ (x.runId = runId ∧ x.evidenceKey = k)
  id : ∀ k ∈ keys, ∀ x ∈ db.exportRecords, x.recordId ≠ stagedRecordId lib runId k

section Total

variable {lib : Externals} {env : Env} {runId : Uuid} {processedAt : Instant} {keys : List String}
  {db : Db} {tick : Nat} {Q : Unit → Session Db → Prop}

theorem stagedRecordId_inj (hfree : lib.CollisionFree) {runId runId' : Uuid} {k k' : String}
    (h : stagedRecordId lib runId k = stagedRecordId lib runId' k') : runId = runId' ∧ k = k' := by
  have hname := hfree h
  simp only [IdentityMaterial.named.injEq] at hname
  exact hname

/-- The row under the first of the vacant keys is inserted. -/
theorem insertStagedRecord_ends (hfree : lib.CollisionFree) (hq : env.Quiet) {row : ExportRecord}
    (hrow : row.runId = runId ∧ row.recordId = stagedRecordId lib runId row.evidenceKey)
    (h : Vacant lib runId (row.evidenceKey :: keys) db)
    (hQ : ∀ t, Vacant lib runId keys { db with exportRecords := t } →
      Q () ⟨{ db with exportRecords := t }, tick + 1⟩) :
    (insertStagedRecord row).Ends env ⟨db, tick⟩ Q := by
  obtain ⟨hrun, hid⟩ := hrow
  obtain ⟨hhead, htail⟩ := List.nodup_cons.mp h.nodup
  refine .insertInto hq ?_ ?_ fun t ht => hQ t ?_
  · have hkey : (db.exportRecords.rows.any fun r =>
        r.runId = row.runId && r.evidenceKey = row.evidenceKey) = false := by
      rw [List.any_eq_false]
      intro x hx
      simpa [hrun] using h.key row.evidenceKey (by simp) x hx
    have hpresent := h.run
    rw [← hrun] at hpresent
    simp [recordGuard, hkey, Option.isNone_iff_eq_none, ← Option.not_isSome_iff_eq_none, hpresent]
  · intro x hx
    rw [hid]
    exact h.id row.evidenceKey (by simp) x hx
  · have hmem := Table.mem_of_insert? ht
    constructor
    case run => exact h.run
    case nodup => exact htail
    case key =>
      rintro k hk x hx ⟨hxrun, hxkey⟩
      rcases (hmem x).mp hx with hx | rfl
      · exact h.key k (by simp [hk]) x hx ⟨hxrun, hxkey⟩
      · exact hhead (hxkey ▸ hk)
    case id =>
      intro k hk x hx hsame
      rcases (hmem x).mp hx with hx | rfl
      · exact h.id k (by simp [hk]) x hx hsame
      · rw [hid] at hsame
        exact hhead ((stagedRecordId_inj hfree hsame).2 ▸ hk)

/-- A staging loop ends, by induction on what it stages. -/
theorem ends_each {α : Type} {loop : List α → ImportTx Unit} {key : α → String} (items : List α)
    (hnil : ∀ ses, Q () ses → (loop []).Ends env ses Q)
    (hcons : ∀ item rest keys db tick, item ∈ items → Vacant lib runId (key item :: keys) db →
      (∀ t, Vacant lib runId keys { db with exportRecords := t } →
        (loop rest).Ends env ⟨{ db with exportRecords := t }, tick + 1⟩ Q) →
      (loop (item :: rest)).Ends env ⟨db, tick⟩ Q)
    (h : Vacant lib runId (items.map key ++ keys) db)
    (hQ : ∀ t tick, Vacant lib runId keys { db with exportRecords := t } →
      Q () ⟨{ db with exportRecords := t }, tick⟩) :
    (loop items).Ends env ⟨db, tick⟩ Q := by
  induction items generalizing db tick with
  | nil => exact hnil _ (hQ db.exportRecords tick h)
  | cons item rest ih =>
    refine hcons item rest _ db tick (by simp) h fun t ht => ?_
    refine ih (fun item' rest' keys db tick hmem => ?_) ht fun t' tick' ht' => hQ t' tick' ht'
    exact hcons item' rest' keys db tick (List.mem_cons_of_mem _ hmem)

theorem stageRecords_ends (hfree : lib.CollisionFree) (hq : env.Quiet)
    {records : List ParsedExportRecord}
    (hdigest : ∀ r ∈ records, ∃ digest, decodeSha256 r.semanticDigest = .ok digest)
    (h : Vacant lib runId (records.map normalizedKey ++ keys) db)
    (hQ : ∀ t tick, Vacant lib runId keys { db with exportRecords := t } →
      Q () ⟨{ db with exportRecords := t }, tick⟩) :
    (stageRecords lib runId processedAt records).Ends env ⟨db, tick⟩ Q := by
  apply ends_each records _ _ h hQ
  · exact fun ses hses => .pure hses
  · intro r rest keys db tick hr hvacant hrest
    obtain ⟨digest, hd⟩ := hdigest r hr
    refine .bind (.mapError (.ofExcept hd (.bind ?_)))
    exact insertStagedRecord_ends hfree hq ⟨rfl, rfl⟩ hvacant hrest

theorem stageUnknownEntries_ends (hfree : lib.CollisionFree) (hq : env.Quiet)
    {entries : List UnknownExportEntry} (hsize : ∀ e ∈ entries, e.decompressedSize ≤ i64Max)
    (h : Vacant lib runId (entries.map unknownSectionKey ++ keys) db)
    (hQ : ∀ t tick, Vacant lib runId keys { db with exportRecords := t } →
      Q () ⟨{ db with exportRecords := t }, tick⟩) :
    (stageUnknownEntries lib runId processedAt entries).Ends env ⟨db, tick⟩ Q := by
  apply ends_each entries _ _ h hQ
  · exact fun ses hses => .pure hses
  · intro e rest keys db tick he hvacant hrest
    unfold stageUnknownEntries
    rw [if_neg (Nat.not_lt.mpr (hsize e he))]
    exact .bind (insertStagedRecord_ends hfree hq ⟨rfl, rfl⟩ hvacant hrest)

theorem stageUnknownRecords_ends (hfree : lib.CollisionFree) (hq : env.Quiet)
    {records : List UnknownExportRecord}
    (hdigest : ∀ r ∈ records, ∃ digest, decodeSha256 r.semanticDigest = .ok digest)
    (hnul : ∀ r ∈ records, r.raw.hasNul = false)
    (h : Vacant lib runId (records.map UnknownExportRecord.evidenceKey ++ keys) db)
    (hQ : ∀ t tick, Vacant lib runId keys { db with exportRecords := t } →
      Q () ⟨{ db with exportRecords := t }, tick⟩) :
    (stageUnknownRecords lib runId processedAt records).Ends env ⟨db, tick⟩ Q := by
  apply ends_each records _ _ h hQ
  · exact fun ses hses => .pure hses
  · intro r rest keys db tick hr hvacant hrest
    obtain ⟨digest, hd⟩ := hdigest r hr
    refine .bind (.mapError (.ofExcept hd ?_))
    rw [if_neg (by simp [hnul r hr])]
    exact .bind (insertStagedRecord_ends hfree hq ⟨rfl, rfl⟩ hvacant hrest)

theorem stageWarnings_ends (hfree : lib.CollisionFree) (hq : env.Quiet)
    {warnings : List ParserWarning} (h : Vacant lib runId (warnings.map warningKey ++ keys) db)
    (hQ : ∀ t tick, Vacant lib runId keys { db with exportRecords := t } →
      Q () ⟨{ db with exportRecords := t }, tick⟩) :
    (stageWarnings lib runId processedAt warnings).Ends env ⟨db, tick⟩ Q := by
  apply ends_each warnings _ _ h hQ
  · exact fun ses hses => .pure hses
  · intro w rest keys db tick _ hvacant hrest
    exact .bind (insertStagedRecord_ends hfree hq ⟨rfl, rfl⟩ hvacant hrest)

end Total

/-! ## What the parser returns -/

/-- What staging relies on of the parser's output. -/
structure WellParsed (parsed : ParsedExport) : Prop where
  records : ∀ r ∈ parsed.records, ∃ digest, decodeSha256 r.semanticDigest = .ok digest
  entries : ∀ e ∈ parsed.unknownEntries, e.decompressedSize ≤ i64Max
  unknown : ∀ r ∈ parsed.unknownRecords, ∃ digest, decodeSha256 r.semanticDigest = .ok digest
  keys : ∀ k ∈ evidenceKeys parsed, ':' ∈ k.toList

section Parsed

variable {lib : Externals} {section? : Option Json} {inventory : ArchiveInventory}
  {parsed : ParsedExport}

theorem decode_digestJson (hlen : ∀ text, (lib.sha256 text).length = 32) (text : String) :
    decodeSha256 (digestJson lib text) = .ok (lib.sha256 text) :=
  decodeSha256_hexEncode (hlen text)

theorem parseSavedPosts_wellParsed (hlen : ∀ text, (lib.sha256 text).length = 32)
    (h : parseSavedPosts lib section? inventory = .ok parsed) : WellParsed parsed := by
  have hcolon := evidenceKeys_colon h
  obtain ⟨rest, rfl⟩ := parseSavedPosts_ok h
  constructor
  case records =>
    intro r hr
    obtain ⟨o, -, rfl⟩ := List.mem_map.mp ((List.mem_insertionSort _).mp hr)
    exact ⟨_, decode_digestJson hlen o.semanticJson⟩
  case entries =>
    intro e he
    obtain ⟨x, hx, rfl⟩ := List.mem_map.mp he
    have hbound := inventory.bounded x (List.mem_filter.mp hx).1
    exact hbound.trans (by decide)
  case unknown =>
    intro r hr
    obtain ⟨u, hu, rfl⟩ := List.mem_map.mp hr
    obtain ⟨p, hp, rfl⟩ := List.mem_map.mp hu
    have hmem : p.1 ∈ retained lib (refusedEntries (savedArray section?) ++ unknownFields rest) := by
      rw [(List.mem_zipIdx' hp).2]
      exact List.getElem_mem _
    obtain ⟨q, -, hq⟩ := List.mem_map.mp ((List.mem_insertionSort _).mp hmem)
    refine ⟨lib.sha256 q.2.render, ?_⟩
    rw [← hq]
    exact decode_digestJson hlen q.2.render
  case keys => exact hcolon

end Parsed

/-! ## The run reaches parsed -/

/-- The run is in the state `parsed`. -/
def ReachedParsed (runId : Uuid) (db : Db) : Prop :=
  ∃ r ∈ db.importRuns, r.runId = runId ∧ r.state = .parsed

section Reaches

variable {lib : Externals} {env : Env} {db : Db} {parsed : ParsedExport} {r : ImportRun}

theorem inspected_path {path : List ImportState} (h : RunHistory db r path)
    (hstate : r.state = .inspected) : path = [.received, .inspected] := by
  have hlegal := h.legal
  have hlast := h.state
  rw [hstate] at hlast
  simp only [runPaths, List.mem_cons, List.not_mem_nil, or_false] at hlegal
  rcases hlegal with rfl | rfl | rfl | rfl | rfl | rfl <;> first | rfl | cases hlast

/-- Nothing is staged for an inspected run, so every key is vacant. -/
theorem ImportTables.vacant (h : ImportTables db) (hids : RecordIds lib db)
    (hfree : lib.CollisionFree) (hr : r ∈ db.importRuns) (hstate : r.state = .inspected)
    (hparsed : WellParsed parsed) (hkeys : (evidenceKeys parsed).Nodup) :
    Vacant lib r.runId (evidenceKeys parsed) db := by
  obtain ⟨path, hpath⟩ := h.histories r hr
  obtain rfl := inspected_path hpath hstate
  have hnone : runRecords r.runId db = [] := by
    rw [hpath.conflicts (by decide)]
    exact List.length_eq_zero_iff.mp (hpath.staged.trans (if_neg (by decide)))
  have hother : ∀ x ∈ db.exportRecords, x.runId ≠ r.runId := by
    intro x hx
    simpa using List.filter_eq_nil_iff.mp hnone x hx
  constructor
  case run => rw [Table.lookup_mem hr, Option.isSome_some]
  case nodup => exact hkeys
  case key => exact fun k _ x hx hsame => hother x hx hsame.1
  case id =>
    intro k hk x hx hsame
    rcases hids x hx with ⟨-, hstaged, -⟩ | ⟨-, parent, hconflict⟩
    · rw [hstaged] at hsame
      exact hother x hx (stagedRecordId_inj hfree hsame).1
    · rw [hconflict] at hsame
      have hname := (stagedRecordId_inj hfree hsame).2
      have hcolon := hparsed.keys k hk
      rw [← hname] at hcolon
      exact absurd hcolon (by decide +kernel)

/-- **Staging ends** with the run parsed, when the keys are distinct and the values storable. -/
theorem persistParsed_ends (hfree : lib.CollisionFree) (hq : env.Quiet)
    (hdrawn : ∀ n, ∀ t ∈ db.importRunTransitions, t.transitionId ≠ env.uuid n)
    (h : ImportTables db) (hids : RecordIds lib db) (hr : r ∈ db.importRuns)
    (hstate : r.state = .inspected) (hparsed : WellParsed parsed)
    (hkeys : (evidenceKeys parsed).Nodup)
    (hnul : ∀ u ∈ parsed.unknownRecords, u.raw.hasNul = false) :
    (persistParsed lib r.runId parsed).Ends env ⟨db, 0⟩ fun _ ses =>
      ReachedParsed r.runId ses.store := by
  have hvacant := h.vacant hids hfree hr hstate hparsed hkeys
  have hrow := Table.lookup_mem hr
  obtain ⟨path, hpath⟩ := h.histories r hr
  obtain rfl := inspected_path hpath hstate
  have hordinal : (db.importRunTransitions.rows.any fun t =>
      t.runId = r.runId && t.ordinal = 3) = false := by
    rw [List.any_eq_false]
    intro t ht hsame
    simp only [Bool.and_eq_true, decide_eq_true_eq] at hsame
    have hedge : ImportRunTransition.edge t ∈ edges [.received, .inspected] := by
      rw [← hpath.transitions]
      exact List.mem_map_of_mem (List.mem_filter.mpr ⟨ht, by simpa using hsame.1⟩)
    have hfirst : t.ordinal ∈ (edges [.received, .inspected]).map Prod.fst :=
      List.mem_map_of_mem (f := Prod.fst) hedge
    rw [hsame.2] at hfirst
    exact absurd hfirst (by decide)
  have hin : ImportRun.inState r.runId .inspected r = true := inState_iff.mpr ⟨rfl, hstate⟩
  have hone : (db.importRuns.rows.filter (ImportRun.inState r.runId .inspected)).length = 1 := by
    rw [Table.filter_eq_singleton hr hin fun x hx => (inState_iff.mp hx).1, List.length_singleton]
  refine .bind (.nowUtc (.bind (.query hq ?_)))
  dsimp only
  rw [hrow, if_neg (by simp [hstate])]
  refine .bind (stageRecords_ends hfree hq hparsed.records hvacant fun t1 n1 h1 => ?_)
  refine .bind (stageUnknownEntries_ends hfree hq hparsed.entries h1 fun t2 n2 h2 => ?_)
  refine .bind (stageUnknownRecords_ends hfree hq hparsed.unknown hnul h2 fun t3 n3 h3 => ?_)
  rw [← List.append_nil (parsed.warnings.map warningKey)] at h3
  refine .bind (stageWarnings_ends hfree hq h3 fun t4 n4 h4 => ?_)
  refine .bind (.statement hq rfl ?_)
  dsimp only
  rw [hone]
  simp only [decide_true, Bool.not_true, Bool.false_eq_true, if_false]
  refine .bind (.nowV7 (.bind (.insertInto hq ?_ ?_ fun t ht => .commit hq ?_)))
  · simp [transitionGuard, hordinal, Table.lookup_update, hrow]
  · exact fun t ht => hdrawn _ t ht
  · refine ⟨_, List.mem_map.mpr ⟨r, hr, rfl⟩, ?_, ?_⟩
    · rw [if_pos hin]
    · rw [if_pos hin]

/-- What a committed staging says about the archive. -/
theorem persistParsed_committed {u : Unit} {db' : Db}
    (h : (persistParsed lib r.runId parsed).Yields env db u db') :
    (evidenceKeys parsed).Nodup ∧ ∀ x ∈ parsed.unknownRecords, x.raw.hasNul = false := by
  obtain ⟨processedAt, -, staged, records, runs, transitions, rfl, hrows, hkeys, hstaged, hnul⟩ :=
    persistParsed_yields h
  refine ⟨?_, hnul⟩
  -- the identities of stored rows are distinct, and those of staged rows come from their keys
  have hids : (staged.map ExportRecord.recordId).Nodup := by
    have hnodup := records.nodup
    rw [hrows, List.map_append] at hnodup
    exact (List.nodup_append.mp hnodup).2.1
  have hsame : staged.map ExportRecord.recordId =
      (staged.map ExportRecord.evidenceKey).map (stagedRecordId lib r.runId) := by
    rw [List.map_map]
    exact List.map_congr_left fun x hx => (hstaged x hx).facts.2.2
  rw [hsame] at hids
  rw [← hkeys]
  exact List.Nodup.of_map _ hids

end Reaches

/-- **Exactly the stageable archives are staged**: in every state that the import lane reaches, the
evidence keys of a parsed archive are distinct and staging takes its inspected run to parsed, if
and only if no two entries state the same and every retained value can be stored. -/
theorem parsed_export_staged_iff (lib : Externals) (hfree : lib.CollisionFree)
    (hlen : ∀ text, (lib.sha256 text).length = 32) {actions : List ImportAction}
    (hg : Guarded (importStep lib) ImportSystem.Sanctioned {} actions) {section? : Option Json}
    {inventory : ArchiveInventory} {parsed : ParsedExport}
    (hparse : parseFile lib (.ok ⟨inventory, .ok section?⟩) = .ok parsed)
    (hsha : DigestsApart lib
      ((observations (savedArray section?)).map SavedObservation.semanticJson))
    {r : ImportRun} (hr : r ∈ (run (importStep lib) {} actions).db.importRuns)
    (hstate : r.state = .inspected) {env : Env} (hq : env.Quiet)
    (hdrawn : ∀ n, ∀ t ∈ (run (importStep lib) {} actions).db.importRunTransitions,
      t.transitionId ≠ env.uuid n) :
    ((evidenceKeys parsed).Nodup ∧
        ∃ db', (persistParsed lib r.runId parsed).exec env (run (importStep lib) {} actions).db =
          (.ok (), db') ∧ ReachedParsed r.runId db') ↔ Stageable section? := by
  have hparse : parseSavedPosts lib section? inventory = .ok parsed := hparse
  constructor
  · rintro ⟨hkeys, db', hexec, -⟩
    obtain ⟨-, hnul⟩ := persistParsed_committed (exec_ok hexec)
    constructor
    case apart =>
      exact (observations_nodup_iff _).mp ((evidenceKeys_nodup_iff hsha hparse).mp hkeys)
    case storable => exact (parsed_storable hparse).mp hnul
  · intro h
    have hkeys : (evidenceKeys parsed).Nodup :=
      (evidenceKeys_nodup_iff hsha hparse).mpr ((observations_nodup_iff _).mpr h.apart)
    have hends := persistParsed_ends hfree hq hdrawn (imports_sound hg).tables
      (recordIds_reachable hg) hr hstate (parseSavedPosts_wellParsed hlen hparse) hkeys
      ((parsed_storable hparse).mpr h.storable)
    obtain ⟨⟨⟩, ses, hexec, hreached⟩ := hends.exec
    exact ⟨hkeys, ses.store, hexec, hreached⟩

/-- The archive is received and inspected. -/
def inspectedExport (entries : List Json) : List ImportAction :=
  [.receive (quietEnv 0 100) 1 [7] 10, .begin (.pass 1)] ++ (List.range 4).map fun n =>
    .advance (quietEnv 0 (100 * (n + 2))) (.ok (.ok (savedArchive entries))) 0

theorem inspectedExport_sanctioned (entries : List Json) :
    Guarded (importStep padded) ImportSystem.Sanctioned {} (inspectedExport entries) := by
  refine sanctioned_of_noOthers fun a ha db hothers => ?_
  simp [inspectedExport, hothers] at ha

/-- The entry stands twice in the archive: both records have one key. -/
theorem repeatedEntry_not_staged :
    Guarded (importStep padded) ImportSystem.Sanctioned {}
        (inspectedExport [savedEntry, savedEntry]) ∧
      (run (importStep padded) {} (inspectedExport [savedEntry, savedEntry])).db.importRuns.rows.map
        (fun r => (r.runId, r.state)) = [(103, .inspected)] ∧
      ∃ parsed, parseFile padded (.ok (savedArchive [savedEntry, savedEntry])) = .ok parsed ∧
        ¬ (evidenceKeys parsed).Nodup ∧
        ((persistParsed padded 103 parsed).exec (quietEnv 0 900)
          (run (importStep padded) {} (inspectedExport [savedEntry, savedEntry])).db).1 =
            .error (.receipt (.persistence (.uniqueViolation "export_records_run_evidence_key"))) := by
  refine ⟨inspectedExport_sanctioned _, by decide +kernel, ?_⟩
  refine ⟨{ records := parsedRecords padded [savedEntry, savedEntry], unknownEntries := [],
            unknownRecords := [], warnings := [] }, rfl, by decide +kernel, by decide +kernel⟩

def otherEntry : Json :=
  .obj [("title", .str "grace"), ("string_map_data", .obj [("Saved on",
    .obj [("href", .str "https://www.instagram.com/reel/B/"), ("timestamp", .int 8)])])]

/-- Two saved posts and an entry of another shape. -/
def mixedEntries : List Json := [savedEntry, .obj [("name", .str "likes")], otherEntry]

def mixedParsed : ParsedExport :=
  let unknown := unknownRecords padded (refusedEntries mixedEntries)
  { records := parsedRecords padded mixedEntries
    unknownEntries := []
    unknownRecords := unknown.map Prod.snd
    warnings := parserWarnings unknown [] }

theorem parsed_export_staged_iff_mixedEntries :
    parseFile padded (.ok (savedArchive mixedEntries)) = .ok mixedParsed ∧
      mixedParsed.records.map (fun r => r.shortcode) = ["A", "B"] ∧
      mixedParsed.unknownRecords.length = 1 ∧
      mixedParsed.warnings.map ParserWarning.code = ["unknown_saved_record"] ∧
      ∃ r ∈ (run (importStep padded) {} (inspectedExport mixedEntries)).db.importRuns,
        (evidenceKeys mixedParsed).Nodup ∧
          ∃ db', (persistParsed padded r.runId mixedParsed).exec (quietEnv 0 900)
            (run (importStep padded) {} (inspectedExport mixedEntries)).db = (.ok (), db') ∧
              ReachedParsed r.runId db' := by
  have hruns : ((103 : Uuid), ImportState.inspected) ∈
      (run (importStep padded) {} (inspectedExport mixedEntries)).db.importRuns.rows.map
        fun r => (r.runId, r.state) := by decide +kernel
  have hdrawn : ∀ t ∈ (run (importStep padded) {} (inspectedExport mixedEntries)).db
      |>.importRunTransitions.rows, t.transitionId < 900 := by decide +kernel
  obtain ⟨r, hr, heq⟩ := List.mem_map.mp hruns
  simp only [Prod.mk.injEq] at heq
  have hparse : parseFile padded (.ok ⟨emptyArchive.inventory, .ok (savedSection mixedEntries)⟩) =
      .ok mixedParsed := rfl
  have hapart : DigestsApart padded
      ((observations (savedArray (savedSection mixedEntries))).map
        SavedObservation.semanticJson) := by
    unfold DigestsApart
    decide +kernel
  have hstageable : Stageable (savedSection mixedEntries) :=
    ⟨(observations_nodup_iff _).mp (by decide +kernel), by decide +kernel⟩
  refine ⟨hparse, by decide +kernel, by decide +kernel, by decide +kernel, r, hr, ?_⟩
  refine (parsed_export_staged_iff padded reference_collisionFree (fun text => ?_)
    (inspectedExport_sanctioned mixedEntries) hparse hapart hr heq.2 (fun _ => rfl)
    fun n t ht hsame => ?_).mpr hstageable
  · simp [padded]
  · have hlt := hdrawn t ht
    rw [hsame] at hlt
    exact absurd hlt (Nat.not_lt.mpr (Nat.le_add_right 900 n))

end InstagramArchive.DataExport

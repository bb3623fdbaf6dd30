import InstagramArchive.ExportStaging
import InstagramArchive.RefreshConflict
import InstagramArchive.Reporting
import InstagramArchive.ServiceWrites

/-!
# Evidence and its content address

A raw record names its body by digest. The writers of payloads and of provider responses hash
the body they store. A reconciliation takes the digest of its staged record, which the parser
computed before it put the digest into the record, and stores the record with it. So evidence
is hashed unless an export brought it, and misnamed if one did.
-/

namespace InstagramArchive

open Relational Relational.Tx

/-- The reference is the digest in hexadecimal, and the size is that of the body. -/
structure RawRecord.Measured (r : RawRecord) : Prop where
  reference : r.blobRef = hexEncode r.contentHash
  size : r.byteSize = r.body.utf8ByteSize

/-- The digest is that of the body. -/
def RawRecord.Hashed (lib : Externals) (r : RawRecord) : Prop := r.contentHash = lib.sha256 r.body

/-- The digest is that of another text. -/
def RawRecord.Misnamed (lib : Externals) (r : RawRecord) : Prop :=
  ∃ text, text ≠ r.body ∧ r.contentHash = lib.sha256 text

/-- What the digest is of, by the kind of the record. -/
structure RawRecord.Named (lib : Externals) (r : RawRecord) : Prop where
  hashed : r.recordKind ≠ .exportSection → r.Hashed lib
  misnamed : r.recordKind = .exportSection → r.Misnamed lib

/-- The raw record of a staged one. -/
structure IsObservation (records : List ExportRecord) (r : RawRecord) : Prop where
  source : ∃ x ∈ records, x.entryDigest = some r.contentHash ∧ x.entryByteSize = r.byteSize ∧
    DataExport.payloadText x.payload = r.body
  reference : r.blobRef = hexEncode r.contentHash
  kind : r.recordKind = .exportSection

/-- What a transaction does to the evidence. -/
inductive EvidenceChange (lib : Externals) (db : Db) (observations : List ExportRecord) : Db → Prop
  | appended {db' : Db}
      (h : AppendsRaws (fun r => IsPage lib r ∨ IsResponse lib r ∨ IsObservation observations r)
        db db') : EvidenceChange lib db observations db'
  | removed {db' : Db} (h : ∀ r ∈ db'.rawRecords, r ∈ db.rawRecords) :
      EvidenceChange lib db observations db'

section Writers

variable {lib : Externals} {P : RawRecord → Prop} {db db' : Db}

theorem IsPage.measured {r : RawRecord} (h : IsPage lib r) : r.Measured := by
  obtain ⟨body, now, rawRecordId, rfl⟩ := h
  exact ⟨rfl, rfl⟩

theorem IsPage.hashed {r : RawRecord} (h : IsPage lib r) : r.Hashed lib := by
  obtain ⟨body, now, rawRecordId, rfl⟩ := h
  rfl

theorem IsPage.named {r : RawRecord} (h : IsPage lib r) : r.Named lib := by
  refine ⟨fun _ => h.hashed, fun hkind => ?_⟩
  obtain ⟨body, now, rawRecordId, rfl⟩ := h
  cases hkind

theorem IsResponse.measured {r : RawRecord} (h : IsResponse lib r) : r.Measured := by
  obtain ⟨body, resolvedAt, rawRecordId, rfl⟩ := h
  exact ⟨rfl, rfl⟩

theorem IsResponse.hashed {r : RawRecord} (h : IsResponse lib r) : r.Hashed lib := by
  obtain ⟨body, resolvedAt, rawRecordId, rfl⟩ := h
  rfl

theorem IsResponse.named {r : RawRecord} (h : IsResponse lib r) : r.Named lib := by
  refine ⟨fun _ => h.hashed, fun hkind => ?_⟩
  obtain ⟨body, resolvedAt, rawRecordId, rfl⟩ := h
  cases hkind

instance : IsPreorder Db (AppendsRaws P) where
  refl _ := .of_eq rfl
  trans _ _ _ h h' := h.trans h'

/-- Evidence that is there stays as it is. -/
theorem EvidenceChange.kept {observations : List ExportRecord}
    (h : EvidenceChange lib db observations db') {r r' : RawRecord} (hr : r ∈ db.rawRecords)
    (hr' : r' ∈ db'.rawRecords) (hid : r'.rawRecordId = r.rawRecordId) : r' = r := by
  cases h with
  | appended h =>
    obtain ⟨raws, hrows, -⟩ := h
    have hmem : r ∈ db'.rawRecords := by
      change r ∈ db'.rawRecords.rows
      rw [hrows]
      exact List.mem_append_left raws hr
    exact Table.eq_of_key_eq hr' hmem hid
  | removed h => exact Table.eq_of_key_eq (h r' hr') hr hid

end Writers

/-! ## Reconciliations -/

namespace DataExport

section Reconciliation

variable {lib : Externals} {ctx : RunContext} {P : RawRecord → Prop}

theorem persistConflict_raws (row : NormalizedRow) :
    (persistConflict lib ctx row).Respects (AppendsRaws P) :=
  .bind (.insertUnless fun _ _ => .of_eq rfl) fun _ => .pure _

theorem exportMediaId_raws (row : NormalizedRow) (found : Option Media) :
    (exportMediaId lib ctx row found).Respects (AppendsRaws P) := by
  cases found with
  | some m => exact .pure m.mediaId
  | none => exact .bind (.insertInto fun _ _ => .of_eq rfl) fun _ => .pure _

theorem insertEvidence_raws {row : NormalizedRow} (hrow : P (rawEvidence lib row ctx.observedAt))
    (mediaId : Uuid) : (insertEvidence lib ctx row mediaId).Respects (AppendsRaws P) := by
  refine Tx.Respects.bind ?_ fun _ => .bind (.insertUnless fun _ _ => .of_eq rfl) fun _ => .pure _
  intro env db b db' h
  rcases h.insertUnless with ⟨-, -, rfl⟩ | ⟨-, -, -, t, ht, rfl⟩
  · exact .of_eq rfl
  · refine ⟨[rawEvidence lib row ctx.observedAt], (Table.insert?_eq_some ht).1, fun r hr => ?_⟩
    rwa [List.mem_singleton.mp hr]

theorem appendDataExportFact_raws (mediaId : Uuid) (row : NormalizedRow) :
    (appendDataExportFact lib mediaId ctx.owner row ctx.archive ctx.observedAt).Respects
      (AppendsRaws P) := by
  refine Tx.Respects.bind (.query _) fun prior => ?_
  split
  · exact .pure false
  · refine Tx.Respects.bind (.ofExcept _) fun _ => Tx.Respects.bind .nowV7 fun eventId => ?_
    exact .insertUnless fun _ _ => .of_eq rfl

theorem reconcileRecord_raws {row : NormalizedRow}
    (hrow : P (rawEvidence lib row ctx.observedAt)) :
    (reconcileRecord lib ctx row).Respects (AppendsRaws P) := by
  refine Tx.Respects.bind (.query _) fun found => ?_
  split
  · exact persistConflict_raws row
  · refine Tx.Respects.bind (exportMediaId_raws row _) fun mediaId => ?_
    refine Tx.Respects.bind (insertEvidence_raws hrow mediaId) fun _ => ?_
    have hrest : (do
        let _ ← mapError .publish
          (appendDataExportFact lib mediaId ctx.owner row ctx.archive ctx.observedAt)
        : ImportTx Unit).Respects (AppendsRaws P) :=
      Tx.Respects.bind (appendDataExportFact_raws mediaId row).mapError fun _ => .pure _
    dsimp only
    split
    · exact Tx.Respects.bind (.executeChecked fun _ => .of_eq rfl) fun _ => hrest
    · exact hrest

theorem reconcileRecords_raws (rows : List NormalizedRow)
    (hrows : ∀ row ∈ rows, P (rawEvidence lib row ctx.observedAt)) :
    (reconcileRecords lib ctx rows).Respects (AppendsRaws P) := by
  induction rows with
  | nil => exact .pure ()
  | cons row rest ih =>
    rw [List.forall_mem_cons] at hrows
    exact .bind (reconcileRecord_raws hrows.1) fun _ => ih hrows.2

/-- The evidence of a row that was read from the staging. -/
theorem isObservation_readRecords {stored : List ExportRecord} {rows : List NormalizedRow}
    (h : readRecords stored = .ok rows) {row : NormalizedRow} (hrow : row ∈ rows)
    (observedAt : Instant) : IsObservation stored (rawEvidence lib row observedAt) := by
  suffices hsource : ∃ x ∈ stored, x.entryDigest = some row.digest ∧
      x.entryByteSize = row.byteSize ∧ x.payload = row.payload by
    obtain ⟨x, hx, hdigest, hsize, hpayload⟩ := hsource
    exact ⟨⟨x, hx, hdigest, hsize, congrArg payloadText hpayload⟩, rfl, rfl⟩
  induction stored generalizing rows with
  | nil =>
    cases h
    exact absurd hrow (by simp)
  | cons x rest ih =>
    have hlater : ∀ rows, readRecords rest = .ok rows → row ∈ rows → ∃ y ∈ x :: rest,
        y.entryDigest = some row.digest ∧ y.entryByteSize = row.byteSize ∧
          y.payload = row.payload := by
      intro rows hrest hmem
      obtain ⟨y, hy, hsame⟩ := ih hrest hmem
      exact ⟨y, List.mem_cons_of_mem x hy, hsame⟩
    unfold readRecords at h
    split at h
    · rename_i providerId url _ _
      cases hread : normalizedRow x providerId url with
      | error e =>
        rw [hread] at h
        cases h
      | ok first =>
        cases hrest : readRecords rest with
        | error e =>
          rw [hread, hrest] at h
          cases h
        | ok more =>
          rw [hread, hrest] at h
          cases h
          rcases List.mem_cons.mp hrow with rfl | hmem
          · unfold normalizedRow at hread
            split at hread
            · cases hread
            · rename_i digest hdigest
              cases hread
              exact ⟨x, List.mem_cons_self, hdigest, rfl, rfl⟩
          · exact hlater more hrest hmem
    · exact hlater rows h hrow

/-- **A reconciliation appends evidence of the records of a parsed run.** -/
theorem reconcile_evidence {env : Env} {db db' : Db} {runId : Uuid} {report : CompletenessReport}
    (h : (reconcile lib runId).Yields env db report db') :
    db'.rawRecords = db.rawRecords ∨ (∃ ctx, importContext runId db = some (.parsed, ctx)) ∧
      AppendsRaws (IsObservation (normalizedRecords runId db)) db db' := by
  obtain ⟨⟨state, ctx⟩, _, h1, h⟩ := Yields.bind h
  obtain ⟨hctx, rfl⟩ := h1.fetchOne
  have hrunId : ctx.runId = runId := by
    obtain ⟨r, -, hctx⟩ := Option.bind_eq_some_iff.mp hctx
    obtain ⟨s, -, hctx⟩ := Option.bind_eq_some_iff.mp hctx
    cases hctx
    rfl
  cases state with
  | received | inspected | failed => exact h.throw.elim
  | reconciled =>
    obtain ⟨-, rfl⟩ := h.fetchOne
    exact .inl rfl
  | parsed =>
    refine .inr ⟨⟨ctx, hctx⟩, ?_⟩
    obtain ⟨stored, _, h2, h⟩ := Yields.bind h
    obtain ⟨hstored, rfl⟩ := h2.query
    obtain ⟨records, _, h3, h⟩ := h.bind
    obtain ⟨hread, rfl⟩ := h3.ofExcept
    obtain ⟨_, m, h4, h⟩ := h.bind
    have hraws : AppendsRaws (IsObservation (normalizedRecords runId db)) db m := by
      refine reconcileRecords_raws records (fun row hrow => ?_) env _ _ _ h4
      rw [← hrunId, ← hstored]
      exact isObservation_readRecords (mapError_ok hread) hrow ctx.observedAt
    refine hraws.trans (.of_eq ?_)
    obtain ⟨report', _, h5, h⟩ := h.bind
    obtain ⟨-, rfl⟩ := h5.query
    obtain ⟨_, _, h6, h⟩ := h.bind
    obtain ⟨-, t, -, rfl⟩ := h6.insertInto
    obtain ⟨advanced, _, h7, h⟩ := h.bind
    obtain ⟨-, rfl⟩ := advanceRun_yields h7
    split at h
    · exact h.throw.elim
    obtain ⟨transitionId, _, h8, h⟩ := h.bind
    obtain rfl := h8.nowV7
    obtain ⟨_, _, h9, h⟩ := h.bind
    obtain ⟨-, t, -, rfl⟩ := h9.insertInto
    obtain ⟨_, _, h10, h⟩ := h.bind
    obtain rfl := h10.commit
    obtain ⟨-, rfl⟩ := yields_pure.mp h
    rfl

end Reconciliation

end DataExport

/-! ## Steps -/

section Transactions

variable {lib : Externals} {env : Env} {db db' : Db}

theorem Erasure.raws {request : DeletionRequest} (h : Erasure lib request db db') :
    ∀ r ∈ db'.rawRecords, r ∈ db.rawRecords := by
  cases h with
  | raw rawId _ => exact fun r hr => ((Table.mem_delete _ _ r).mp hr).1
  | removal h =>
    rw [h.eq]
    exact fun _ hr => hr
  | _ => exact fun _ hr => hr

theorem Deletes.raws {request : DeletionRequest} (h : Deletes lib env request db db') :
    ∀ r ∈ db'.rawRecords, r ∈ db.rawRecords := by
  have hpreorder : IsPreorder Db fun a b => ∀ r ∈ b.rawRecords, r ∈ a.rawRecords :=
    { refl := fun _ _ hr => hr, trans := fun _ _ _ h h' r hr => h r (h' r hr) }
  exact h.rel (fun _ _ _ _ hr => hr) fun _ _ herasure => herasure.raws

theorem Effect.evidence {call : Call} (h : Effect lib env db call db') :
    EvidenceChange lib db [] db' := by
  by_cases hdelete : ∃ request, call = .delete request
  · obtain ⟨request, rfl⟩ := hdelete
    cases h with
    | idle => exact .removed fun _ hr => hr
    | store hcall _ _ => exact hcall.elim
    | fail hcall _ _ => exact hcall.elim
    | delete h =>
      rcases applyDeletion_yields h with ⟨-, rfl⟩ | ⟨-, -, -, hdeletes⟩
      · exact .removed fun _ hr => hr
      · exact .removed (Deletes.raws hdeletes)
  · have hwrites := h.captureWrites fun request hcall => hdelete ⟨request, hcall⟩
    exact .appended (hwrites.responses.mono fun _ hr => .inr (.inl hr))

/-- What a transaction of the other lanes does to the evidence. -/
theorem ServiceEffect.evidence {ε α : Type} {x : Tx Db ε α} (h : ServiceEffect lib env db x db') :
    EvidenceChange lib db [] db' ∨ ∃ runId ctx, Reconciling lib runId x ∧
      DataExport.importContext runId db = some (.parsed, ctx) ∧
      EvidenceChange lib db (DataExport.normalizedRecords runId db) db' := by
  cases h with
  | lane h => exact .inl (.appended (h.pages.mono fun _ hr => .inl hr))
  | parsed _ h =>
    obtain ⟨_, -, _, _, _, _, rfl, -⟩ := DataExport.persistParsed_yields h
    exact .inl (.removed fun _ hr => hr)
  | reconciled hx h =>
    rcases DataExport.reconcile_evidence h with hsame | ⟨⟨ctx, hctx⟩, hraws⟩
    · exact .inl (.appended (.of_eq hsame))
    · exact .inr ⟨_, ctx, hx, hctx, .appended (hraws.mono fun _ hr => .inr (.inr hr))⟩
  | tasks h =>
    obtain ⟨_, _, rfl⟩ := h
    exact .inl (.removed fun _ hr => hr)
  | deleted h => exact .inl (.removed (applyNewDeletion_yields h).2.2.raws)

/-- A step of the service appends evidence or removes some. -/
theorem serviceStep_evidence {s : Service} (hsound : s.Sound lib) (a : ServiceAction) :
    ∃ observations, EvidenceChange lib s.db observations (serviceStep lib s a).db := by
  rcases serviceStep_cases lib s a with h | ⟨action, env, call, -, -, heffect⟩ |
    ⟨env, ε, α, x, v, hruns, hy⟩
  · rw [h]
    exact ⟨[], .removed fun _ hr => hr⟩
  · exact ⟨[], heffect.evidence⟩
  · rcases ((hsound.runs hruns).effect hy).evidence with h | ⟨runId, _, -, -, h⟩
    · exact ⟨_, h⟩
    · exact ⟨_, h⟩

/-- A property of the evidence that payloads and responses have, and that a reconciliation of the
state gives what it appends. -/
theorem EvidenceChange.all {observations : List ExportRecord} {P : RawRecord → Prop}
    (h : EvidenceChange lib db observations db') (hpage : ∀ r, IsPage lib r → P r)
    (hresponse : ∀ r, IsResponse lib r → P r)
    (hobservation : ∀ r, IsObservation observations r → P r) (hdb : ∀ r ∈ db.rawRecords, P r) :
    ∀ r ∈ db'.rawRecords, P r := by
  cases h with
  | appended h =>
    obtain ⟨raws, hrows, hnew⟩ := h
    intro r hr
    change r ∈ db'.rawRecords.rows at hr
    rw [hrows] at hr
    rcases List.mem_append.mp hr with hr | hr
    · exact hdb r hr
    · rcases hnew r hr with hr | hr | hr
      · exact hpage r hr
      · exact hresponse r hr
      · exact hobservation r hr
  | removed h => exact fun r hr => hdb r (h r hr)

/-- A staged normalized record has the size of its payload. -/
theorem IsStaged.size {x : ExportRecord} (h : IsStaged lib x) (hkind : x.recordKind = .normalized) :
    x.entryByteSize = (DataExport.payloadText x.payload).utf8ByteSize := by
  cases h with
  | parsed _ h =>
    cases h with
    | normalized _ _ => rfl
    | _ => cases hkind
  | conflict h =>
    rw [h] at hkind
    cases hkind

/-- The text the digest is computed over is not the staged one, which has the digest in it. -/
theorem record_json_ne (o : DataExport.SavedObservation) :
    o.semanticJson ≠ (o.record lib).json := by
  intro h
  have hfirst : jsonString "shortcode" = "\"shortcode\"" := by decide
  have hmethod : jsonString "acquisition_method" = "\"acquisition_method\"" := by decide
  have hchars := congrArg (fun text => text.toList[2]?) h
  simp [DataExport.SavedObservation.semanticJson, DataExport.ParsedExportRecord.json, jsonObject,
    hfirst, hmethod] at hchars

/-- A staged normalized record carries the digest of what the parser read, without the digest. -/
theorem IsStaged.digest {x : ExportRecord} (h : IsStaged lib x) (hkind : x.recordKind = .normalized) :
    ∃ o : DataExport.SavedObservation, x.payload = .document (o.record lib).json ∧
      x.entryDigest = some (lib.sha256 o.semanticJson) := by
  cases h with
  | parsed hparse h =>
    cases h with
    | normalized hr hd =>
      obtain ⟨section?, inventory, hsection⟩ := DataExport.parseFile_ok hparse
      obtain ⟨rest, rfl⟩ := DataExport.parseSavedPosts_ok hsection
      obtain ⟨o, -, rfl⟩ := List.mem_map.mp ((List.mem_insertionSort _).mp hr)
      exact ⟨o, rfl, congrArg some (DataExport.decodeSha256_hexEncode_ok hd)⟩
    | _ => cases hkind
  | conflict h =>
    rw [h] at hkind
    cases hkind

theorem mem_normalizedRecords {runId : Uuid} {x : ExportRecord}
    (h : x ∈ DataExport.normalizedRecords runId db) :
    x ∈ db.exportRecords ∧ x.recordKind = .normalized := by
  have h := (List.mem_insertionSort DataExport.recordBefore).mp h
  simp only [List.mem_filter, Bool.and_eq_true, decide_eq_true_eq] at h
  exact ⟨h.1, h.2.1.1.2⟩

theorem IsObservation.measured {runId : Uuid} {r : RawRecord}
    (hstaged : ∀ x ∈ db.exportRecords, IsStaged lib x)
    (h : IsObservation (DataExport.normalizedRecords runId db) r) : r.Measured := by
  obtain ⟨⟨x, hx, -, hsize, hbody⟩, hreference, -⟩ := h
  obtain ⟨hmem, hkind⟩ := mem_normalizedRecords hx
  exact ⟨hreference, by rw [← hsize, ← hbody, (hstaged x hmem).size hkind]⟩

theorem IsObservation.named {runId : Uuid} {r : RawRecord}
    (hstaged : ∀ x ∈ db.exportRecords, IsStaged lib x)
    (h : IsObservation (DataExport.normalizedRecords runId db) r) : r.Named lib := by
  obtain ⟨⟨x, hx, hdigest, -, hbody⟩, -, hsection⟩ := h
  obtain ⟨hmem, hkind⟩ := mem_normalizedRecords hx
  obtain ⟨o, hpayload, hsemantic⟩ := (hstaged x hmem).digest hkind
  refine ⟨fun hother => absurd hsection hother, fun _ => ⟨o.semanticJson, ?_, ?_⟩⟩
  · rw [← hbody, hpayload]
    exact record_json_ne o
  · rw [hdigest] at hsemantic
    exact Option.some.inj hsemantic

end Transactions

/-! ## Runs -/

/-- The action reconciles no parsed run that has a normalized record. -/
def ReconcilesNoRecord (lib : Externals) (s : Service) (a : ServiceAction) : Prop :=
  ∀ (env : Env) (ε α : Type) (x : Tx Db ε α) (runId : Uuid), s.Runs a env x →
    Reconciling lib runId x → (∃ ctx, DataExport.importContext runId s.db = some (.parsed, ctx)) →
    DataExport.normalizedRecords runId s.db = []

section Runs

variable {lib : Externals}

/-- A property of the evidence of every writer holds of the evidence of every run. -/
theorem evidence_run {P : RawRecord → Prop} (hpage : ∀ r, IsPage lib r → P r)
    (hresponse : ∀ r, IsResponse lib r → P r)
    (hobservation : ∀ (db : Db) runId r, (∀ x ∈ db.exportRecords, IsStaged lib x) →
      IsObservation (DataExport.normalizedRecords runId db) r → P r)
    (actions : List ServiceAction) :
    ∀ r ∈ (run (serviceStep lib) {} actions).db.rawRecords, P r := by
  have hnone : ∀ r, IsObservation [] r → P r := by
    rintro r ⟨⟨x, hx, -⟩, -⟩
    exact absurd hx (by simp)
  refine (service_invariant lib (fun _ _ => True) (fun db => (∀ x ∈ db.exportRecords, IsStaged lib x) ∧
    ∀ r ∈ db.rawRecords, P r) ?_ ?_ (guarded_of_forall _ fun _ _ => trivial)
    ⟨fun x hx => absurd hx (by simp), fun r hr => absurd hr (by simp)⟩).2
  · rintro env db call db' heffect ⟨hstaged, hdb⟩
    exact ⟨by rwa [heffect.records], heffect.evidence.all hpage hresponse hnone hdb⟩
  · rintro s a env ε α x v db' hsound - hruns hy ⟨hstaged, hdb⟩
    have heffect := (hsound.runs hruns).effect hy
    refine ⟨?_, ?_⟩
    · obtain ⟨rows, hrows, hnew⟩ := heffect.records
      intro row hrow
      change row ∈ db'.exportRecords.rows at hrow
      rw [hrows] at hrow
      rcases List.mem_append.mp hrow with hrow | hrow
      · exact hstaged row hrow
      · exact hnew row hrow
    · rcases heffect.evidence with h | ⟨runId, ctx, -, -, h⟩
      · exact h.all hpage hresponse hnone hdb
      · exact h.all hpage hresponse (fun r => hobservation s.db runId r hstaged) hdb

theorem hashed_run {actions : List ServiceAction}
    (hguard : Guarded (serviceStep lib) (ReconcilesNoRecord lib) {} actions) :
    ∀ r ∈ (run (serviceStep lib) {} actions).db.rawRecords, r.Hashed lib := by
  have hnone : ∀ r, IsObservation [] r → r.Hashed lib := by
    rintro r ⟨⟨x, hx, -⟩, -⟩
    exact absurd hx (by simp)
  refine service_invariant lib (ReconcilesNoRecord lib)
    (fun db => ∀ r ∈ db.rawRecords, r.Hashed lib) ?_ ?_ hguard fun r hr => absurd hr (by simp)
  · intro env db call db' heffect hdb
    exact heffect.evidence.all (fun _ hr => hr.hashed) (fun _ hr => hr.hashed) hnone hdb
  · intro s a env ε α x v db' hsound hfree hruns hy hdb
    rcases ((hsound.runs hruns).effect hy).evidence with h | ⟨runId, ctx, hx, hctx, h⟩
    · exact h.all (fun _ hr => hr.hashed) (fun _ hr => hr.hashed) hnone hdb
    · rw [hfree env ε α x runId hruns hx ⟨ctx, hctx⟩] at h
      exact h.all (fun _ hr => hr.hashed) (fun _ hr => hr.hashed) hnone hdb

/-- **Evidence is measured and never rewritten.** It is hashed in every run that reconciles no
normalized record; in any run it is hashed if no export brought it, and its digest is that of
another text if one did. -/
theorem raw_evidence_addressed (lib : Externals) (actions : List ServiceAction) :
    (∀ r ∈ (run (serviceStep lib) {} actions).db.rawRecords, r.Measured) ∧
      (∀ a, ∀ r ∈ (run (serviceStep lib) {} actions).db.rawRecords,
        ∀ r' ∈ (serviceStep lib (run (serviceStep lib) {} actions) a).db.rawRecords,
          r'.rawRecordId = r.rawRecordId → r' = r) ∧
      (Guarded (serviceStep lib) (ReconcilesNoRecord lib) {} actions →
        ∀ r ∈ (run (serviceStep lib) {} actions).db.rawRecords, r.Hashed lib) ∧
      ∀ r ∈ (run (serviceStep lib) {} actions).db.rawRecords, r.Named lib := by
  refine ⟨?_, fun a r hr r' hr' hid => ?_, hashed_run, ?_⟩
  · exact evidence_run (fun _ hr => hr.measured) (fun _ hr => hr.measured)
      (fun _ _ _ hstaged hr => hr.measured hstaged) actions
  · have hsound : (run (serviceStep lib) {} actions).Sound lib :=
      run_invariant (serviceStep lib) (fun _ _ => True) (fun s => s.Sound lib)
        (fun s a _ h => serviceStep_sound a h) (guarded_of_forall _ fun _ _ => trivial)
        fun job hjob => absurd hjob (by simp)
    obtain ⟨observations, h⟩ := serviceStep_evidence hsound a
    exact h.kept hr hr' hid
  · exact evidence_run (fun _ hr => hr.named) (fun _ hr => hr.named)
      (fun _ _ _ hstaged hr => hr.named hstaged) actions

end Runs

/-! ### Reconciled exports -/

/-- The archive file answers so; the provider refuses. -/
def fileAnswers (file : DataExport.FileAnswer) : Answers :=
  ⟨⟨refusedAuthorization, .error ⟨.authentication, some 401⟩⟩, file, .ok ()⟩

/-- An archive with these saved entries is received, inspected, parsed and reconciled. -/
def reconciledExport (entries : List Json) : List ServiceAction :=
  [.receive (quietEnv 0 100) 1 [7] 10, .begin (.importing (.pass 1))] ++ (List.range 8).map fun n =>
    .advance (quietEnv 0 (100 * (n + 2)))
      (fileAnswers (.ok (.ok (DataExport.savedArchive entries)))) 0

/-- A preserved capture, and then an export with an entry that is no saved post. -/
def preservedExport : List ServiceAction :=
  preservedRun.map .archive ++ reconciledExport [.null]

theorem raw_evidence_addressed_preservedExport :
    (run (serviceStep DataExport.padded) {} preservedExport).db.rawRecords.rows.length = 1 ∧
      (run (serviceStep DataExport.padded) {} preservedExport).db.importRuns.rows.map
        ImportRun.state = [.reconciled] ∧
      ∀ r ∈ (run (serviceStep DataExport.padded) {} preservedExport).db.rawRecords,
        r.Measured ∧ r.Hashed DataExport.padded := by
  obtain ⟨hmeasured, -, hhashed, -⟩ := raw_evidence_addressed DataExport.padded preservedExport
  have hstaged : Guarded (serviceStep DataExport.padded)
      (fun s _ => ∀ x ∈ s.db.exportRecords.rows, x.recordKind ≠ .normalized) {} preservedExport := by
    decide +kernel
  have hguard : Guarded (serviceStep DataExport.padded) (ReconcilesNoRecord DataExport.padded) {}
      preservedExport := by
    refine Guarded.mono _ (fun s a hnone => ?_) hstaged
    intro env ε α x runId _ _ _
    refine List.eq_nil_iff_forall_not_mem.mpr fun r hr => ?_
    obtain ⟨hmem, hkind⟩ := mem_normalizedRecords hr
    exact hnone r hmem hkind
  exact ⟨by decide +kernel, by decide +kernel, fun r hr => ⟨hmeasured r hr, hhashed hguard r hr⟩⟩

/-- The digest of the evidence of a saved post is not that of its body. -/
theorem reconciled_export_misnamed :
    ∃ r ∈ (run (serviceStep DataExport.padded) {}
        (reconciledExport [DataExport.savedEntry])).db.rawRecords.rows,
      r.contentHash ≠ DataExport.padded.sha256 r.body := by
  decide +kernel

end InstagramArchive

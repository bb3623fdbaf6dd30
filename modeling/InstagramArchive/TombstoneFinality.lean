import InstagramArchive.Facts

/-!
# How final a tombstone is

A tombstone moves the capture to `tombstoned` and appends the removal of its source. The
intake, a failed attempt and a reschedule leave such a capture alone. Three writers do
not look: a stored payload, an observed deletion of a linked capture, and a fallback
recording that read its status before the tombstone.
-/

namespace InstagramArchive

open Relational Relational.Tx Permalink

/-- The call neither stores a payload for the capture, nor records a deletion while it has
a media row, nor finishes a fallback recording that found it live. Deletions and facts of
other lanes are left out of the runs considered here. -/
def Call.SparesTombstone (lib : Externals) (captureId : Uuid) (db : Db) : Call → Prop
  | .delete _ | .mediaFact _ => False
  | .unavailable observer => observer.captureId = captureId → observer.status.live = false
  | call => ∀ permalink outcome resolvedAt, call.Applies captureId permalink outcome resolvedAt →
      (∀ body, outcome = .payload body → normalize lib body permalink.kind = none) ∧
        (outcome = .deleted → linkedMedia captureId db = none)

def Action.SparesTombstone (lib : Externals) (captureId : Uuid) (s : System) (a : Action) : Prop :=
  ∀ env call, s.call a = some (env, call) → call.SparesTombstone lib captureId s.db

/-- The runs of the capture lane: nothing is deleted and no other lane publishes. -/
def Action.CaptureLane : Action → Prop
  | .delete .. | .mediaFact .. => False
  | _ => True

/-- The capture is tombstoned and `sourceId` has the facts `facts`. -/
structure Tombstoned (lib : Externals) (captureId sourceId : Uuid)
    (facts : List SocialSourceSnapshot) (db : Db) : Prop where
  capture : ∃ c ∈ db.captures, c.captureId = captureId ∧ c.status = .tombstoned ∧
    sourceId = sourceIdentity lib c.userRef c.canonicalUrl
  facts : sourceFacts sourceId db = facts

section Steps

variable {lib : Externals} {env : Env} {db db' : Db} {call : Call} {captureId sourceId : Uuid}
  {facts : List SocialSourceSnapshot}

theorem Call.SparesTombstone.applies (h : call.SparesTombstone lib captureId db)
    {permalink : CanonicalPermalink} {outcome : SurfaceOutcome} {resolvedAt : Instant}
    (happ : call.Applies captureId permalink outcome resolvedAt) :
    (∀ body, outcome = .payload body → normalize lib body permalink.kind = none) ∧
      (outcome = .deleted → linkedMedia captureId db = none) := by
  cases call with
  | delete | mediaFact => exact h.elim
  | unavailable => exact happ.elim
  | _ => exact h permalink outcome resolvedAt happ

theorem Call.SparesTombstone.not_delete (h : call.SparesTombstone lib captureId db) :
    ∀ request, call ≠ .delete request := by
  rintro request rfl
  exact h

/-- The row of a tombstoned capture after a call that spares it. -/
theorem Evolution.tombstoned {c : Capture} (he : Evolution lib db call db')
    (h : call.SparesTombstone lib captureId db) (hc : c ∈ db.captures)
    (hid : c.captureId = captureId) (hst : c.status = .tombstoned) :
    ∃ c' ∈ db'.captures, c'.provenance = c.provenance ∧ c'.status = .tombstoned := by
  have hkept : ∀ m : Db, c ∈ m.captures → CapturesKept m db' →
      ∃ c' ∈ db'.captures, c'.provenance = c.provenance ∧ c'.status = .tombstoned := by
    intro m hm hk
    obtain ⟨f, hf, hrows⟩ := hk.captures
    refine ⟨f c, ?_, (hf c).provenance, (hf c).tombstoned hst⟩
    rw [Table.mem_rows, hrows]
    exact List.mem_map_of_mem hm
  cases he with
  | kept hk => exact hkept db hc hk
  | created request permalink method id createdAt mid hcall hp hnew hrows hmedia hk =>
    refine hkept mid ?_ hk
    rw [Table.mem_rows, hrows]
    exact List.mem_append_left _ hc
  | linked id permalink body normalized resolvedAt mediaId hcall hn hl =>
    -- a payload of this capture is not spared, so another one is linked
    have hne : id ≠ captureId := by
      rintro rfl
      rw [(h.applies hcall).1 body rfl] at hn
      cases hn
    refine ⟨c, ?_, rfl, hst⟩
    rw [Table.mem_rows, hl.captures]
    have hmem := Table.mem_update_of_mem db.captures
      (fun c => c.captureId = id && c.status ≠ .failed)
      (fun c => { c with status := .resolved, mediaId := some mediaId }) (fun _ => rfl) hc
    rwa [if_neg (by simp [hid, hne.symm])] at hmem
  | overwritten observer hlive hcaptures hmedia =>
    have hne : observer.captureId ≠ captureId := by
      intro heq
      rw [h heq] at hlive
      cases hlive
    refine ⟨c, ?_, rfl, hst⟩
    rw [Table.mem_rows, hcaptures]
    have hmem := Table.mem_update_of_mem db.captures
      (fun c => c.captureId = observer.captureId && true)
      (fun c => { c with status := .unavailable }) (fun _ => rfl) hc
    rwa [if_neg (by simp [hid, hne.symm])] at hmem

/-- A fact of one capture is no fact of another's source. -/
theorem SnapshotOf.source_ne (hfree : lib.CollisionFree) (hs : CapturesSound db) {c c' x : Capture}
    {permalink : CanonicalPermalink} {m : Media} {snapshot : SocialSourceSnapshot}
    (h : SnapshotOf lib x permalink m snapshot) (hc : c ∈ db.captures) (hc' : c' ∈ db.captures)
    (hx : x.provenance = c'.provenance) (hne : c'.captureId ≠ c.captureId) :
    snapshot.socialSourceId ≠ sourceIdentity lib c.userRef c.canonicalUrl := by
  intro heq
  have hcanonical := h.canonical
  rw [Provenance.url_eq hx] at hcanonical
  obtain ⟨p, hp, hurl⟩ := hs.canonical c' hc'
  rw [hp] at hcanonical
  cases hcanonical
  rw [h.socialSourceId] at heq
  have hmaterial := hfree heq
  simp only [IdentityMaterial.captured.injEq] at hmaterial
  have howner : c'.userRef = c.userRef := (Provenance.owner_eq hx).symm.trans hmaterial.1
  have hurls : c'.canonicalUrl = c.canonicalUrl := hurl.symm.trans hmaterial.2
  have hcc : c' = c := List.inj_on_of_nodup_map hs.identities hc' hc (by rw [howner, hurls])
  exact hne (by rw [hcc])

/-- The facts of a tombstoned source after a call that spares it. -/
theorem LogChange.sourceFacts_eq {c : Capture} (hl : LogChange lib db call db')
    (hfree : lib.CollisionFree) (hs : CapturesSound db)
    (h : call.SparesTombstone lib captureId db) (hc : c ∈ db.captures)
    (hid : c.captureId = captureId) :
    sourceFacts (sourceIdentity lib c.userRef c.canonicalUrl) db' =
      sourceFacts (sourceIdentity lib c.userRef c.canonicalUrl) db := by
  -- the fact of another capture carries another identity
  have hother : ∀ (mid : Db) (kind : FactKind) (id eventId : Uuid) (snapshot : SocialSourceSnapshot)
      (occurredAt : Instant), id ≠ captureId →
      (∀ x ∈ mid.captures, ∃ y ∈ db.captures, x.provenance = y.provenance) →
      snapshotAt lib mid id kind = some snapshot →
      outboxLog db' = outboxLog db ++ [factRow kind id snapshot eventId occurredAt] →
      sourceFacts (sourceIdentity lib c.userRef c.canonicalUrl) db' =
        sourceFacts (sourceIdentity lib c.userRef c.canonicalUrl) db := by
    intro mid kind id eventId snapshot occurredAt hne hprov hsnapshot hlog
    obtain ⟨x, permalink, m, mediaId, hx, -, -, hof⟩ := snapshotAt_eq_some hsnapshot
    obtain ⟨hxmem, hxid⟩ := Table.lookup_eq_some.mp hx
    obtain ⟨y, hy, hxy⟩ := hprov x hxmem
    have hyid : y.captureId ≠ c.captureId := by
      rw [← Provenance.id_eq hxy, hid]
      exact fun he => hne (hxid.symm.trans he)
    have hsource := hof.source_ne hfree hs hc hy hxy hyid
    have hpayload : (factRow kind id snapshot eventId occurredAt).payload.payload.snapshot? =
        some snapshot := kind.snapshot?_payload snapshot
    rw [sourceFacts_append hlog]
    simp [hpayload, hsource]
  cases hl with
  | silent new hlog hnew => exact sourceFacts_silent hlog hnew
  | mediaFact eventId hlog => exact h.elim
  | stored id permalink body normalized resolvedAt stored mid snapshot eventId occurredAt hcall hn
      howes hstores hsnapshot hlog =>
    refine hother mid _ id eventId snapshot occurredAt ?_ hstores.origin hsnapshot hlog
    rintro rfl
    rw [(h.applies hcall).1 body rfl] at hn
    cases hn
  | deleted id permalink resolvedAt mediaId mid snapshot eventId occurredAt hcall hlinked hcaptures
      hmedia hsnapshot hlog =>
    refine hother mid _ id eventId snapshot occurredAt ?_ (origin_of_setStatus hcaptures)
      hsnapshot hlog
    rintro rfl
    rw [(h.applies hcall).2 rfl] at hlinked
    cases hlinked

theorem Tombstoned.effect (ht : Tombstoned lib captureId sourceId facts db)
    (he : Effect lib env db call db') (hfree : lib.CollisionFree) (hs : CapturesSound db)
    (h : call.SparesTombstone lib captureId db) : Tombstoned lib captureId sourceId facts db' := by
  obtain ⟨c, hc, hid, hst, rfl⟩ := ht.capture
  obtain ⟨c', hc', hprov, hst'⟩ := (he.evolution h.not_delete).tombstoned h hc hid hst
  refine ⟨⟨c', hc', ?_, hst', ?_⟩, ?_⟩
  · exact (Provenance.id_eq hprov).trans hid
  · rw [Provenance.owner_eq hprov, Provenance.url_eq hprov]
  · rw [(he.logChange h.not_delete).sourceFacts_eq hfree hs h hc hid]
    exact ht.facts

end Steps

/-! ## Whole runs -/

section Runs

variable {lib : Externals} {s : System} {a : Action}

theorem Action.CaptureLane.keeps (h : a.CaptureLane) : a.Keeps := by
  cases a <;> trivial

theorem Action.SparesTombstone.keeps {captureId : Uuid} (h : a.SparesTombstone lib captureId s) :
    a.Keeps := by
  cases a with
  | delete env request => exact h env _ rfl
  | _ => trivial

/-- What a new tombstone leaves. -/
theorem tombstone_step {env : Env} {captureId : Uuid} {reason : RemovalReason} {removedAt : Instant}
    {db : Db} (h : ((tombstoneCapture lib captureId reason removedAt).exec env db).1 =
      .ok .tombstoned) :
    ∃ c ∈ db.captures, ∃ permalink eventId,
      c.captureId = captureId ∧
      outboxLog ((Call.tombstone captureId reason removedAt).perform lib env db) =
        outboxLog db ++ [tombstoneFact lib c permalink reason removedAt eventId] ∧
      Tombstoned lib captureId (sourceIdentity lib c.userRef c.canonicalUrl)
        (sourceFacts (sourceIdentity lib c.userRef c.canonicalUrl) db)
        ((Call.tombstone captureId reason removedAt).perform lib env db) := by
  simp only [Call.perform]
  rcases exec_cases (tombstoneCapture lib captureId reason removedAt) env db with
    ⟨out, db', he, hy⟩ | ⟨e, he⟩
  · rw [he] at h ⊢
    cases h
    obtain ⟨c, hc, ⟨hout, -⟩ | ⟨-, permalink, eventId, deletions, removals, m, -, -, happ, rfl⟩⟩ :=
      tombstoneCapture_yields hy
    · cases hout
    obtain ⟨hmem, hid⟩ := Table.lookup_eq_some.mp hc
    have hlog := happ.outboxLog rfl
    have hcaptures : m.captures = db.captures := by rw [happ.eq]
    refine ⟨c, hmem, permalink, eventId, hid, hlog,
      ⟨{ c with status := .tombstoned }, ?_, hid, rfl, rfl⟩, ?_⟩
    · have hmoved := Table.mem_update_of_mem db.captures
        (fun c => c.captureId = captureId && true) (fun c => { c with status := .tombstoned })
        (fun _ => rfl) hmem
      rw [if_pos (by simp [hid])] at hmoved
      rw [← hcaptures] at hmoved
      exact hmoved
    · refine sourceFacts_silent hlog ?_
      intro e he
      rw [List.mem_singleton.mp he]
      exact removalRow_silent ..
  · rw [he] at h
    cases h

/-- **A tombstone is final for the calls that spare it.** Once a tombstone of a reachable
state returned `Tombstoned`, its transaction appended the removal of the source, and in
every later state of a run whose calls spare it the capture is tombstoned and its source
has no further captured or updated fact. -/
theorem tombstone_final (lib : Externals) (hfree : lib.CollisionFree) (before after : List Action)
    (hb : ∀ a ∈ before, a.CaptureLane) (env : Env) (captureId : Uuid) (reason : RemovalReason)
    (removedAt : Instant)
    (ht : ((tombstoneCapture lib captureId reason removedAt).exec env
      (run (step lib) {} before).db).1 = .ok .tombstoned)
    (ha : Guarded (step lib) (fun s a => a.SparesTombstone lib captureId s)
      (step lib (run (step lib) {} before) (.tombstone env captureId reason removedAt)) after) :
    let s := run (step lib) {} before
    let removed := step lib s (.tombstone env captureId reason removedAt)
    let later := run (step lib) removed after
    ∃ c ∈ s.db.captures, ∃ permalink eventId,
      c.captureId = captureId ∧
      outboxLog removed.db =
        outboxLog s.db ++ [tombstoneFact lib c permalink reason removedAt eventId] ∧
      (∃ c' ∈ later.db.captures, c'.captureId = captureId ∧ c'.status = .tombstoned) ∧
      sourceFacts (sourceIdentity lib c.userRef c.canonicalUrl) later.db =
        sourceFacts (sourceIdentity lib c.userRef c.canonicalUrl) s.db := by
  intro s removed later
  have hs : s.Sound := sound_run fun a h => (hb a h).keeps
  obtain ⟨c, hc, permalink, eventId, hid, hlog, htomb⟩ := tombstone_step ht
  have hremoved : removed.Sound := hs.step trivial
  have hlater : later.Sound ∧ Tombstoned lib captureId (sourceIdentity lib c.userRef c.canonicalUrl)
      (sourceFacts (sourceIdentity lib c.userRef c.canonicalUrl) s.db) later.db := by
    refine run_invariant (step lib) _ (fun t => t.Sound ∧ Tombstoned lib captureId
      (sourceIdentity lib c.userRef c.canonicalUrl)
      (sourceFacts (sourceIdentity lib c.userRef c.canonicalUrl) s.db) t.db) ?_ ha ⟨hremoved, htomb⟩
    rintro t a hspares ⟨hsound, htombstoned⟩
    refine ⟨hsound.step hspares.keeps, ?_⟩
    rcases step_effect lib t a with ⟨-, he⟩ | ⟨env', call, hcall, he⟩
    · rw [he]
      exact htombstoned
    · exact htombstoned.effect he hfree hsound.captures (hspares env' call hcall)
  obtain ⟨c', hc', hid', hst, -⟩ := hlater.2.capture
  exact ⟨c, hc, permalink, eventId, hid, hlog, ⟨c', hc', hid', hst⟩, hlater.2.facts⟩

/-- A resolver pass leases the capture of a command. -/
def leasedRun : List Action :=
  [.command (quietEnv 10 100) (browserDelivery 1 2 7 "http://instagr.am/p/A"),
    .claim (quietEnv 20 200) 20 ⟨3, 10⟩ []]

/-- The identifier of the capture of `leasedRun`. -/
def leasedCapture : Uuid := 101

/-- The leased capture is tombstoned. -/
def leasedThenRemoved : System :=
  step reference (run (step reference) {} leasedRun)
    (.tombstone (quietEnv 30 300) leasedCapture .userRequested 30)

theorem leasedThenRemoved_tombstoned :
    ((tombstoneCapture reference leasedCapture .userRequested 30).exec (quietEnv 30 300)
      (run (step reference) {} leasedRun).db).1 = .ok .tombstoned := by
  decide +kernel

theorem resolve_priv_spares (lib : Externals) (env : Env) (i : Nat) (captureId : Uuid) (s : System) :
    (Action.resolve env i .priv).SparesTombstone lib captureId s := by
  intro env' call hcall
  obtain ⟨w, -, hcall⟩ := Option.bind_eq_some_iff.mp hcall
  obtain ⟨lease, -, hcall⟩ := Option.map_eq_some_iff.mp hcall
  cases hcall
  rintro permalink outcome resolvedAt ⟨-, -, rfl, -⟩
  exact ⟨nofun, nofun⟩

theorem tombstone_final_leasedRun :
    ∃ c ∈ (run (step reference) leasedThenRemoved
        [.resolve (quietEnv 40 400) 0 .priv]).db.captures,
      c.captureId = leasedCapture ∧ c.status = .tombstoned := by
  have hlane : ∀ a ∈ leasedRun, a.CaptureLane := by simp [leasedRun, Action.CaptureLane]
  obtain ⟨_, -, _, _, -, -, h, -⟩ := tombstone_final reference reference_collisionFree leasedRun
    [.resolve (quietEnv 40 400) 0 .priv] hlane (quietEnv 30 300) leasedCapture .userRequested 30
    leasedThenRemoved_tombstoned ⟨resolve_priv_spares reference _ _ _ _, trivial⟩
  unfold leasedThenRemoved
  exact h

/-- The lease is applied after the tombstone: the fetched payload is stored. -/
def leasedThenRevived : System :=
  step reference leasedThenRemoved (.resolve (quietEnv 40 400) 0 (titledPayload "Kept"))

/-- The source of the leased capture. -/
def leasedSource : Uuid := sourceIdentity reference 1 "https://www.instagram.com/p/A/"

theorem leasedThenRevived_not_final :
    ((tombstoneCapture reference leasedCapture .userRequested 30).exec (quietEnv 30 300)
        (run (step reference) {} leasedRun).db).1 = .ok .tombstoned ∧
      leasedThenRevived.db.captures.rows.map (fun c => (c.captureId, c.status)) =
        [(leasedCapture, .resolved)] ∧
      (sourceFacts leasedSource leasedThenRemoved.db).length = 0 ∧
      (sourceFacts leasedSource leasedThenRevived.db).length = 1 := by
  refine ⟨leasedThenRemoved_tombstoned, ?_, ?_, ?_⟩
  · decide +kernel
  · decide +kernel
  · decide +kernel

end Runs

end InstagramArchive

import InstagramArchive.RemovalDelivery

/-!
# The order of deliveries

One relay at a time selects untried rows by `occurred_at` and works through them in that
order, so when a row is delivered every older row that sorts before it has been tried. A
row whose delivery failed waits out its back-off and is passed by: that, and a removal
time before the append time of the fact, are the ways a removal gets ahead of a fact of
its source.
-/

namespace InstagramArchive

open Relational Relational.Tx

/-! ## One pass at a time -/

/-- The archive and how many of its passes have ended. -/
structure Sequenced where
  system : System := {}
  ended : Nat := 0

/-- A new pass ends all passes before it. -/
def Sequenced.step (lib : Externals) (q : Sequenced) (a : Action) : Sequenced where
  system := InstagramArchive.step lib q.system a
  ended := match a with
    | .beginPass .. => q.system.passes.length
    | _ => q.ended

/-- Only the newest pass goes on, and nothing is deleted. -/
def Sequenced.Admits (q : Sequenced) : Action → Prop
  | .deliver i _ | .book _ i | .resendDue _ i => q.ended ≤ i
  | .delete .. => False
  | _ => True

instance (q : Sequenced) (a : Action) : Decidable (q.Admits a) :=
  match a with
  | .deliver i _ | .book _ i | .resendDue _ i => inferInstanceAs (Decidable (q.ended ≤ i))
  | .delete .. => instDecidableFalse
  | .submit .. | .command .. | .analysis .. | .claim .. | .resolve .. | .report .. | .beginFetch ..
  | .applyFetch .. | .beginUnavailable .. | .finishUnavailable .. | .tombstone .. | .mediaFact ..
  | .beginPass .. | .acknowledge .. => instDecidableTrue

/-- The relay passes of the run come one after the other. -/
def Sequential (lib : Externals) (actions : List Action) : Prop :=
  Guarded (Sequenced.step lib) Sequenced.Admits {} actions

instance (lib : Externals) (actions : List Action) : Decidable (Sequential lib actions) :=
  inferInstanceAs (Decidable (Guarded _ _ _ _))

theorem Sequenced.run_system (lib : Externals) (q : Sequenced) (actions : List Action) :
    (run (Sequenced.step lib) q actions).system = run (InstagramArchive.step lib) q.system actions := by
  induction actions generalizing q with
  | nil => rfl
  | cons a rest ih => exact ih (q.step lib a)

/-! ## Rows and their order -/

/-- A failed delivery of the row is still to be tried again. -/
def OutboxEvent.waiting (e : OutboxEvent) : Bool :=
  e.publishedAt.isNone && e.undeliverableAt.isNone && e.nextAttemptAt.isSome

/-- No pass selects the row for a first delivery any more. -/
def OutboxEvent.closed (e : OutboxEvent) : Bool := e.publishedAt.isSome || e.undeliverableAt.isSome

theorem OutboxEvent.closed_of_tried {e : OutboxEvent} (hu : e.untried = false)
    (hw : e.waiting = false) : e.closed = true := by
  unfold OutboxEvent.untried at hu
  unfold OutboxEvent.waiting at hw
  unfold OutboxEvent.closed
  cases hp : e.publishedAt <;> cases hd : e.undeliverableAt <;> cases hn : e.nextAttemptAt <;>
    simp_all

/-- The row is in the outbox, and every older row that sorts before it has been tried. -/
structure Preceded (db : Db) (eventId : Uuid) : Prop where
  exists_row : ∃ e ∈ db.outboxEvents, e.eventId = eventId
  tried : ∀ f r, [f, r].Sublist db.outboxEvents.rows → r.eventId = eventId →
    publishBefore f r = true → f.untried = false

/-- The outbox of `db'` is the one of `db` with its rows rewritten by `g` and new rows behind. -/
structure Rewrites (g : OutboxEvent → OutboxEvent) (db db' : Db) : Prop where
  rows : ∃ new, db'.outboxEvents.rows = db.outboxEvents.rows.map g ++ new ∧
    ∀ e ∈ new, e.asAppended = e
  asAppended : ∀ e, (g e).asAppended = e.asAppended

section Rows

variable {g : OutboxEvent → OutboxEvent} {db db' : Db} {e f r : OutboxEvent} {id : Uuid}

theorem OutboxEvent.eventId_eq_of_asAppended {e e' : OutboxEvent}
    (h : e'.asAppended = e.asAppended) : e'.eventId = e.eventId :=
  congrArg (fun e => e.eventId) h

theorem OutboxEvent.eventType_eq_of_asAppended {e e' : OutboxEvent}
    (h : e'.asAppended = e.asAppended) : e'.eventType = e.eventType :=
  congrArg (fun e => e.eventType) h

theorem publishBefore_congr {f' r' : OutboxEvent} (hf : f'.asAppended = f.asAppended)
    (hr : r'.asAppended = r.asAppended) : publishBefore f' r' = publishBefore f r := by
  have hof : f'.occurredAt = f.occurredAt := congrArg (fun e => e.occurredAt) hf
  have hor : r'.occurredAt = r.occurredAt := congrArg (fun e => e.occurredAt) hr
  unfold publishBefore
  rw [hof, hor, OutboxEvent.eventId_eq_of_asAppended hf, OutboxEvent.eventId_eq_of_asAppended hr]

theorem Rewrites.mem (h : Rewrites g db db') (he : e ∈ db.outboxEvents) :
    g e ∈ db'.outboxEvents := by
  obtain ⟨new, hrows, -⟩ := h.rows
  rw [Table.mem_rows, hrows]
  exact List.mem_append.mpr (Or.inl (List.mem_map_of_mem he))

theorem Rewrites.origin (h : Rewrites g db db') (he : e ∈ db'.outboxEvents) :
    (∃ e₀ ∈ db.outboxEvents, e = g e₀) ∨ e.asAppended = e := by
  obtain ⟨new, hrows, hnew⟩ := h.rows
  rw [Table.mem_rows, hrows] at he
  rcases List.mem_append.mp he with hold | he
  · obtain ⟨e₀, he₀, rfl⟩ := List.mem_map.mp hold
    exact Or.inl ⟨e₀, he₀, rfl⟩
  · exact Or.inr (hnew e he)

theorem Rewrites.exists_row (h : Rewrites g db db') (he : ∃ e ∈ db.outboxEvents, e.eventId = id) :
    ∃ e ∈ db'.outboxEvents, e.eventId = id := by
  obtain ⟨e, he, rfl⟩ := he
  exact ⟨g e, h.mem he, OutboxEvent.eventId_eq_of_asAppended (h.asAppended e)⟩

/-- A row of `db'` whose id was taken in `db` is the rewritten row. -/
theorem Rewrites.eq_of_eventId (h : Rewrites g db db') (he : e ∈ db.outboxEvents)
    (hr : r ∈ db'.outboxEvents) (hid : e.eventId = r.eventId) : r = g e :=
  Table.eq_of_key_eq hr (h.mem he)
    (hid.symm.trans (OutboxEvent.eventId_eq_of_asAppended (h.asAppended e)).symm)

/-- Two rows in append order, the second of them an old one, are two rewritten rows in append
order. -/
theorem Rewrites.sublist (h : Rewrites g db db')
    (hfr : [f, r].Sublist db'.outboxEvents.rows)
    (hr : ∃ e ∈ db.outboxEvents, e.eventId = r.eventId) :
    ∃ f₀ r₀, [f₀, r₀].Sublist db.outboxEvents.rows ∧ f = g f₀ ∧ r = g r₀ := by
  obtain ⟨new, hrows, -⟩ := h.rows
  obtain ⟨e, he, hid⟩ := hr
  have hr : r ∈ db'.outboxEvents := hfr.subset (by simp)
  have hold : r ∈ db.outboxEvents.rows.map g := by
    rw [h.eq_of_eventId he hr hid]
    exact List.mem_map_of_mem he
  -- the id of `r` is taken by an old row, so `r` is none of the new ones
  have hnew : r ∉ new := by
    intro hmem
    have hnodup := db'.outboxEvents.nodup
    rw [hrows, List.map_append] at hnodup
    exact (List.nodup_append.mp hnodup).2.2 _ (List.mem_map_of_mem hold) _
      (List.mem_map_of_mem hmem) rfl
  rw [hrows] at hfr
  have hfront : [f, r].Sublist (db.outboxEvents.rows.map g) :=
    concat_sublist_of_not_mem (l := [f]) hfr hnew
  obtain ⟨old, hsub, hmap⟩ := List.sublist_map_iff.mp hfront
  obtain ⟨f₀, rest, rfl, rfl, hrest⟩ := List.map_eq_cons_iff.mp hmap.symm
  obtain ⟨r₀, tail, rfl, rfl, htail⟩ := List.map_eq_cons_iff.mp hrest
  rw [List.map_eq_nil_iff.mp htail] at hsub
  exact ⟨f₀, r₀, hsub, rfl, rfl⟩

theorem Preceded.rewrite (h : Preceded db id) (hg : Rewrites g db db')
    (hmono : ∀ e, (g e).untried = true → e.untried = true) : Preceded db' id where
  exists_row := hg.exists_row h.exists_row
  tried := by
    intro f r hfr hid hbefore
    obtain ⟨f₀, r₀, hsub, rfl, rfl⟩ := hg.sublist hfr (hid ▸ h.exists_row)
    rw [publishBefore_congr (hg.asAppended f₀) (hg.asAppended r₀)] at hbefore
    have hr₀ : r₀.eventId = id := by
      rw [← hid, OutboxEvent.eventId_eq_of_asAppended (hg.asAppended r₀)]
    have htried := h.tried f₀ r₀ hsub hr₀ hbefore
    cases hu : (g f₀).untried with
    | false => rfl
    | true => rw [hmono f₀ hu] at htried; cases htried

end Rows

/-! ## Selections -/

section Selections

variable {now : Instant} {batch : Nat} {db : Db} {a b c : OutboxEvent}

theorem publishBefore_iff : publishBefore a b = true ↔
    a.occurredAt < b.occurredAt ∨ a.occurredAt = b.occurredAt ∧ a.eventId ≤ b.eventId := by
  simp [publishBefore]

instance : Std.Total fun a b : OutboxEvent => publishBefore a b = true where
  total a b := by
    simp only [publishBefore_iff]
    grind

instance : IsTrans OutboxEvent fun a b => publishBefore a b = true where
  trans a b c := by
    simp only [publishBefore_iff]
    grind

theorem eventId_eq_of_publishBefore (h : publishBefore a b = true) (h' : publishBefore b a = true) :
    a.eventId = b.eventId := by
  rw [publishBefore_iff] at h h'
  grind

/-- The publishable rows in the order a pass delivers them. -/
def publishQueue (now : Instant) (db : Db) : List OutboxEvent :=
  (db.outboxEvents.rows.filter (OutboxEvent.publishable now)).insertionSort
    fun a b => publishBefore a b

theorem selectPublishable_eq_take (now : Instant) (batch : Nat) (db : Db) :
    selectPublishable now batch db = (publishQueue now db).take (batchLimit batch) := rfl

theorem mem_publishQueue :
    a ∈ publishQueue now db ↔ a ∈ db.outboxEvents ∧ a.publishable now = true := by
  unfold publishQueue
  rw [List.mem_insertionSort, List.mem_filter, Table.mem_rows]

theorem mem_of_mem_selectPublishable (h : a ∈ selectPublishable now batch db) :
    a ∈ db.outboxEvents ∧ a.publishable now = true :=
  mem_publishQueue.mp (List.mem_of_mem_take h)

theorem publishQueue_nodup : ((publishQueue now db).map OutboxEvent.eventId).Nodup := by
  have hperm := List.perm_insertionSort (fun a b => publishBefore a b = true)
    (db.outboxEvents.rows.filter (OutboxEvent.publishable now))
  have hfilter : ((db.outboxEvents.rows.filter (OutboxEvent.publishable now)).map
      OutboxEvent.eventId).Nodup := db.outboxEvents.nodup.sublist (List.filter_sublist.map _)
  exact (hperm.map OutboxEvent.eventId).nodup_iff.mpr hfilter

/-- **A selection passes nothing by.** What a pass could publish and sorts before a selected row
is selected before it. -/
theorem selectPublishable_inOrder {done rest : List OutboxEvent}
    (h : selectPublishable now batch db = done ++ b :: rest) (ha : a ∈ db.outboxEvents)
    (hp : a.publishable now = true) (hab : publishBefore a b = true) (hne : a.eventId ≠ b.eventId) :
    a ∈ done := by
  have hqueue : publishQueue now db =
      done ++ b :: (rest ++ (publishQueue now db).drop (batchLimit batch)) := by
    rw [← List.cons_append, ← List.append_assoc, ← h, selectPublishable_eq_take,
      List.take_append_drop]
  have hsorted : (publishQueue now db).Pairwise fun a b => publishBefore a b = true :=
    List.pairwise_insertionSort (fun a b => publishBefore a b = true) _
  have hmem : a ∈ publishQueue now db := mem_publishQueue.mpr ⟨ha, hp⟩
  rw [hqueue] at hsorted hmem
  rcases List.mem_append.mp hmem with hdone | htail
  · exact hdone
  · have hba : publishBefore b a = true := by
      rcases List.mem_cons.mp htail with rfl | htail
      · exact hab
      · exact (List.pairwise_cons.mp (List.pairwise_append.mp hsorted).2.1).1 a htail
    exact (hne (eventId_eq_of_publishBefore hab hba)).elim

theorem mem_of_mem_selectResendable (h : a ∈ selectResendable now batch db) :
    a ∈ db.outboxEvents ∧ a.resendable now = true := by
  have hsort := List.mem_of_mem_take h
  rwa [List.mem_insertionSort, List.mem_filter] at hsort

end Selections

/-! ## Passes in order -/

/-- The first deliveries a pass has not booked yet. -/
def RelayPhase.fresh : RelayPhase → List Selected
  | .publishing rest _ => rest
  | .booking row _ rest _ => row :: rest
  | .resending _ | .rebooking .. => []

/-- The republishes a pass has not booked yet. -/
def RelayPhase.resends : RelayPhase → List Selected
  | .resending rest => rest
  | .rebooking row _ rest => row :: rest
  | .publishing .. | .booking .. => []

/-- The pass holds open rows in their order: what sorts before one of them, is older and was not
tried yet comes before it. -/
structure RelayPass.Orderly (pass : RelayPass) (db : Db) : Prop where
  nodup : (pass.phase.fresh.map Selected.eventId).Nodup
  isOpen : ∀ x ∈ pass.phase.fresh, ∃ e ∈ db.outboxEvents,
    e.eventId = x.eventId ∧ e.publishedAt = none ∧ e.undeliverableAt = none
  inOrder : ∀ done x rest, pass.phase.fresh = done ++ x :: rest →
    ∀ f r, [f, r].Sublist db.outboxEvents.rows → r.eventId = x.eventId →
      publishBefore f r = true → f.untried = true → f.eventId ∈ done.map Selected.eventId
  removals : ∀ x ∈ pass.phase.resends, ∃ e ∈ db.outboxEvents,
    e.eventId = x.eventId ∧ e.eventType = .sourceRemoved ∧ e.publishedAt.isSome

section Passes

variable {env : Env} {g : OutboxEvent → OutboxEvent} {db db' : Db} {pass pass' : RelayPass}

theorem RelayPass.Orderly.head (h : pass.Orderly db) {x : Selected} {rest : List Selected}
    (hx : pass.phase.fresh = x :: rest) : Preceded db x.eventId where
  exists_row := by
    obtain ⟨e, he, hid, -⟩ := h.isOpen x (by simp [hx])
    exact ⟨e, he, hid⟩
  tried := by
    intro f r hfr hid hbefore
    cases hu : f.untried with
    | false => rfl
    | true =>
      have hnone := h.inOrder [] x rest hx f r hfr hid hbefore hu
      exact (List.not_mem_nil hnone).elim

theorem RelayPass.Orderly.rewrite (h : pass.Orderly db) (hg : Rewrites g db db')
    (hpublished : ∀ e, (g e).publishedAt = e.publishedAt)
    (hundeliverable : ∀ e, (g e).undeliverableAt = e.undeliverableAt)
    (hmono : ∀ e, (g e).untried = true → e.untried = true) : pass.Orderly db' where
  nodup := h.nodup
  isOpen := by
    intro x hx
    obtain ⟨e, he, hid, hp, hu⟩ := h.isOpen x hx
    refine ⟨g e, hg.mem he, ?_, ?_, ?_⟩
    · rw [OutboxEvent.eventId_eq_of_asAppended (hg.asAppended e), hid]
    · rw [hpublished, hp]
    · rw [hundeliverable, hu]
  inOrder := by
    intro done x rest hfresh f r hfr hid hbefore hu
    have hrow : ∃ e ∈ db.outboxEvents, e.eventId = r.eventId := by
      obtain ⟨e, he, hex, -⟩ := h.isOpen x (by simp [hfresh])
      exact ⟨e, he, hex.trans hid.symm⟩
    obtain ⟨f₀, r₀, hsub, rfl, rfl⟩ := hg.sublist hfr hrow
    rw [publishBefore_congr (hg.asAppended f₀) (hg.asAppended r₀)] at hbefore
    rw [OutboxEvent.eventId_eq_of_asAppended (hg.asAppended r₀)] at hid
    rw [OutboxEvent.eventId_eq_of_asAppended (hg.asAppended f₀)]
    exact h.inOrder done x rest hfresh f₀ r₀ hsub hid hbefore (hmono f₀ hu)
  removals := by
    intro x hx
    obtain ⟨e, he, hid, ht, hp⟩ := h.removals x hx
    refine ⟨g e, hg.mem he, ?_, ?_, ?_⟩
    · rw [OutboxEvent.eventId_eq_of_asAppended (hg.asAppended e), hid]
    · rw [OutboxEvent.eventType_eq_of_asAppended (hg.asAppended e), ht]
    · rw [hpublished]
      exact hp

/-- **A new pass is orderly.** -/
theorem RelayPass.orderly_beginPass {batch : Nat} {resend : ResendPolicy}
    (h : (beginPass batch resend).Yields env db pass db') : pass.Orderly db := by
  obtain ⟨now, _, h1, h⟩ := h.bind
  obtain ⟨rfl, rfl⟩ := h1.now
  obtain ⟨rows, _, h2, h⟩ := h.bind
  obtain ⟨hrows, rfl⟩ := h2.query
  obtain ⟨rfl, -⟩ := yields_pure.mp h
  constructor
  · have hids : (rows.map OutboxEvent.selected).map Selected.eventId =
        rows.map OutboxEvent.eventId := by
      rw [List.map_map]
      rfl
    change ((rows.map OutboxEvent.selected).map Selected.eventId).Nodup
    rw [hids, hrows, selectPublishable_eq_take]
    exact publishQueue_nodup.sublist ((List.take_sublist _ _).map _)
  · intro x hx
    obtain ⟨e, he, rfl⟩ := List.mem_map.mp hx
    rw [hrows] at he
    obtain ⟨hmem, hp⟩ := mem_of_mem_selectPublishable he
    simp only [OutboxEvent.publishable, Bool.and_eq_true, Option.isNone_iff_eq_none] at hp
    exact ⟨e, hmem, rfl, hp.1.1, hp.1.2⟩
  · intro done x rest hfresh f r hfr hid hbefore hu
    obtain ⟨front, back, hsplit, hfront, hback⟩ := List.map_eq_append_iff.mp hfresh
    obtain ⟨e, tail, rfl, rfl, -⟩ := List.map_eq_cons_iff.mp hback
    have hr : r ∈ db.outboxEvents := hfr.subset (by simp)
    have hf : f ∈ db.outboxEvents := hfr.subset (by simp)
    have he : e ∈ db.outboxEvents := by
      have hsel : e ∈ rows := by simp [hsplit]
      rw [hrows] at hsel
      exact (mem_of_mem_selectPublishable hsel).1
    obtain rfl : r = e := Table.eq_of_key_eq hr he hid
    have hne : f.eventId ≠ r.eventId := by
      have hnodup := db.outboxEvents.nodup.sublist (hfr.map OutboxEvent.eventId)
      simpa using hnodup
    have hpublishable : f.publishable env.now = true := by
      simp only [OutboxEvent.untried, Bool.and_eq_true, Option.isNone_iff_eq_none] at hu
      simp [OutboxEvent.publishable, hu.1.1, hu.1.2, hu.2]
    have hdone := selectPublishable_inOrder (hrows.symm.trans hsplit) hf hpublishable hbefore hne
    rw [← hfront, List.map_map]
    exact List.mem_map_of_mem (f := Selected.eventId ∘ OutboxEvent.selected) hdone
  · intro x hx
    exact (List.not_mem_nil hx).elim

/-- A pass that goes on to its republishes. -/
theorem RelayPass.Orderly.resendDue (h : pass.Orderly db)
    (hy : pass.resendDue.Yields env db pass' db') : pass'.Orderly db := by
  unfold RelayPass.resendDue at hy
  split at hy
  · obtain ⟨now, _, h1, hy⟩ := hy.bind
    obtain ⟨rfl, rfl⟩ := h1.now
    obtain ⟨rows, _, h2, hy⟩ := hy.bind
    obtain ⟨hrows, rfl⟩ := h2.query
    obtain ⟨rfl, -⟩ := yields_pure.mp hy
    refine ⟨List.nodup_nil, fun x hx => (List.not_mem_nil hx).elim, ?_, ?_⟩
    · intro done x rest hfresh
      simp [RelayPhase.fresh] at hfresh
    · intro x hx
      obtain ⟨e, he, rfl⟩ := List.mem_map.mp hx
      rw [hrows] at he
      obtain ⟨hmem, hr⟩ := mem_of_mem_selectResendable he
      simp only [OutboxEvent.resendable, OutboxEvent.awaitsAck, Bool.and_eq_true,
        decide_eq_true_eq] at hr
      exact ⟨e, hmem, rfl, hr.1.1.1.1, hr.1.1.1.2⟩
  · obtain ⟨rfl, -⟩ := yields_pure.mp hy
    exact h

theorem RelayPass.deliver_eq_some {answer : TransportAnswer} {row : Selected}
    (h : pass.deliver answer = some (row, pass')) :
    pass'.phase.fresh = pass.phase.fresh ∧ pass'.phase.resends = pass.phase.resends ∧
      ((∃ rest, pass.phase.fresh = row :: rest) ∨ row ∈ pass.phase.resends) := by
  unfold RelayPass.deliver at h
  split at h
  · rename_i x rest failed hphase
    cases h
    rw [hphase]
    exact ⟨rfl, rfl, Or.inl ⟨rest, rfl⟩⟩
  · rename_i x rest hphase
    cases h
    rw [hphase]
    exact ⟨rfl, rfl, Or.inr (by simp [RelayPhase.resends])⟩
  · cases h

theorem RelayPass.Orderly.congr (h : pass.Orderly db) (hfresh : pass'.phase.fresh = pass.phase.fresh)
    (hresends : pass'.phase.resends = pass.phase.resends) : pass'.Orderly db := by
  obtain ⟨hnodup, hopen, horder, hremovals⟩ := h
  rw [← hfresh] at hnodup hopen horder
  rw [← hresends] at hremovals
  exact ⟨hnodup, hopen, horder, hremovals⟩

variable {now : Instant} {resend : ResendPolicy} {eventId : Uuid} {p : OutboxEvent → Bool}
  {f : OutboxEvent → OutboxEvent}

theorem Booking.eventId_eq {e : OutboxEvent} (h : Booking now resend eventId p f)
    (hp : p e = true) : e.eventId = eventId := by
  cases h <;> simp_all

theorem Booking.untried {e : OutboxEvent} (h : Booking now resend eventId p f)
    (hu : (f e).untried = true) : e.untried = true := by
  cases h <;>
    simp_all [OutboxEvent.untried, OutboxEvent.published, OutboxEvent.undeliverable,
      OutboxEvent.backedOff, OutboxEvent.resent]

theorem updateOutbox_rewrites {hf : ∀ e, (f e).eventId = e.eventId}
    (h : ∀ e, (f e).asAppended = e.asAppended) :
    Rewrites (fun e => if p e then f e else e) db (updateOutbox p f hf db) where
  rows := ⟨[], (List.append_nil _).symm, fun e he => (List.not_mem_nil he).elim⟩
  asAppended e := by
    split
    · exact h e
    · rfl

theorem Booking.rewrites {hf : ∀ e, (f e).eventId = e.eventId}
    (h : Booking now resend eventId p f) :
    Rewrites (fun e => if p e then f e else e) db (updateOutbox p f hf db) :=
  updateOutbox_rewrites h.asAppended

theorem Booking.untried_rewrite (h : Booking now resend eventId p f) (e : OutboxEvent)
    (hu : (if p e then f e else e).untried = true) : e.untried = true := by
  split at hu
  · exact h.untried hu
  · exact hu

/-- **A booking keeps its pass in order.** The booked row is tried, and the others are left
alone. -/
theorem RelayPass.Orderly.books {hf : ∀ e, (f e).eventId = e.eventId} (h : pass.Orderly db)
    (hb : Books now pass pass' p f) : pass'.Orderly (updateOutbox p f hf db) := by
  cases hb with
  | again hphase hrest hbooking hkept =>
    have hbooked : pass.Orderly (updateOutbox p f hf db) := by
      refine h.rewrite hbooking.rewrites ?_ ?_ hbooking.untried_rewrite
      · intro e
        split
        · exact (hkept e).1
        · rfl
      · intro e
        split
        · exact (hkept e).2
        · rfl
    refine ⟨List.nodup_nil, fun x hx => (List.not_mem_nil hx).elim, ?_, ?_⟩
    · intro done x rest hfresh
      simp [RelayPhase.fresh] at hfresh
    · intro x hx
      apply hbooked.removals x
      rw [hphase]
      exact List.mem_cons_of_mem _ (hrest hx)
  | @fresh row answer rest failed failed' _ _ hphase hbooking htried =>
    have hfresh : pass.phase.fresh = row :: rest := by rw [hphase]; rfl
    have hnodup := h.nodup
    rw [hfresh, List.map_cons, List.nodup_cons] at hnodup
    have hrewrites : Rewrites (fun e => if p e then f e else e) db (updateOutbox p f hf db) :=
      hbooking.rewrites
    refine ⟨hnodup.2, ?_, ?_, fun x hx => (List.not_mem_nil hx).elim⟩
    · intro x hx
      obtain ⟨e, he, hid, hopen⟩ := h.isOpen x (by rw [hfresh]; exact List.mem_cons_of_mem _ hx)
      have hother : p e = false := by
        by_contra hp
        rw [Bool.not_eq_false] at hp
        rw [hbooking.eventId_eq hp] at hid
        exact hnodup.1 (hid ▸ List.mem_map_of_mem hx)
      have hsame := hrewrites.mem he
      rw [hother] at hsame
      exact ⟨e, hsame, hid, hopen⟩
    · intro done x tail hsplit f₁ r₁ hfr hid hbefore hu
      have hx : x ∈ pass.phase.fresh := by
        have hx : x ∈ rest := by
          rw [show rest = done ++ x :: tail from hsplit]
          simp
        rw [hfresh]
        exact List.mem_cons_of_mem _ hx
      have hrow : ∃ e ∈ db.outboxEvents, e.eventId = r₁.eventId := by
        obtain ⟨e, he, hex, -⟩ := h.isOpen x hx
        exact ⟨e, he, hex.trans hid.symm⟩
      obtain ⟨f₀, r₀, hsub, rfl, rfl⟩ := hrewrites.sublist hfr hrow
      rw [publishBefore_congr (hrewrites.asAppended f₀) (hrewrites.asAppended r₀)] at hbefore
      rw [OutboxEvent.eventId_eq_of_asAppended (hrewrites.asAppended r₀)] at hid
      rw [OutboxEvent.eventId_eq_of_asAppended (hrewrites.asAppended f₀)]
      have huntried := hbooking.untried_rewrite f₀ hu
      have hbefore' : pass.phase.fresh = (row :: done) ++ x :: tail := by
        rw [hfresh, show rest = done ++ x :: tail from hsplit]
        rfl
      rcases List.mem_cons.mp (h.inOrder (row :: done) x tail hbefore' f₀ r₀ hsub hid hbefore
        huntried) with hf₀ | hdone
      · -- the row just booked is tried
        obtain ⟨hp, htried⟩ := htried f₀ hf₀ huntried
        simp only [hp, if_true] at hu
        rw [htried] at hu
        cases hu
      · exact hdone

end Passes

/-! ## The system in order -/

/-- The newest pass is orderly, and everything delivered or published is preceded by what
should come first. -/
structure Sequenced.Orderly (q : Sequenced) : Prop where
  bound : q.system.passes.length ≤ q.ended + 1
  current : ∀ pass, q.system.passes[q.ended]? = some pass → pass.Orderly q.system.db
  delivered : ∀ x ∈ q.system.delivered, Preceded q.system.db x.eventId
  published : ∀ e ∈ q.system.db.outboxEvents, e.publishedAt.isSome →
    Preceded q.system.db e.eventId

/-- The steps that write the columns passes select by, or drop rows. -/
def Action.settles : Action → Bool
  | .book .. | .delete .. => true
  | _ => false

/-- The steps of relay passes. -/
def Action.relays : Action → Bool
  | .beginPass .. | .deliver .. | .book .. | .resendDue .. => true
  | _ => false

section Steps

variable {lib : Externals} {env : Env} {q : Sequenced} {s : System} {a : Action}

theorem System.call_book {pass : RelayPass} (h : s.call a = some (env, .book pass)) :
    ∃ i, a = .book env i ∧ s.passes[i]? = some pass := by
  cases a <;> simp_all [System.call, Option.bind_eq_some_iff, Option.map_eq_some_iff]

/-- A step that neither books nor deletes leaves the columns alone that passes select by. -/
theorem step_rewrites (lib : Externals) (s : System) (a : Action)
    (ha : a.settles = false) :
    ∃ g, Rewrites g s.db (step lib s a).db ∧
      ∀ e, (g e).publishedAt = e.publishedAt ∧ (g e).undeliverableAt = e.undeliverableAt ∧
        (g e).nextAttemptAt = e.nextAttemptAt := by
  have hsame : ∀ {db db' : Db}, Grew (fun _ => True) db db' → Rewrites id db db' := by
    rintro db db' ⟨new, hrows, hnew⟩
    exact ⟨⟨new, by simpa using hrows, fun e he => (hnew e he).1⟩, fun _ => rfl⟩
  rcases step_effect lib s a with ⟨-, hdb⟩ | ⟨env, call, hcall, heffect⟩
  · rw [hdb]
    exact ⟨id, hsame (.of_eq rfl), fun _ => ⟨rfl, rfl, rfl⟩⟩
  generalize (step lib s a).db = db' at heffect
  cases heffect.outboxChange with
  | grew hgrew => exact ⟨id, hsame hgrew, fun _ => ⟨rfl, rfl, rfl⟩⟩
  | booked hb =>
    obtain ⟨i, rfl, -⟩ := System.call_book hcall
    cases ha
  | acknowledged =>
    refine ⟨_, updateOutbox_rewrites (OutboxEvent.asAppended_acknowledged _ _), ?_⟩
    intro e
    split
    · exact ⟨rfl, rfl, rfl⟩
    · exact ⟨rfl, rfl, rfl⟩
  | trimmed htrim =>
    rw [System.call_delete hcall] at ha
    cases ha

/-- The order is kept when tried rows stay tried and what is newly delivered or published is
preceded by what should come first. -/
theorem Sequenced.orderly_of_rewrites {g : OutboxEvent → OutboxEvent} {ended : Nat}
    (hg : Rewrites g q.system.db s.db) (hmono : ∀ e, (g e).untried = true → e.untried = true)
    (hbound : s.passes.length ≤ ended + 1)
    (hcurrent : ∀ pass, s.passes[ended]? = some pass → pass.Orderly s.db)
    (hdelivered : ∀ x ∈ s.delivered, Preceded q.system.db x.eventId)
    (hpublished : ∀ e ∈ q.system.db.outboxEvents, (g e).publishedAt.isSome →
      Preceded q.system.db e.eventId) : Sequenced.Orderly ⟨s, ended⟩ where
  bound := hbound
  current := hcurrent
  delivered x hx := (hdelivered x hx).rewrite hg hmono
  published e he hp := by
    rcases hg.origin he with ⟨e₀, he₀, rfl⟩ | hnew
    · rw [OutboxEvent.eventId_eq_of_asAppended (hg.asAppended e₀)]
      exact (hpublished e₀ he₀ hp).rewrite hg hmono
    · rw [← hnew] at hp
      cases hp

/-- A step that neither books nor deletes keeps the order if it keeps it for the passes and
for the deliveries. -/
theorem Sequenced.Orderly.quiet (h : q.Orderly) {ended : Nat} (ha : a.settles = false)
    (hbound : (InstagramArchive.step lib q.system a).passes.length ≤ ended + 1)
    (hcurrent : ∀ pass, (InstagramArchive.step lib q.system a).passes[ended]? = some pass →
      pass.Orderly q.system.db)
    (hdelivered : ∀ x ∈ (InstagramArchive.step lib q.system a).delivered,
      Preceded q.system.db x.eventId) :
    Sequenced.Orderly ⟨InstagramArchive.step lib q.system a, ended⟩ := by
  obtain ⟨g, hg, hkept⟩ := step_rewrites lib q.system a ha
  have hmono : ∀ e, (g e).untried = true → e.untried = true := by
    intro e hu
    rwa [OutboxEvent.untried, (hkept e).1, (hkept e).2.1, (hkept e).2.2] at hu
  refine Sequenced.orderly_of_rewrites hg hmono hbound ?_ hdelivered ?_
  · intro pass hpass
    exact (hcurrent pass hpass).rewrite hg (fun e => (hkept e).1) (fun e => (hkept e).2.1) hmono
  · intro e he hp
    rw [(hkept e).1] at hp
    exact h.published e he hp

/-- Only relay steps touch the passes and what was delivered. -/
theorem step_passes (lib : Externals) (s : System) (a : Action) (ha : a.relays = false) :
    (step lib s a).passes = s.passes ∧ (step lib s a).delivered = s.delivered := by
  cases a with
  | beginPass | deliver | book | resendDue => cases ha
  | submit | command | analysis | tombstone | mediaFact | acknowledge | delete => exact ⟨rfl, rfl⟩
  | claim | resolve | report | beginFetch | applyFetch | beginUnavailable | finishUnavailable =>
    simp only [step]
    repeat' split
    all_goals exact ⟨rfl, rfl⟩

/-- The pass an admitted step advances is the newest one. -/
theorem Sequenced.Orderly.eq_ended (h : q.Orderly) {i : Nat} {pass : RelayPass} (hi : q.ended ≤ i)
    (hpass : q.system.passes[i]? = some pass) : i = q.ended := by
  have hlt := (List.getElem?_eq_some_iff.mp hpass).1
  have hbound := h.bound
  omega

theorem Sequenced.Orderly.unmoved (h : q.Orderly) (ha : (q.step lib a).ended = q.ended)
    (hstep : InstagramArchive.step lib q.system a = q.system) : (q.step lib a).Orderly := by
  have hq : q.step lib a = q := by
    cases q
    simp_all [Sequenced.step]
  rw [hq]
  exact h

/-- A statement of the newest pass leaves it as its result says or ends it. -/
theorem Sequenced.Orderly.newest (h : q.Orderly) {pass : RelayPass} (P : RelayPass → Prop)
    (result : Except SqlError RelayPass) (hpass : q.system.passes[q.ended]? = some pass)
    (hresult : ∀ pass', result = .ok pass' → P pass') :
    (advancePass q.system.passes q.ended result).length ≤ q.ended + 1 ∧
      ∀ p, (advancePass q.system.passes q.ended result)[q.ended]? = some p → P p := by
  have hlt := (List.getElem?_eq_some_iff.mp hpass).1
  have hbound := h.bound
  cases result with
  | ok pass' =>
    simp only [advancePass, List.length_set]
    refine ⟨hbound, ?_⟩
    intro p hp
    rw [List.getElem?_set_self hlt] at hp
    exact Option.some.inj hp ▸ hresult pass' rfl
  | error e =>
    simp only [advancePass]
    have hlength := List.length_eraseIdx_of_lt hlt
    refine ⟨by omega, ?_⟩
    intro p hp
    have hp' := (List.getElem?_eq_some_iff.mp hp).1
    omega

theorem Sequenced.Orderly.beginPass (h : q.Orderly) (env : Env) (batch : Nat)
    (resend : ResendPolicy) : (q.step lib (.beginPass env batch resend)).Orderly := by
  apply h.quiet rfl
  · simp only [InstagramArchive.step]
    split <;> simp
  · intro pass hpass
    simp only [InstagramArchive.step] at hpass
    rcases exec_cases (InstagramArchive.beginPass batch resend) env q.system.db with
      ⟨new, db', hexec, hy⟩ | ⟨e, hexec⟩
    · simp only [hexec, List.getElem?_concat_length, Option.some.injEq] at hpass
      rw [← hpass]
      exact RelayPass.orderly_beginPass hy
    · simp [hexec] at hpass
  · intro x hx
    apply h.delivered x
    simp only [InstagramArchive.step] at hx
    split at hx <;> exact hx

/-- What a delivery step does. -/
theorem step_deliver (lib : Externals) (s : System) (i : Nat) (answer : TransportAnswer) :
    step lib s (.deliver i answer) = s ∨
      ∃ pass row pass', s.passes[i]? = some pass ∧ pass.deliver answer = some (row, pass') ∧
        step lib s (.deliver i answer) =
          { s with
            passes := s.passes.set i pass'
            delivered := s.delivered ++ if answer.toBool then [row] else [] } := by
  cases hd : s.passes[i]?.bind fun p => p.deliver answer with
  | none => exact Or.inl (by simp only [step, hd])
  | some next =>
    obtain ⟨row, pass'⟩ := next
    obtain ⟨pass, hpass, hdeliver⟩ := Option.bind_eq_some_iff.mp hd
    refine Or.inr ⟨pass, row, pass', hpass, hdeliver, ?_⟩
    simp only [step, hd]
    cases answer.toBool <;> simp

theorem Sequenced.Orderly.deliver (h : q.Orderly) {i : Nat} (hi : q.ended ≤ i)
    (answer : TransportAnswer) : (q.step lib (.deliver i answer)).Orderly := by
  rcases step_deliver lib q.system i answer with hstep | ⟨pass, row, pass', hpass, hdeliver, hstep⟩
  · exact h.unmoved rfl hstep
  · obtain rfl := h.eq_ended hi hpass
    have horderly := h.current pass hpass
    obtain ⟨hfresh, hresends, hrow⟩ := RelayPass.deliver_eq_some hdeliver
    have hpreceded : Preceded q.system.db row.eventId := by
      rcases hrow with ⟨rest, hrest⟩ | hresent
      · exact horderly.head hrest
      · obtain ⟨e, he, hid, -, hp⟩ := horderly.removals row hresent
        rw [← hid]
        exact h.published e he hp
    apply h.quiet rfl
    · rw [hstep]
      simpa using h.bound
    · rw [hstep]
      intro p hp
      rw [List.getElem?_set_self (List.getElem?_eq_some_iff.mp hpass).1] at hp
      rw [← Option.some.inj hp]
      exact horderly.congr hfresh hresends
    · rw [hstep]
      intro x hx
      rcases List.mem_append.mp hx with hx | hx
      · exact h.delivered x hx
      · split at hx
        · rw [List.mem_singleton.mp hx]
          exact hpreceded
        · exact (List.not_mem_nil hx).elim

theorem Sequenced.Orderly.resendDue (h : q.Orderly) {i : Nat} (hi : q.ended ≤ i) (env : Env) :
    (q.step lib (.resendDue env i)).Orderly := by
  cases hpass : q.system.passes[i]? with
  | none =>
    have hstep : InstagramArchive.step lib q.system (.resendDue env i) = q.system := by
      simp only [InstagramArchive.step, hpass]
    exact h.unmoved rfl hstep
  | some pass =>
    have hstep : InstagramArchive.step lib q.system (.resendDue env i) =
        { q.system with
          passes := advancePass q.system.passes i
            (pass.resendDue.exec env q.system.db).1 } := by
      simp only [InstagramArchive.step, hpass]
    obtain rfl := h.eq_ended hi hpass
    have hresult : ∀ pass', (pass.resendDue.exec env q.system.db).1 = .ok pass' →
        pass'.Orderly q.system.db := by
      intro pass' hok
      have hy := exec_ok (show pass.resendDue.exec env q.system.db = (.ok pass', _) from
        Prod.ext hok rfl)
      exact (h.current pass hpass).resendDue hy
    obtain ⟨hbound, hcurrent⟩ := h.newest _ _ hpass hresult
    apply h.quiet rfl
    · rw [hstep]
      exact hbound
    · rw [hstep]
      exact hcurrent
    · rw [hstep]
      exact h.delivered

/-- What a booking publishes was next in order. -/
theorem RelayPass.Orderly.preceded {db : Db} {now : Instant} {pass pass' : RelayPass}
    {p : OutboxEvent → Bool} {f : OutboxEvent → OutboxEvent} {e : OutboxEvent}
    (h : pass.Orderly db) (hb : Books now pass pass' p f)
    (hpublished : (if p e then f e else e).publishedAt.isSome) (hnone : e.publishedAt = none) :
    Preceded db e.eventId := by
  split at hpublished
  · rename_i hp
    cases hb with
    | fresh hphase hbooking _ =>
      rw [hbooking.eventId_eq hp]
      exact h.head (by rw [hphase]; rfl)
    | again _ _ _ hkept =>
      rw [(hkept e).1, hnone] at hpublished
      cases hpublished
  · rw [hnone] at hpublished
    cases hpublished

theorem Sequenced.Orderly.booked (h : q.Orderly) {pass pass' : RelayPass} {db' : Db}
    (hpass : q.system.passes[q.ended]? = some pass)
    (hy : pass.book.Yields env q.system.db pass' db') :
    Sequenced.Orderly
      ⟨{ q.system with db := db', passes := q.system.passes.set q.ended pass' }, q.ended⟩ := by
  have horderly := h.current pass hpass
  rcases RelayPass.book_yields hy with ⟨rfl, rfl⟩ | ⟨p, f, hf, hbooks, rfl⟩
  · obtain ⟨hbound, hcurrent⟩ := h.newest (fun p => p.Orderly q.system.db) (.ok pass') hpass
      fun p hp => by cases hp; exact horderly
    exact ⟨hbound, hcurrent, h.delivered, h.published⟩
  · obtain ⟨hbound, hcurrent⟩ := h.newest (fun p' => p'.Orderly (updateOutbox p f hf q.system.db))
      (.ok pass') hpass fun p hp => by cases hp; exact horderly.books hbooks
    obtain ⟨eventId, hbooking⟩ := hbooks.booking
    refine Sequenced.orderly_of_rewrites hbooking.rewrites hbooking.untried_rewrite hbound hcurrent
      h.delivered ?_
    intro e he hp
    cases hnone : e.publishedAt with
    | none => exact horderly.preceded hbooks hp hnone
    | some t => exact h.published e he (by simp [hnone])

theorem Sequenced.Orderly.book (h : q.Orderly) {i : Nat} (hi : q.ended ≤ i) (env : Env) :
    (q.step lib (.book env i)).Orderly := by
  cases hpass : q.system.passes[i]? with
  | none =>
    have hstep : InstagramArchive.step lib q.system (.book env i) = q.system := by
      simp only [InstagramArchive.step, hpass]
    exact h.unmoved rfl hstep
  | some pass =>
    have hstep : InstagramArchive.step lib q.system (.book env i) =
        { q.system with
          db := (pass.book.exec env q.system.db).2
          passes := advancePass q.system.passes i (pass.book.exec env q.system.db).1 } := by
      simp only [InstagramArchive.step, hpass]
    obtain rfl := h.eq_ended hi hpass
    change Sequenced.Orderly ⟨InstagramArchive.step lib q.system (.book env q.ended), q.ended⟩
    rcases exec_cases pass.book env q.system.db with ⟨pass', db', hexec, hy⟩ | ⟨e, hexec⟩
    · simp only [hexec] at hstep
      rw [hstep]
      exact h.booked hpass hy
    · simp only [hexec] at hstep
      rw [hstep]
      obtain ⟨hbound, hcurrent⟩ := h.newest (fun p => p.Orderly q.system.db) (.error e) hpass
        fun p hp => by cases hp
      exact ⟨hbound, hcurrent, h.delivered, h.published⟩

/-- **A step of a sequential run keeps the order.** -/
theorem Sequenced.Orderly.step (h : q.Orderly) (ha : q.Admits a) : (q.step lib a).Orderly := by
  cases hr : a.relays with
  | true =>
    cases a with
    | beginPass env batch resend => exact h.beginPass env batch resend
    | deliver i answer => exact h.deliver ha answer
    | book env i => exact h.book ha env
    | resendDue env i => exact h.resendDue ha env
    | _ => cases hr
  | false =>
    obtain ⟨hpasses, hdelivered⟩ := step_passes lib q.system a hr
    have hsettles : a.settles = false := by
      cases a with
      | delete => exact ha.elim
      | book => cases hr
      | _ => rfl
    have hended : (q.step lib a).ended = q.ended := by
      cases a with
      | beginPass => cases hr
      | _ => rfl
    change Sequenced.Orderly ⟨InstagramArchive.step lib q.system a, (q.step lib a).ended⟩
    rw [hended]
    apply h.quiet hsettles
    · rw [hpasses]
      exact h.bound
    · rw [hpasses]
      exact h.current
    · rw [hdelivered]
      exact h.delivered

theorem orderly_run {actions : List Action} (h : Sequential lib actions) :
    (run (Sequenced.step lib) {} actions).Orderly := by
  refine run_invariant (Sequenced.step lib) Sequenced.Admits Sequenced.Orderly
    (fun q a ha hq => hq.step ha) h ?_
  exact ⟨by simp, by simp, by simp, by simp⟩

/-! ## After a removal -/

/-- A fact that is published or undeliverable. -/
def ClosedFact (db : Db) (eventId : Uuid) : Prop :=
  ∃ e ∈ db.outboxEvents, e.eventId = eventId ∧ e.eventType ≠ .sourceRemoved ∧ e.closed = true

theorem Booking.closed {now : Instant} {resend : ResendPolicy} {eventId : Uuid}
    {p : OutboxEvent → Bool} {f : OutboxEvent → OutboxEvent} {e : OutboxEvent}
    (h : Booking now resend eventId p f) (hc : e.closed = true) : (f e).closed = true := by
  cases h <;>
    simp_all [OutboxEvent.closed, OutboxEvent.published, OutboxEvent.undeliverable,
      OutboxEvent.backedOff, OutboxEvent.resent]

theorem ClosedFact.rewrite {g : OutboxEvent → OutboxEvent} {db db' : Db} {id : Uuid}
    (h : ClosedFact db id) (hg : Rewrites g db db')
    (hclosed : ∀ e, e.closed = true → (g e).closed = true) : ClosedFact db' id := by
  obtain ⟨e, he, hid, ht, hc⟩ := h
  refine ⟨g e, hg.mem he, ?_, ?_, hclosed e hc⟩
  · rw [OutboxEvent.eventId_eq_of_asAppended (hg.asAppended e), hid]
  · rw [OutboxEvent.eventType_eq_of_asAppended (hg.asAppended e)]
    exact ht

theorem ClosedFact.step {id : Uuid} (h : ClosedFact q.system.db id) (ha : q.Admits a) :
    ClosedFact (step lib q.system a).db id := by
  cases hs : a.settles with
  | false =>
    obtain ⟨g, hg, hkept⟩ := step_rewrites lib q.system a hs
    refine h.rewrite hg ?_
    intro e hc
    rwa [OutboxEvent.closed, (hkept e).1, (hkept e).2.1]
  | true =>
    rcases step_effect lib q.system a with ⟨-, hdb⟩ | ⟨env, call, hcall, heffect⟩
    · rw [hdb]
      exact h
    cases a with
    | delete => exact ha.elim
    | book env i =>
      obtain ⟨pass, -, hcall⟩ := Option.map_eq_some_iff.mp hcall
      cases hcall
      generalize (InstagramArchive.step lib q.system (.book env i)).db = db' at heffect
      cases heffect with
      | idle => exact h
      | book hb =>
        refine h.rewrite hb.rewrites ?_
        intro e hc
        split
        · exact hb.closed hc
        · exact hc
      | store hcall => exact hcall.elim
      | fail hcall => exact hcall.elim
    | _ => cases hs

/-- A pass holds no closed fact. -/
theorem RelayPass.Orderly.eventId_ne {db : Db} {pass : RelayPass} {row : Selected} {id : Uuid}
    (h : pass.Orderly db) (hc : ClosedFact db id)
    (hrow : row ∈ pass.phase.fresh ∨ row ∈ pass.phase.resends) : row.eventId ≠ id := by
  obtain ⟨e, he, rfl, ht, hclosed⟩ := hc
  intro hid
  rcases hrow with hfresh | hresent
  · obtain ⟨e', he', hid', hp, hu⟩ := h.isOpen row hfresh
    rw [Table.eq_of_key_eq he' he (hid'.trans hid)] at hp hu
    simp [OutboxEvent.closed, hp, hu] at hclosed
  · obtain ⟨e', he', hid', ht', -⟩ := h.removals row hresent
    rw [Table.eq_of_key_eq he' he (hid'.trans hid)] at ht'
    exact ht ht'

/-- **A sequential step delivers no closed fact.** -/
theorem Sequenced.Orderly.delivers (h : q.Orderly) (ha : q.Admits a) {id : Uuid}
    (hc : ClosedFact q.system.db id) :
    ∃ new, (InstagramArchive.step lib q.system a).delivered = q.system.delivered ++ new ∧
      ∀ x ∈ new, x.eventId ≠ id := by
  have hnone : ∀ {s : System}, s.delivered = q.system.delivered →
      ∃ new, s.delivered = q.system.delivered ++ new ∧ ∀ x ∈ new, x.eventId ≠ id :=
    fun heq => ⟨[], by rw [heq, List.append_nil], fun x hx => (List.not_mem_nil hx).elim⟩
  cases hr : a.relays with
  | false => exact hnone (step_passes lib q.system a hr).2
  | true =>
    cases a with
    | deliver i answer =>
      rcases step_deliver lib q.system i answer with hstep | ⟨pass, row, pass', hpass, hdeliver, hstep⟩
      · exact hnone (by rw [hstep])
      · obtain rfl := h.eq_ended ha hpass
        refine ⟨_, by rw [hstep], ?_⟩
        intro x hx
        split at hx
        · rw [List.mem_singleton.mp hx]
          apply (h.current pass hpass).eventId_ne hc
          rcases (RelayPass.deliver_eq_some hdeliver).2.2 with ⟨rest, hrest⟩ | hresent
          · exact Or.inl (by simp [hrest])
          · exact Or.inr hresent
        · exact (List.not_mem_nil hx).elim
    | beginPass =>
      apply hnone
      simp only [InstagramArchive.step]
      split <;> rfl
    | book =>
      apply hnone
      simp only [InstagramArchive.step]
      split <;> rfl
    | resendDue =>
      apply hnone
      simp only [InstagramArchive.step]
      split <;> rfl
    | _ => cases hr

/-- **A sequential run delivers no closed fact.** -/
theorem Sequenced.Orderly.run_delivers (h : q.Orderly) {actions : List Action}
    (hg : Guarded (Sequenced.step lib) Sequenced.Admits q actions) {id : Uuid}
    (hc : ClosedFact q.system.db id) :
    ∃ new, (run (Sequenced.step lib) q actions).system.delivered = q.system.delivered ++ new ∧
      ∀ x ∈ new, x.eventId ≠ id := by
  induction actions generalizing q with
  | nil => exact ⟨[], (List.append_nil _).symm, fun x hx => (List.not_mem_nil hx).elim⟩
  | cons a rest ih =>
    obtain ⟨first, hfirst, hne⟩ := h.delivers hg.1 hc
    obtain ⟨more, hmore, hne'⟩ := ih (h.step hg.1) hg.2 (hc.step hg.1)
    refine ⟨first ++ more, ?_, ?_⟩
    · rw [run_cons, hmore]
      exact (congrArg (· ++ more) hfirst).trans (List.append_assoc ..)
    · intro x hx
      rcases List.mem_append.mp hx with hx | hx
      · exact hne x hx
      · exact hne' x hx

/-- The removal `r` of the source of `f` was delivered, and `f` is an older captured or updated
fact of that source. -/
structure Superseded (s : System) (f r : OutboxEvent) : Prop where
  appended : [f, r].Sublist s.db.outboxEvents.rows
  fact : f.eventType = .sourceCaptured ∨ f.eventType = .sourceUpdated
  removal : r.eventType = .sourceRemoved
  source : f.payload.aggregate = r.payload.aggregate
  delivered : r.selected ∈ s.delivered

instance (s : System) (f r : OutboxEvent) : Decidable (Superseded s f r) :=
  decidable_of_iff
    ([f, r].Sublist s.db.outboxEvents.rows ∧
      (f.eventType = .sourceCaptured ∨ f.eventType = .sourceUpdated) ∧
      r.eventType = .sourceRemoved ∧ f.payload.aggregate = r.payload.aggregate ∧
      r.selected ∈ s.delivered)
    ⟨fun ⟨h1, h2, h3, h4, h5⟩ => ⟨h1, h2, h3, h4, h5⟩,
      fun ⟨h1, h2, h3, h4, h5⟩ => ⟨h1, h2, h3, h4, h5⟩⟩

/-- The deliveries of the steps `after` from a state. -/
def deliveredIn (lib : Externals) (s : System) (after : List Action) : List Selected :=
  (run (step lib) s after).delivered.drop s.delivered.length

/-- **A removal is not overtaken by what it outlived.** Once the removal of a source is delivered
in a sequential run, no older fact of the source that sorts before it by `occurred_at` and
`event_id` is delivered any more, unless a failed delivery of the fact is waiting to be tried
again. -/
theorem removal_not_overtaken (lib : Externals) (before after : List Action)
    (hseq : Sequential lib (before ++ after)) {f r : OutboxEvent}
    (h : Superseded (run (step lib) {} before) f r) (hwaiting : f.waiting = false)
    (hbefore : publishBefore f r = true) :
    f.selected ∉ deliveredIn lib (run (step lib) {} before) after := by
  obtain ⟨hfirst, hsecond⟩ := (guarded_append _ _ _ _ _).mp hseq
  have hq := Sequenced.run_system lib {} before
  have horderly := orderly_run hfirst
  generalize run (Sequenced.step lib) {} before = q at hsecond hq horderly
  rw [← hq] at h ⊢
  have htried := (horderly.delivered _ h.delivered).tried f r h.appended rfl hbefore
  have hclosed : ClosedFact q.system.db f.eventId := by
    refine ⟨f, h.appended.subset (by simp), rfl, ?_, OutboxEvent.closed_of_tried htried hwaiting⟩
    rcases h.fact with ht | ht
    · simp [ht]
    · simp [ht]
  obtain ⟨new, hnew, hne⟩ := horderly.run_delivers hsecond hclosed
  rw [Sequenced.run_system] at hnew
  unfold deliveredIn
  rw [hnew, List.drop_left]
  exact fun hmem => hne _ hmem rfl

/-- A post is archived, which appends its captured fact, and removed as of `removedAt`. -/
def archivedAndRemoved (removedAt : Instant) : List Action :=
  [.submit (quietEnv 10 100) ⟨1, "http://instagr.am/p/A", 5, .iosShareExtension, none, none⟩,
    .beginFetch (quietEnv 20 200) 100 20,
    .applyFetch (quietEnv 30 300) 0 (titledPayload "X"),
    .tombstone (quietEnv 40 400) 100 .userRequested removedAt,
    .beginPass (quietEnv 50 500) 10 .default]

/-- The fact is delivered, then its removal. -/
def deliveredInOrder : List Action :=
  archivedAndRemoved 40 ++ [.deliver 0 (.ok ()), .book (quietEnv 60 600) 0, .deliver 0 (.ok ())]

/-- A second pass. -/
def nextPass (now : Instant) : List Action :=
  [.book (quietEnv 70 700) 0, .beginPass (quietEnv now 800) 10 .default, .deliver 1 (.ok ())]

theorem removal_not_overtaken_deliveredInOrder :
    ∃ f ∈ (run (step reference) {} deliveredInOrder).db.outboxEvents.rows,
      ∃ r ∈ (run (step reference) {} deliveredInOrder).db.outboxEvents.rows,
        Superseded (run (step reference) {} deliveredInOrder) f r ∧
          f.selected ∉ deliveredIn reference (run (step reference) {} deliveredInOrder)
            (nextPass 80) := by
  have hcase : ∃ f ∈ (run (step reference) {} deliveredInOrder).db.outboxEvents.rows,
      ∃ r ∈ (run (step reference) {} deliveredInOrder).db.outboxEvents.rows,
        Superseded (run (step reference) {} deliveredInOrder) f r ∧ f.waiting = false ∧
          publishBefore f r = true := by
    decide +kernel
  obtain ⟨f, hf, r, hr, hsuperseded, hwaiting, hbefore⟩ := hcase
  exact ⟨f, hf, r, hr, hsuperseded, removal_not_overtaken reference deliveredInOrder (nextPass 80)
    (by decide +kernel) hsuperseded hwaiting hbefore⟩

/-- The first delivery of the fact fails, and its removal is delivered. -/
def refusedThenRemoved : List Action :=
  archivedAndRemoved 40 ++
    [.deliver 0 (.error (.transient "refused")), .book (quietEnv 60 600) 0, .deliver 0 (.ok ())]

/-- The removal is dated before the fact was appended, and delivered first. -/
def backdatedRemoval : List Action := archivedAndRemoved 0 ++ [.deliver 0 (.ok ())]

/-- **A removal is overtaken** by a fact whose failed delivery is tried again a minute later, and
by a fact that was appended after the removal time the caller gave. -/
theorem removal_overtaken :
    (Sequential reference (refusedThenRemoved ++ nextPass (60 + failureBackoff)) ∧
      ∃ f ∈ (run (step reference) {} refusedThenRemoved).db.outboxEvents.rows,
        ∃ r ∈ (run (step reference) {} refusedThenRemoved).db.outboxEvents.rows,
          Superseded (run (step reference) {} refusedThenRemoved) f r ∧
            publishBefore f r = true ∧
            f.selected ∈ deliveredIn reference (run (step reference) {} refusedThenRemoved)
              (nextPass (60 + failureBackoff))) ∧
    Sequential reference (backdatedRemoval ++ [.book (quietEnv 60 600) 0, .deliver 0 (.ok ())]) ∧
      ∃ f ∈ (run (step reference) {} backdatedRemoval).db.outboxEvents.rows,
        ∃ r ∈ (run (step reference) {} backdatedRemoval).db.outboxEvents.rows,
          Superseded (run (step reference) {} backdatedRemoval) f r ∧ f.waiting = false ∧
            f.selected ∈ deliveredIn reference (run (step reference) {} backdatedRemoval)
              [.book (quietEnv 60 600) 0, .deliver 0 (.ok ())] := by
  refine ⟨⟨?_, ?_⟩, ?_, ?_⟩
  · decide +kernel
  · decide +kernel
  · decide +kernel
  · decide +kernel

end Steps

end InstagramArchive

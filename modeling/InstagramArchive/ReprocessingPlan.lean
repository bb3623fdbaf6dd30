import InstagramArchive.EvidenceKeys
import InstagramArchive.ExportParsing
import InstagramArchive.Machine.Framing
import InstagramArchive.Reprocessing

/-!
# The canonical plan

Each line of a canonical plan states how long its key is, so a key may hold any separator. Inputs
with distinct keys render to one report in whatever order they are passed, and reports with the
same fingerprint have the same items unless their plans collide.
-/

namespace InstagramArchive.Reprocessing

open Machine DataExport

/-- Sixty-four lowercase hexadecimal characters. -/
def IsHexDigest (digest : String) : Prop :=
  digest.length = 64 ∧ ∀ c ∈ digest.toList, c ∈ "0123456789abcdef".toList

/-- The inputs of a plan. -/
structure PlanInputs (inputs : List ReprocessInput) : Prop where
  distinct : (inputs.map ReprocessInput.itemKey).Nodup
  digests : ∀ input ∈ inputs, ∀ digest, input.prospectiveDigest = some digest → IsHexDigest digest

/-- An item that a plan can have. -/
structure ReprocessReportItem.Planned (item : ReprocessReportItem) : Prop where
  digest : ∀ digest, item.digest = some digest → IsHexDigest digest
  retained : item.retainedPriorState = decide (item.classification = .omitted)

section Lines

theorem wireName_injective {c c' : ReprocessClassification} (h : c.wireName = c'.wireName) :
    c = c' := by
  cases c <;> cases c' <;> first | rfl | exact absurd h (by decide)

theorem bar_not_mem_wireName (c : ReprocessClassification) : '|' ∉ c.wireName.toList := by
  cases c <;> decide

/-- A key of a stated length is read back whatever follows it. -/
theorem sized_text_inj {a b : String} {x y : List Char} (hsize : a.utf8ByteSize = b.utf8ByteSize)
    (h : a.toList ++ x = b.toList ++ y) : a = b ∧ x = y := by
  have hlonger : ∀ (s t : String) (m : List Char), s.utf8ByteSize = t.utf8ByteSize →
      t.toList = s.toList ++ m → m = [] := by
    intro s t m hst ht
    have htext : t = s ++ String.ofList m := by
      apply String.toList_injective
      rw [ht, String.toList_append, String.toList_ofList]
    have hzero : (String.ofList m).utf8ByteSize = 0 := by
      rw [htext, String.utf8ByteSize_append] at hst
      omega
    have hnil := congrArg String.toList (String.utf8ByteSize_eq_zero_iff.mp hzero)
    rw [String.toList_ofList] at hnil
    exact hnil
  rcases List.append_eq_append_iff.mp h with ⟨m, hb, rfl⟩ | ⟨m, ha, rfl⟩
  · obtain rfl := hlonger a b m hsize hb
    rw [List.append_nil] at hb
    exact ⟨String.toList_injective hb.symm, rfl⟩
  · obtain rfl := hlonger b a m hsize.symm ha
    rw [List.append_nil] at ha
    exact ⟨String.toList_injective ha, rfl⟩

theorem ReprocessReportItem.Planned.bar_not_mem {item : ReprocessReportItem} (h : item.Planned) :
    '|' ∉ (item.digest.getD "-").toList := by
  cases hdigest : item.digest with
  | none => decide
  | some digest =>
    intro hmem
    exact absurd ((h.digest digest hdigest).2 _ hmem) (by decide)

theorem ReprocessReportItem.Planned.digest_inj {a b : ReprocessReportItem} (ha : a.Planned)
    (hb : b.Planned) (h : (a.digest.getD "-").toList = (b.digest.getD "-").toList) :
    a.digest = b.digest := by
  have hdash : ∀ digest, IsHexDigest digest → digest ≠ "-" := by
    rintro digest hhex rfl
    exact absurd hhex.1 (by decide)
  have htext := String.toList_injective h
  cases hda : a.digest with
  | none =>
    cases hdb : b.digest with
    | none => rfl
    | some digest =>
      rw [hda, hdb] at htext
      exact absurd htext.symm (hdash digest (hb.digest digest hdb))
  | some digest =>
    cases hdb : b.digest with
    | none =>
      rw [hda, hdb] at htext
      exact absurd htext (hdash digest (ha.digest digest hda))
    | some digest' =>
      rw [hda, hdb] at htext
      rw [show digest = digest' from htext]

/-- A line of the plan is self-delimiting. -/
theorem line_selfDelimiting :
    SelfDelimiting ReprocessReportItem.Planned ReprocessReportItem.line where
  nonempty item _ := by
    intro h
    have hlast := congrArg List.getLast? h
    simp [ReprocessReportItem.line] at hlast
  cancel a b x y ha hb h := by
    unfold ReprocessReportItem.line at h
    simp only [List.append_assoc, List.cons_append, List.nil_append] at h
    have hcolon : ∀ n : Nat, ':' ∉ (toString n).toList := by
      intro n hmem
      exact absurd (natText_digit hmem) (by decide)
    obtain ⟨hlength, h⟩ := split_inj (hcolon _) (hcolon _) h
    obtain ⟨hkey, h⟩ := sized_text_inj (natText_injective (String.toList_injective hlength)) h
    obtain ⟨hname, h⟩ := split_inj (bar_not_mem_wireName _) (bar_not_mem_wireName _)
      (List.cons.inj h).2
    obtain ⟨hdigest, h⟩ := split_inj ha.bar_not_mem hb.bar_not_mem h
    have hclass := wireName_injective (String.toList_injective hname)
    have hretained : a.retainedPriorState = b.retainedPriorState := by
      rw [ha.retained, hb.retained, hclass]
    rw [hretained, List.append_cancel_left_eq] at h
    refine ⟨?_, (List.cons.inj h).2⟩
    cases a
    cases b
    rw [ReprocessReportItem.mk.injEq]
    exact ⟨hkey, hclass, ReprocessReportItem.Planned.digest_inj ha hb hdigest, hretained⟩

/-- **The canonical plan is injective** on the items of plans. -/
theorem canonicalPlan_inj {a b : List ReprocessReportItem} (ha : ∀ item ∈ a, item.Planned)
    (hb : ∀ item ∈ b, item.Planned) (h : canonicalPlan a = canonicalPlan b) : a = b := by
  have hchars := congrArg String.toList h
  unfold canonicalPlan at hchars
  rw [String.toList_ofList, String.toList_ofList] at hchars
  exact line_selfDelimiting.flatMap_inj ha hb hchars

end Lines

/-! ## Rendering -/

section Rendering

variable {lib : Externals} {inputs inputs' : List ReprocessInput} {stateFingerprint : String}

theorem mem_renderItems {item : ReprocessReportItem} :
    item ∈ renderItems inputs ↔ ∃ input ∈ inputs, input.item = item := by
  unfold renderItems
  rw [List.mem_insertionSort, List.mem_map]

theorem renderItems_length : (renderItems inputs).length = inputs.length := by
  unfold renderItems
  rw [List.length_insertionSort, List.length_map]

theorem input_item_injective {input input' : ReprocessInput} (h : input.item = input'.item) :
    input = input' := by
  cases input
  cases input'
  simp only [ReprocessInput.item, ReprocessReportItem.mk.injEq] at h
  rw [ReprocessInput.mk.injEq]
  exact ⟨h.1, h.2.1, h.2.2.1⟩

theorem PlanInputs.planned (h : PlanInputs inputs) : ∀ item ∈ renderItems inputs, item.Planned := by
  intro item hmem
  obtain ⟨input, hinput, rfl⟩ := mem_renderItems.mp hmem
  exact ⟨h.digests input hinput, rfl⟩

theorem PlanInputs.keys_nodup (h : PlanInputs inputs) :
    ((renderItems inputs).map ReprocessReportItem.itemKey).Nodup := by
  have hperm : ((renderItems inputs).map ReprocessReportItem.itemKey).Perm
      (inputs.map ReprocessInput.itemKey) := by
    have hsorted : (renderItems inputs).Perm (inputs.map ReprocessInput.item) :=
      List.perm_insertionSort ..
    have hkeys := hsorted.map ReprocessReportItem.itemKey
    rw [List.map_map] at hkeys
    exact hkeys
  exact hperm.nodup_iff.mpr h.distinct

/-- The order of the inputs does not matter. -/
theorem renderReport_perm (h : PlanInputs inputs) (hperm : inputs'.Perm inputs) :
    renderReport lib inputs' stateFingerprint = renderReport lib inputs stateFingerprint := by
  have hitems : renderItems inputs' = renderItems inputs := by
    unfold renderItems
    refine insertionSort_perm ReprocessReportItem.itemKey (hperm.map _) ?_
    intro a ha b hb hkey
    obtain ⟨i, hi, rfl⟩ := List.mem_map.mp ha
    obtain ⟨j, hj, rfl⟩ := List.mem_map.mp hb
    have hij : i = j := List.inj_on_of_nodup_map h.distinct (hperm.subset hi) (hperm.subset hj) hkey
    rw [hij]
  unfold renderReport
  rw [hitems]

/-- Distinct canonical plans of the two lists have distinct digests. -/
def PlansApart (lib : Externals) (inputs inputs' : List ReprocessInput) : Prop :=
  lib.sha256 (canonicalPlan (renderItems inputs)) =
      lib.sha256 (canonicalPlan (renderItems inputs')) →
    canonicalPlan (renderItems inputs) = canonicalPlan (renderItems inputs')

/-- Inputs with one canonical plan are the same. -/
theorem same_inputs (h : PlanInputs inputs) (h' : PlanInputs inputs')
    (hplans : canonicalPlan (renderItems inputs) = canonicalPlan (renderItems inputs'))
    (input : ReprocessInput) : input ∈ inputs ↔ input ∈ inputs' := by
  have hitems := canonicalPlan_inj h.planned h'.planned hplans
  have hmem : ∀ {inputs : List ReprocessInput},
      input ∈ inputs ↔ input.item ∈ renderItems inputs := by
    intro inputs
    rw [mem_renderItems]
    constructor
    · exact fun hin => ⟨input, hin, rfl⟩
    · rintro ⟨other, hother, heq⟩
      rw [← input_item_injective heq]
      exact hother
  rw [hmem, hitems, ← hmem]

/-- Plans with one fingerprint consist of the same inputs. -/
theorem same_fingerprint (h : PlanInputs inputs) (h' : PlanInputs inputs')
    (hapart : PlansApart lib inputs inputs')
    (hsame : (renderReport lib inputs stateFingerprint).planFingerprint =
      (renderReport lib inputs' stateFingerprint).planFingerprint) (input : ReprocessInput) :
    input ∈ inputs ↔ input ∈ inputs' :=
  same_inputs h h' (hapart (hexEncode_injective hsame)) input

end Rendering

end InstagramArchive.Reprocessing

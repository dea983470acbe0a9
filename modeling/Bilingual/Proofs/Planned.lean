import Bilingual.Proofs.Checked
import Bilingual.Proofs.Patch

set_option autoImplicit false

/-! # The plan of a category

Patching a category is planning and then carrying out the edits of the plan (`PatchInput.result_patchCategory_eq`). A
category that has no contents to put into the text, or is refused, has a plan too: it has no edits and only reports why
(`PatchInput.planned_cases`). Contents that a snapshot brings have distinct keys and the shape of their category,
whatever the document they come from looks like (`PatchInput.content_of_given?`). -/

namespace Bilingual

/-! ## Checked contents -/

namespace Content

open Checked

theorem ensures_checkTexts (d : Data) : Ensures OrderedMap.Distinct (checkTexts d) :=
  ensures_distinct _ d

theorem ensures_checkRecord (d : Data) :
    Ensures (fun record => ∀ texts, record = some texts → OrderedMap.Distinct texts) (nullable checkTexts d) := by
  unfold nullable
  split
  · exact ensures_ok fun texts h => by cases h
  · refine (ensures_checkTexts d).map fun texts htexts other h => ?_
    cases h
    exact htexts

/-- Accepted contents have the shape they are checked for, and distinct keys. -/
theorem ensures_ofJson (shape : Shape) (value : Json) :
    Ensures (fun content => content.shape = shape ∧ content.Distinct) (ofJson shape value) := by
  unfold ofJson check
  cases shape with
  | map => exact (ensures_checkTexts _).map fun texts htexts => ⟨rfl, htexts⟩
  | records => exact (ensures_list ensures_checkRecord _).map fun items hitems =>
      ⟨rfl, fun texts htexts => hitems _ htexts texts rfl⟩
  | keyedRecords => exact (ensures_map ensures_checkRecord _).map fun items hitems =>
      ⟨rfl, hitems.1, fun key texts hmem => hitems.2 _ hmem texts rfl⟩

end Content

namespace PatchInput

variable {input : PatchInput} {c : Category} {text : Text}

/-- Contents that a snapshot brings for a category have its shape and distinct keys. -/
theorem content_of_given? {content : Content} (h : input.given? c = some (.ok content)) :
    content.shape = c.placement.shape ∧ content.Distinct := by
  unfold given? at h
  dsimp only at h
  split at h
  · cases h
  · exact Content.ensures_ofJson _ _ content (Option.some.inj h)

/-- The texts of merged categories have distinct keys. -/
theorem distinct_of_mem_mergedTexts {texts : FlatMap} (h : texts ∈ input.mergedTexts c) :
    OrderedMap.Distinct texts := by
  unfold mergedTexts at h
  split at h
  · obtain ⟨name, -, hname⟩ := List.mem_filterMap.1 h
    obtain ⟨raw, -, hraw⟩ := Option.bind_eq_some_iff.1 hname
    split at hraw
    · next found hfound =>
      cases hraw
      exact Content.ensures_checkTexts _ texts hfound
    · cases hraw
  · cases h

/-! ## Planning a category -/

variable (input c text) in
/-- The plan that patching a category comes to: that of its contents, or one that only reports why there are none to
put into the text. -/
def planned : Except Failure Plan :=
  match input.given? c with
  | none => .ok (.report { category := c.name, status := .skipped, detail := some "not in snapshot" })
  | some (.bad _) => .ok (.report { category := c.name, status := .invalid, detail := some "unexpected shape" })
  | some (.ok content) => do
    match ← (input.shifts c text).result with
    | [] => (input.plan c text content (input.mergedTexts c)).result
    | shifted => return { entries := shifted }

/-- A category is patched by carrying out the edits of its plan. -/
theorem result_patchCategory_eq : (input.patchCategory c text).result = do
    let plan ← input.planned c text
    return (← Edit.applyAll text plan.edits, plan.entries) := by
  rw [result_patchCategory]
  unfold planned
  cases input.given? c with
  | none => rfl
  | some checked =>
    cases checked with
    | bad problems => rfl
    | ok content =>
      cases (input.shifts c text).result with
      | error failure => rfl
      | ok shifted =>
        cases shifted with
        | nil => rfl
        | cons first rest => rfl

theorem patchCategory_eq_ok_iff {patched : Text} {entries : List PatchEntry} :
    (input.patchCategory c text).result = .ok (patched, entries) ↔ ∃ plan, input.planned c text = .ok plan ∧
      Edit.applyAll text plan.edits = .ok patched ∧ plan.entries = entries := by
  rw [result_patchCategory_eq, Except.bind_eq_ok_iff]
  refine exists_congr fun plan => and_congr_right fun _ => ?_
  rw [Except.bind_eq_ok_iff]
  constructor
  · rintro ⟨found, hfound, h⟩
    cases h
    exact ⟨hfound, rfl⟩
  · rintro ⟨hpatched, rfl⟩
    exact ⟨patched, hpatched, rfl⟩

/-- A category is planned for the contents that the snapshot brings, or its plan rests. -/
theorem planned_cases {plan : Plan} (h : input.planned c text = .ok plan) :
    plan.edits = [] ∧ plan.NoUpdate ∨ ∃ content, input.given? c = some (.ok content) ∧
      (input.shifts c text).result = .ok [] ∧
        (input.plan c text content (input.mergedTexts c)).result = .ok plan := by
  unfold planned at h
  split at h
  · cases h
    exact .inl ⟨rfl, (Plan.honest_report (by simp)).1 rfl⟩
  · cases h
    exact .inl ⟨rfl, (Plan.honest_report (by simp)).1 rfl⟩
  · next content hgiven =>
    obtain ⟨shifted, hshifted, h⟩ := Except.bind_eq_ok_iff.1 h
    cases shifted with
    | nil => exact .inr ⟨content, hgiven, hshifted, h⟩
    | cons first rest =>
      cases h
      refine .inl ⟨rfl, fun entry hentry => ?_⟩
      rw [status_of_mem_shifts input c text hshifted hentry]
      simp

/-- The plan of a category has edits exactly if it reports an update. -/
theorem honest_planned {plan : Plan} (h : input.planned c text = .ok plan) : plan.Honest := by
  rcases planned_cases h with ⟨hedits, hquiet⟩ | ⟨content, -, -, hplan⟩
  · exact iff_of_true hedits hquiet
  · exact honestStep_plan input c text content _ plan hplan

end PatchInput

end Bilingual

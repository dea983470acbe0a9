import Bilingual.Proofs.Plan.Shows

set_option autoImplicit false

/-! # The report tells the truth about the text

A category is planned without edits exactly if no update is reported, so a text is what it was behind a run without an
update. For keyed categories and blocks the converse holds as well: an update that is reported shows in the text,
whatever the other edits are (`PatchInput.report_truthful`). -/

namespace Bilingual

namespace PatchInput

variable {input : PatchInput} {c : Category} {text : Text}

/-- A plan for the texts of keys or for a block shows, if it has edits at all. -/
theorem shows_plan {content : Content} (hkind : c.placement.HasKeys ∨ c.placement.blockPlace?.isSome = true)
    (hshape : content.shape = c.placement.shape) (hcontent : content.Distinct) {merged : List FlatMap} {plan : Plan}
    (h : (input.plan c text content merged).result = .ok plan) : plan.Shows text := by
  rcases hkind with hkeys | hplace
  · cases content with
    | map texts => exact fun hne _ hpatched => (putsApart_plan hkeys hcontent h).patched_ne hne hpatched
    | _ =>
      cases hkind : c.placement <;> rw [hkind] at hkeys hshape <;> first | exact hkeys.elim | cases hshape
  · unfold PatchInput.plan at h
    cases hkind : c.placement with
    | dictBlock place merge defaults =>
      rw [hkind] at h hshape
      cases content with
      | map texts => exact Plan.ensures_shows_dictBlock _ _ plan h
      | _ => cases hshape
    | recordBlock place names defaults =>
      rw [hkind] at h hshape
      cases content with
      | records records => exact Plan.ensures_shows_recordBlock _ plan h
      | _ => cases hshape
    | listBlock place name defaults =>
      rw [hkind] at h hshape
      cases content with
      | records records => exact Plan.ensures_shows_recordBlock _ plan h
      | _ => cases hshape
    | keyedRecordBlock place names defaults =>
      rw [hkind] at h hshape
      cases content with
      | keyedRecords records => exact Plan.ensures_shows_keyedRecordBlock _ plan h
      | _ => cases hshape
    | _ =>
      rw [hkind] at hplace
      cases hplace

/-- The report tells the truth about the text. A category that is patched has been planned without edits exactly if no
update is reported, and if it is keyed or a block, a reported update means that its text is another one. A run without a
reported update leaves the text as it is. -/
theorem report_truthful (input : PatchInput) (c : Category) (text : Text) :
    (∀ patched entries, (input.patchCategory c text).result = .ok (patched, entries) →
      ∃ plan, input.planned c text = .ok plan ∧ Edit.applyAll text plan.edits = .ok patched ∧ plan.entries = entries ∧
        (plan.edits = [] ↔ ∀ entry ∈ entries, entry.status ≠ .updated)) ∧
    (∀ cs patched entries, (input.patchText text cs).result = .ok (patched, entries) →
      (∀ entry ∈ entries, entry.status ≠ .updated) → patched = text) ∧
    (c.placement.HasKeys ∨ c.placement.blockPlace?.isSome = true →
      ∀ patched entries, (input.patchCategory c text).result = .ok (patched, entries) →
        (∃ entry ∈ entries, entry.status = .updated) → patched ≠ text) := by
  refine ⟨fun patched entries h => ?_, fun cs patched entries h hquiet => ?_,
    fun hkind patched entries h hupdated => ?_⟩
  · obtain ⟨plan, hplan, hpatched, rfl⟩ := patchCategory_eq_ok_iff.1 h
    exact ⟨plan, hplan, hpatched, rfl, honest_planned hplan⟩
  · exact (quiet_patchText_iff.1 ⟨entries, h, hquiet⟩).1
  · obtain ⟨plan, hplan, hpatched, rfl⟩ := patchCategory_eq_ok_iff.1 h
    obtain ⟨entry, hentry, hstatus⟩ := hupdated
    rcases planned_cases hplan with ⟨-, hquiet⟩ | ⟨content, hgiven, -, hresult⟩
    · exact absurd hstatus (hquiet entry hentry)
    · obtain ⟨hshape, hdistinct⟩ := content_of_given? hgiven
      refine shows_plan hkind hshape hdistinct hresult (fun hnil => ?_) patched hpatched
      exact (honest_planned hplan).1 hnil entry hentry hstatus

/-- A block of entries. -/
def menuSample : Category :=
  { name := "menu", region := none, placement := .dictBlock ⟨[], "\x7blocale\x7d: \x7b", []⟩ [] [] }

/-- A file of it, with a first entry and what stands behind it. -/
def menuText (more : Text) : Text := "ar: \x7b\n  a: 'x',\n" ++ more ++ "\x7d\n"

/-- The manifest and the contents. -/
def menuInput (texts : FlatMap) : PatchInput where
  manifest := { artifacts := [{ path := "page.ts", categories := [menuSample] }] }
  snapshot := { categories := [("menu", (Content.map texts).toJson)] }

/-- The entries for a text that is there and one that is new. -/
def menuEntries : List PatchEntry :=
  [{ category := "menu", status := .unchanged, key := some "a" },
    { category := "menu", status := .updated, key := some "b", detail := some "appended" }]

theorem report_truthful_menu :
    (∃ plan, (menuInput [("a", some "x")]).planned menuSample (menuText []) = .ok plan ∧
      Edit.applyAll (menuText []) plan.edits = .ok (menuText []) ∧ plan.entries = menuEntries.take 1 ∧
      (plan.edits = [] ↔ ∀ entry ∈ menuEntries.take 1, entry.status ≠ .updated)) ∧
    (∃ patched, ((menuInput [("a", some "x")]).patchText (menuText []) [menuSample]).result =
      .ok (patched, menuEntries.take 1) ∧ patched = menuText []) ∧
    menuText "  b: 'y',\n" ≠ menuText [] := by
  obtain ⟨hplanned, hquiet, -⟩ := report_truthful (menuInput [("a", some "x")]) menuSample (menuText [])
  obtain ⟨-, -, hshows⟩ := report_truthful (menuInput [("a", some "x"), ("b", some "y")]) menuSample (menuText [])
  have hrun : ((menuInput [("a", some "x")]).patchText (menuText []) [menuSample]).result =
      .ok (menuText [], menuEntries.take 1) := by decide +kernel
  exact ⟨hplanned _ _ (by decide +kernel), ⟨_, hrun, hquiet [menuSample] _ _ hrun (by decide)⟩,
    hshows (.inr rfl) _ menuEntries (by decide +kernel) ⟨menuEntries[1], by decide, rfl⟩⟩

end PatchInput

end Bilingual

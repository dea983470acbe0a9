import Bilingual.Proofs.Plan.KeyOrder
import Bilingual.Proofs.Planned

set_option autoImplicit false

/-! # The order of keys does not matter

Patching does not tell two snapshots apart that have the same maps with their keys in another order
(`PatchInput.patchCategory_reordered`): the text and the entries are the same up to the order of new items and of
entries, and one of them fails exactly if the other does. -/

namespace Bilingual

/-- The values of a category are maps: for single sites that go by keys, or for a block of entries or keyed records. -/
def Placement.IsKeyed (placement : Placement) : Prop :=
  placement.HasKeys ∨ placement.itemKind? = some .entry ∨ placement.itemKind? = some .keyedRecord

namespace PatchInput

/-- The same maps for a category, and for those that its block merges, with their keys in another order. -/
structure SameMaps (input input' : PatchInput) (c : Category) : Prop where
  manifest_eq : input'.manifest = input.manifest
  raw : Option.Rel Json.SameMap (input.raw? c.name) (input'.raw? c.name)
  merge : ∀ place merge defaults, c.placement = .dictBlock place merge defaults → ∀ name ∈ merge,
    Option.Rel Json.SameMap (input.mergeSource? name) (input'.mergeSource? name)

variable {input input' : PatchInput} {c : Category} {text : Text}

theorem SameMaps.symm (h : input.SameMaps input' c) : input'.SameMaps input c where
  manifest_eq := h.manifest_eq.symm
  raw := Json.optionRel_sameMap_symm h.raw
  merge place merge defaults hkind name hname :=
    Json.optionRel_sameMap_symm (h.merge place merge defaults hkind name hname)

/-! ## What a snapshot brings -/

/-- The texts of a merged category are the same ones in another order. -/
theorem mergedText?_rel {name : Text}
    (h : Option.Rel Json.SameMap (input.mergeSource? name) (input'.mergeSource? name)) :
    Option.Rel List.Perm (input.mergedText? name) (input'.mergedText? name) := by
  unfold mergedText?
  rcases Option.Rel.cases h with ⟨hnone, hnone'⟩ | ⟨raw, raw', hsome, hsome', hraw⟩
  · rw [hnone, hnone']
    exact .none
  rw [hsome, hsome']
  dsimp only [Option.bind]
  cases htexts : Content.checkTexts (Data.ofJson raw) with
  | ok texts =>
    obtain ⟨texts', htexts', hperm⟩ := Content.exists_checkTexts hraw htexts
    rw [htexts']
    exact .some hperm
  | bad problems =>
    cases htexts' : Content.checkTexts (Data.ofJson raw') with
    | ok texts' =>
      obtain ⟨texts, hok, -⟩ := Content.exists_checkTexts hraw.symm htexts'
      cases htexts.symm.trans hok
    | bad problems' => exact .none

theorem SameMaps.mergedTexts_perm (h : input.SameMaps input' c) :
    List.Forall₂ List.Perm (input.mergedTexts c) (input'.mergedTexts c) := by
  unfold mergedTexts
  cases hkind : c.placement with
  | dictBlock place merge defaults =>
    have hnames : List.Forall₂ (fun a b => a ∈ merge ∧ a = b) merge merge :=
      List.forall₂_same.2 fun name hname => ⟨hname, rfl⟩
    refine List.rel_filterMap ?_ hnames
    rintro name _ ⟨hname, rfl⟩
    exact mergedText?_rel (h.merge place merge defaults hkind name hname)
  | _ => exact .nil

/-- Both snapshots bring something for the category or neither does, and accepted contents are the same ones in another
order. -/
theorem SameMaps.given?_rel (h : input.SameMaps input' c) :
    Option.Rel (fun checked checked' => ∀ content, checked = .ok content →
      ∃ content', checked' = .ok content' ∧ content.SameMap content') (input.given? c) (input'.given? c) := by
  have hempty : (input'.mergedTexts c).isEmpty = (input.mergedTexts c).isEmpty := by
    rw [Bool.eq_iff_iff, List.isEmpty_iff_length_eq_zero, List.isEmpty_iff_length_eq_zero,
      h.mergedTexts_perm.length_eq]
  unfold given?
  rw [hempty]
  rcases Option.Rel.cases h.raw with ⟨hnone, hnone'⟩ | ⟨raw, raw', hsome, hsome', hraw⟩
  · rw [hnone, hnone']
    dsimp only
    split
    · exact .none
    · exact .some fun content hcontent => ⟨content, hcontent, .refl content⟩
  · rw [hsome, hsome']
    exact .some fun content hcontent => Content.exists_ofJson hraw hcontent

/-! ## Planning -/

/-- Single sites get the same edits for the same texts in another order. -/
theorem exists_sites_perm (hmanifest : input'.manifest = input.manifest) (hkeys : c.placement.HasKeys)
    {texts texts' : FlatMap} (hperm : List.Perm texts texts') {merged merged' : List FlatMap} {plan : Plan}
    (h : (input.plan c text (.map texts) merged).result = .ok plan) :
    ∃ plan', (input'.plan c text (.map texts') merged').result = .ok plan' ∧ plan.Reordered plan' := by
  cases hplace : c.placement with
  | keyedPairs | choices =>
    rw [plan_of_keyedPattern? (by rw [hplace]; rfl)] at h ⊢
    rw [hmanifest]
    exact Plan.exists_keyed_perm hperm h
  | documents keyField bodyField defaults =>
    unfold PatchInput.plan at h ⊢
    simp only [hplace] at h ⊢
    rw [hmanifest]
    exact Plan.exists_documents_perm hperm h
  | _ =>
    rw [hplace] at hkeys
    exact hkeys.elim

/-- Plans for the same contents in another order are alike. -/
theorem SameMaps.exists_plan (h : input.SameMaps input' c) (hkind : c.placement.IsKeyed) {content content' : Content}
    (hshape : content.shape = c.placement.shape) (hcontent : content.Distinct) (hsame : content.SameMap content')
    {plan : Plan} (hplan : (input.plan c text content (input.mergedTexts c)).result = .ok plan) :
    ∃ plan', (input'.plan c text content' (input'.mergedTexts c)).result = .ok plan' ∧
      plan.Alike c text input.manifest.locales.secondary plan' := by
  rcases hkind with hkeys | hentries | hrecords
  · have hmap : c.placement.shape = .map := by
      cases hplace : c.placement <;> rw [hplace] at hkeys <;> first | rfl | exact hkeys.elim
    obtain ⟨texts, texts', rfl, rfl, hperm⟩ := hsame.exists_map (hshape.trans hmap)
    obtain ⟨plan', hplan', hreordered⟩ := exists_sites_perm h.manifest_eq hkeys hperm hplan
    -- the edits stand apart, so their order does not matter
    obtain ⟨hwithin, hapart, -⟩ := (putsApart_plan hkeys hcontent hplan).spec
    exact ⟨plan', hplan', hreordered.entries, .inl (Edit.applyAll_perm hreordered.edits hwithin hapart)⟩
  · cases hplace : c.placement with
    | dictBlock place merge defaults =>
      obtain ⟨texts, texts', rfl, rfl, hperm⟩ := hsame.exists_map (hshape.trans (by rw [hplace]; rfl))
      unfold PatchInput.plan at hplan ⊢
      simp only [hplace] at hplan ⊢
      rw [h.manifest_eq]
      exact Plan.exists_dictBlock_perm hcontent (fun _ => distinct_of_mem_mergedTexts) hperm h.mergedTexts_perm hplan
    | _ =>
      rw [hplace] at hentries
      cases hentries
  · cases hplace : c.placement with
    | keyedRecordBlock place names defaults =>
      obtain ⟨items, items', rfl, rfl⟩ := hsame.exists_keyedRecords (hshape.trans (by rw [hplace]; rfl))
      unfold PatchInput.plan at hplan ⊢
      simp only [hplace] at hplan ⊢
      rw [h.manifest_eq]
      exact Plan.exists_keyedRecordBlock_perm hcontent hsame hplan
    | _ =>
      rw [hplace] at hrecords
      cases hrecords

/-- A category whose sites are not numbered is never refused, so it is planned for what is brought for it. -/
theorem planned_of_given? {content : Content} (hordinal : c.placement.isOrdinal = false)
    (hgiven : input.given? c = some (.ok content)) :
    input.planned c text = (input.plan c text content (input.mergedTexts c)).result := by
  have hshifts : (input.shifts c text).result = .ok [] := by
    refine (shifts_eq_nil_iff input c text (ordinalCounts_of_not_ordinal c text hordinal)).2 ?_
    rintro key current ⟨⟩
  unfold planned
  rw [hgiven]
  dsimp only
  rw [hshifts]
  rfl

theorem not_ordinal_of_isKeyed (hkind : c.placement.IsKeyed) : c.placement.isOrdinal = false := by
  unfold Placement.IsKeyed at hkind
  cases hplace : c.placement <;> rw [hplace] at hkind <;> first | rfl | (rcases hkind with h | h | h <;> cases h)

/-- A category is planned alike for the same maps in another order. -/
theorem SameMaps.exists_planned (h : input.SameMaps input' c) (hkind : c.placement.IsKeyed) {plan : Plan}
    (hplan : input.planned c text = .ok plan) : ∃ plan', input'.planned c text = .ok plan' ∧
      plan.Alike c text input.manifest.locales.secondary plan' := by
  have hordinal := not_ordinal_of_isKeyed hkind
  rcases Option.Rel.cases h.given?_rel with ⟨hnone, hnone'⟩ | ⟨checked, checked', hgiven, hgiven', haccepted⟩
  · refine ⟨plan, ?_, .refl plan⟩
    unfold planned at hplan ⊢
    rw [hnone] at hplan
    rwa [hnone']
  cases checked with
  | ok content =>
    obtain ⟨content', rfl, hsame⟩ := haccepted content rfl
    obtain ⟨hshape, hdistinct⟩ := content_of_given? hgiven
    rw [planned_of_given? hordinal hgiven] at hplan
    rw [planned_of_given? hordinal hgiven']
    exact h.exists_plan hkind hshape hdistinct hsame hplan
  | bad problems =>
    cases checked' with
    -- what is accepted in one order is accepted in the other
    | ok content' =>
      have hback := h.symm.given?_rel
      rw [hgiven, hgiven', Option.rel_some_some] at hback
      obtain ⟨content, ⟨⟩, -⟩ := hback content' rfl
    | bad problems' =>
      refine ⟨plan, ?_, .refl plan⟩
      unfold planned at hplan ⊢
      rw [hgiven] at hplan
      rwa [hgiven']

/-- A block has no place among single sites. -/
theorem parsedBlock_of_hasKeys (hkeys : c.placement.HasKeys) (locale : Text) (parsed : ParsedBlock) :
    c.parsedBlock text locale ≠ .ok (some parsed) := by
  intro h
  obtain ⟨place, -, -, -, hplace, -⟩ := c.exists_of_parsedBlock h
  cases hkind : c.placement <;> rw [hkind] at hkeys hplace <;> first | exact hkeys | cases hplace

theorem SameMaps.exists_patched (h : input.SameMaps input' c) (hkind : c.placement.IsKeyed) {patched : Text}
    {entries : List PatchEntry} (hpatched : (input.patchCategory c text).result = .ok (patched, entries)) :
    ∃ patched' entries', (input'.patchCategory c text).result = .ok (patched', entries') ∧ entries.Perm entries' ∧
      (patched' = patched ∨
        Plan.SameItems c text input.manifest.locales.secondary entries entries' patched patched') := by
  obtain ⟨plan, hplan, happlied, rfl⟩ := patchCategory_eq_ok_iff.1 hpatched
  obtain ⟨plan', hplan', halike⟩ := h.exists_planned hkind hplan
  rcases halike.patched with hsame | ⟨other, patched', hother, hpatched', hitems⟩
  · exact ⟨patched, plan'.entries, patchCategory_eq_ok_iff.2 ⟨plan', hplan', hsame.trans happlied, rfl⟩,
      halike.entries, .inl rfl⟩
  · cases happlied.symm.trans hother
    exact ⟨patched', plan'.entries, patchCategory_eq_ok_iff.2 ⟨plan', hplan', hpatched', rfl⟩, halike.entries,
      .inr hitems⟩

/-- It does not matter in which order the keys of the maps for a category come, whether it is planned site by site or
as a block. It is patched for both orders or for neither, with the same entries up to their order. The text is the same
one, unless new items are reported: then the items that the block had are the same, and the new ones come in the order
of their reports. -/
theorem patchCategory_reordered (h : input.SameMaps input' c) (hkind : c.placement.IsKeyed) (text : Text) :
    ((∃ result, (input.patchCategory c text).result = .ok result) ↔
      ∃ result, (input'.patchCategory c text).result = .ok result) ∧
    ∀ patched entries patched' entries', (input.patchCategory c text).result = .ok (patched, entries) →
      (input'.patchCategory c text).result = .ok (patched', entries') → entries.Perm entries' ∧
        (c.placement.HasKeys ∨ Plan.appendedKeys entries = [] → patched' = patched) ∧
        (patched' = patched ∨
          Plan.SameItems c text input.manifest.locales.secondary entries entries' patched patched') := by
  refine ⟨⟨?_, ?_⟩, fun patched entries patched' entries' hpatched hpatched' => ?_⟩
  · rintro ⟨⟨patched, entries⟩, hpatched⟩
    obtain ⟨patched', entries', hpatched', -⟩ := h.exists_patched hkind hpatched
    exact ⟨_, hpatched'⟩
  · rintro ⟨⟨patched, entries⟩, hpatched⟩
    obtain ⟨patched', entries', hpatched', -⟩ := h.symm.exists_patched hkind hpatched
    exact ⟨_, hpatched'⟩
  · obtain ⟨_, _, hfound, hperm, htext⟩ := h.exists_patched hkind hpatched
    cases hpatched'.symm.trans hfound
    refine ⟨hperm, ?_, htext⟩
    rcases htext with heq | hitems
    · exact fun _ => heq
    · rintro (hkeys | hnone)
      · obtain ⟨parsed, -, -, -, -, -, hblock, -⟩ := hitems
        exact absurd hblock (parsedBlock_of_hasKeys hkeys _ parsed)
      · exact hitems.eq_of_nil hnone

/-- A block of entries that merges the texts of another category. -/
def dishesSample : Category :=
  { name := "dishes", region := none, placement := .dictBlock ⟨[], "\x7blocale\x7d: \x7b", []⟩ ["drinks"] [] }

/-- A file of it, with a first entry and what stands behind it. -/
def dishesText (first more : Text) : Text := "ar: \x7b\n  a: '" ++ first ++ "',\n" ++ more ++ "\x7d\n"

/-- The manifest and the contents of both categories. -/
def dishesInput (dishes drinks : FlatMap) : PatchInput where
  manifest := { artifacts := [{ path := "page.ts", categories := [dishesSample] }] }
  snapshot := { categories := [("dishes", (Content.map dishes).toJson), ("drinks", (Content.map drinks).toJson)] }

/-- Contents with a text for the first entry and two new texts. -/
def dishesGiven : PatchInput := dishesInput [("b", some "2"), ("d", some "4")] [("a", some "1"), ("b", some "5")]

/-- The same contents with the keys the other way round. -/
def dishesTurned : PatchInput := dishesInput [("d", some "4"), ("b", some "2")] [("b", some "5"), ("a", some "1")]

/-- The entry for a new text. -/
def dishesAppended (key : Text) : PatchEntry :=
  { category := "dishes", status := .updated, key := some key, detail := some "appended" }

/-- The entry for the text of the first entry. -/
def dishesUpdated : PatchEntry := { category := "dishes", status := .updated, key := some "a" }

theorem patchCategory_reordered_dishes : dishesGiven.SameMaps dishesTurned dishesSample ∧
    dishesSample.placement.IsKeyed ∧
      [dishesAppended "b", dishesAppended "d", dishesUpdated].Perm
        [dishesAppended "d", dishesAppended "b", dishesUpdated] ∧
      (dishesText "1" "  d: '4',\n  b: '5',\n" = dishesText "1" "  b: '5',\n  d: '4',\n" ∨
        Plan.SameItems dishesSample (dishesText "x" []) "ar"
          [dishesAppended "b", dishesAppended "d", dishesUpdated]
          [dishesAppended "d", dishesAppended "b", dishesUpdated]
          (dishesText "1" "  b: '5',\n  d: '4',\n") (dishesText "1" "  d: '4',\n  b: '5',\n")) := by
  have hsame : dishesGiven.SameMaps dishesTurned dishesSample := by
    refine ⟨rfl, .some (Json.sameMap_of_perm (by unfold OrderedMap.Distinct; decide) (List.Perm.swap ..)), ?_⟩
    rintro place merge defaults ⟨⟩ name hname
    obtain rfl := List.mem_singleton.1 hname
    exact .some (Json.sameMap_of_perm (by unfold OrderedMap.Distinct; decide) (List.Perm.swap ..))
  have hkind : dishesSample.placement.IsKeyed := .inr (.inl rfl)
  obtain ⟨hperm, -, htext⟩ := (patchCategory_reordered hsame hkind (dishesText "x" [])).2
    (dishesText "1" "  b: '5',\n  d: '4',\n") [dishesAppended "b", dishesAppended "d", dishesUpdated]
    (dishesText "1" "  d: '4',\n  b: '5',\n") [dishesAppended "d", dishesAppended "b", dishesUpdated]
    (by decide +kernel) (by decide +kernel)
  exact ⟨hsame, hkind, hperm, htext⟩

end PatchInput

end Bilingual

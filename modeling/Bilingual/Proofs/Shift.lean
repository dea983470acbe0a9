import Bilingual.Proofs.Patch

set_option autoImplicit false

/-! # Refused categories

An ordinal category whose sites have come or gone since the export is refused
(`PatchInput.result_patchCategory_refused`). The refusal leaves the text as it is, so what is patched behind it is
patched as if the category were not there, and the report has one entry for each number that has changed, in the order
of the numbers (`PatchInput.patchText_refuses`). Numbers that have not changed do not show at all
(`PatchInput.result_patchCategory_unrecorded`). -/

namespace Bilingual

/-- Sites are counted under distinct names. -/
theorem Category.distinct_ordinalCounts {c : Category} {text : Text} {locales : Locales} {counts : OrderedMap Nat}
    (h : c.ordinalCounts text locales = .ok counts) : OrderedMap.Distinct counts := by
  unfold ordinalCounts at h
  split at h
  · obtain ⟨pairs, -, h⟩ := Except.bind_eq_ok_iff.1 h
    cases h
    exact OrderedMap.distinct_ofPairs pairs
  · obtain ⟨block, -, h⟩ := Except.bind_eq_ok_iff.1 h
    cases block <;> cases h <;> exact List.nodup_singleton _
  · obtain ⟨block, -, h⟩ := Except.bind_eq_ok_iff.1 h
    cases block <;> cases h <;> exact List.nodup_singleton _
  · cases h
    exact OrderedMap.distinct_nil

namespace PatchInput

variable {input : PatchInput} {c : Category} {text : Text}

/-! ## Numbers that have changed -/

/-- The snapshot records another number of sites than there are. -/
def Shifted (input : PatchInput) (count : Text × Nat) : Prop :=
  ∃ expected, input.snapshot.expected? count.1 = some expected ∧ expected ≠ count.2

instance (input : PatchInput) (count : Text × Nat) : Decidable (input.Shifted count) :=
  decidable_of_iff (∃ expected ∈ input.snapshot.expected? count.1, expected ≠ count.2) Iff.rfl

/-- The entry that reports a changed number of sites. -/
def refusal (input : PatchInput) (c : Category) (count : Text × Nat) : PatchEntry where
  category := c.name
  status := .shifted
  key := some count.1
  detail := some ("expected " ++ Text.ofInt ((input.snapshot.expected? count.1).getD 0) ++ " occurrences, found " ++
    Text.ofNat count.2)

/-- The entries that report the changed numbers of sites, in the order of the numbers. -/
def refusals (input : PatchInput) (c : Category) (counts : OrderedMap Nat) : List PatchEntry :=
  (counts.filter input.Shifted).map (input.refusal c)

theorem shift?_eq (key : Text) (current : Nat) :
    input.shift? c key current =
      if input.Shifted (key, current) then some (input.refusal c (key, current)) else none := by
  by_cases hshifted : input.Shifted (key, current)
  · obtain ⟨expected, hexpected, hne⟩ := id hshifted
    have hexpected : input.snapshot.expected? key = some expected := hexpected
    have hne : ¬ expected = current := hne
    rw [if_pos hshifted, shift?, refusal, hexpected]
    dsimp only
    rw [if_neg hne]
    rfl
  · rw [if_neg hshifted, shift?_eq_none_iff]
    intro expected hexpected
    by_contra hne
    exact hshifted ⟨expected, hexpected, hne⟩

/-- Sites that are counted are refused for the numbers that have changed. -/
theorem result_shifts_eq_refusals {counts : OrderedMap Nat}
    (h : c.ordinalCounts text input.manifest.locales = .ok counts) :
    (input.shifts c text).result = .ok (input.refusals c counts) := by
  have hdistinct := Category.distinct_ordinalCounts h
  rw [result_shifts input c text h, OrderedMap.keys, List.filterMap_map, refusals, ← List.filterMap_eq_map,
    List.filterMap_filter]
  congr 1
  refine List.filterMap_congr ?_
  rintro ⟨key, current⟩ hmem
  simp only [Function.comp_apply, decide_eq_true_eq]
  rw [OrderedMap.lookup?_of_mem hdistinct hmem, Option.getD_some, shift?_eq]

/-! ## Refusing a category -/

/-- Contents in the snapshot that have the shape of their category are brought for it. -/
theorem given?_of_valid {raw : Json} {content : Content}
    (hraw : input.snapshot.categories.lookup? c.name = some raw)
    (hvalid : Content.ofJson c.placement.shape raw = .ok content) : input.given? c = some (.ok content) := by
  have hnull : raw ≠ .null := by
    rintro rfl
    cases hshape : c.placement.shape <;> rw [hshape] at hvalid <;> cases hvalid
  unfold given?
  rw [raw?_of_lookup? hraw hnull]
  dsimp only [Option.isNone, Bool.false_and, Option.getD_some]
  rw [hvalid]
  rfl

section Counted

variable {content : Content} {counts : OrderedMap Nat}

/-- A category with a changed number of sites is refused, and the text stays as it is. -/
theorem result_patchCategory_refused (hgiven : input.given? c = some (.ok content))
    (hcounts : c.ordinalCounts text input.manifest.locales = .ok counts)
    (hshifted : ∃ count ∈ counts, input.Shifted count) :
    (input.patchCategory c text).result = .ok (text, input.refusals c counts) := by
  have hrefusals : input.refusals c counts ≠ [] := by
    obtain ⟨count, hmem, hcount⟩ := hshifted
    exact List.ne_nil_of_mem (List.mem_map_of_mem (List.mem_filter.2 ⟨hmem, decide_eq_true hcount⟩))
  rw [result_patchCategory, hgiven]
  refine Except.bind_eq_ok_iff.2 ⟨_, result_shifts_eq_refusals hcounts, ?_⟩
  split
  · next hnil => exact absurd hnil hrefusals
  · rfl

/-! ## Numbers that are not recorded -/

/-- What is patched with when the snapshot does not tell where it comes from. -/
def unrecorded (input : PatchInput) : PatchInput :=
  { input with snapshot := { input.snapshot with provenance := none } }

/-- Numbers of sites that have not changed come to the same as none that are recorded. -/
theorem result_patchCategory_unrecorded (hcounts : c.ordinalCounts text input.manifest.locales = .ok counts)
    (hsame : ∀ count ∈ counts, ¬ input.Shifted count) :
    (input.patchCategory c text).result = (input.unrecorded.patchCategory c text).result := by
  have hnone : ∀ input' : PatchInput, (∀ count ∈ counts, ¬ input'.Shifted count) → input'.refusals c counts = [] := by
    intro input' h
    rw [refusals, List.map_eq_nil_iff, List.filter_eq_nil_iff]
    exact fun count hmem => by simpa using h count hmem
  have hcounts' : c.ordinalCounts text input.unrecorded.manifest.locales = .ok counts := hcounts
  have hshifts : (input.shifts c text).result = (input.unrecorded.shifts c text).result := by
    rw [result_shifts_eq_refusals hcounts, result_shifts_eq_refusals hcounts', hnone _ hsame, hnone input.unrecorded]
    rintro count - ⟨expected, hexpected, -⟩
    cases hexpected
  rw [result_patchCategory, result_patchCategory, hshifts]
  rfl

end Counted

/-! ## Runs -/

section Runs

variable {before after : List Category} {final : Text} {entries : List PatchEntry}

theorem patchText_cons_eq_ok_iff : (input.patchText text (c :: after)).result = .ok (final, entries) ↔
    ∃ between first others, (input.patchCategory c text).result = .ok (between, first) ∧
      (input.patchText between after).result = .ok (final, others) ∧ entries = first ++ others := by
  rw [result_patchText_cons, Except.bind_eq_ok_iff]
  constructor
  · rintro ⟨⟨between, first⟩, hfirst, h⟩
    obtain ⟨⟨final, others⟩, hothers, h⟩ := Except.bind_eq_ok_iff.1 h
    cases h
    exact ⟨between, first, others, hfirst, hothers, rfl⟩
  · rintro ⟨between, first, others, hfirst, hothers, rfl⟩
    exact ⟨(between, first), hfirst, Except.bind_eq_ok_iff.2 ⟨(final, others), hothers, rfl⟩⟩

/-- Categories in a row are patched like a first part of them and then the rest. -/
theorem patchText_append_eq_ok_iff : (input.patchText text (before ++ after)).result = .ok (final, entries) ↔
    ∃ between first others, (input.patchText text before).result = .ok (between, first) ∧
      (input.patchText between after).result = .ok (final, others) ∧ entries = first ++ others := by
  induction before generalizing text entries with
  | nil =>
    constructor
    · intro h
      exact ⟨text, [], entries, rfl, h, rfl⟩
    · rintro ⟨between, first, others, hbefore, hafter, rfl⟩
      cases hbefore
      exact hafter
  | cons c rest ih =>
    rw [List.cons_append, patchText_cons_eq_ok_iff]
    constructor
    · rintro ⟨patched, first, others, hfirst, h, rfl⟩
      obtain ⟨between, second, third, hsecond, hthird, rfl⟩ := ih.1 h
      exact ⟨between, first ++ second, third, patchText_cons_eq_ok_iff.2 ⟨patched, first, second, hfirst, hsecond, rfl⟩,
        hthird, (List.append_assoc ..).symm⟩
    · rintro ⟨between, both, third, hboth, hthird, rfl⟩
      obtain ⟨patched, first, second, hfirst, hsecond, rfl⟩ := patchText_cons_eq_ok_iff.1 hboth
      exact ⟨patched, first, second ++ third, hfirst, ih.2 ⟨between, second, third, hsecond, hthird, rfl⟩,
        List.append_assoc ..⟩

/-- Where the patching of an ordinal category has a result, its sites are counted. -/
theorem exists_ordinalCounts {content : Content} {patched : Text} (hgiven : input.given? c = some (.ok content))
    (h : (input.patchCategory c text).result = .ok (patched, entries)) :
    ∃ counts, c.ordinalCounts text input.manifest.locales = .ok counts := by
  rw [result_patchCategory, hgiven] at h
  obtain ⟨shifted, hshifted, -⟩ := Except.bind_eq_ok_iff.1 h
  cases hcounts : c.ordinalCounts text input.manifest.locales with
  | ok counts => exact ⟨counts, rfl⟩
  | error failure =>
    rw [result_shifts_of_error input c text hcounts] at hshifted
    cases hshifted

/-- A category that the snapshot has contents for is refused if numbers of its sites have changed since the export, as
the categories in front of it leave them. A refused category leaves no other trace: all else is patched as if it were
not there, and its place in the report has one entry for each changed number. If no number has changed, the category is
patched as if none had been recorded. A category that is not ordinal has no such numbers. -/
theorem patchText_refuses {raw : Json} {content : Content}
    (hraw : input.snapshot.categories.lookup? c.name = some raw)
    (hvalid : Content.ofJson c.placement.shape raw = .ok content)
    (hrun : (input.patchText text (before ++ c :: after)).result = .ok (final, entries)) :
    ∃ between first counts, (input.patchText text before).result = .ok (between, first) ∧
      c.ordinalCounts between input.manifest.locales = .ok counts ∧ OrderedMap.Distinct counts ∧
      ((∃ count ∈ counts, input.Shifted count) →
        ∃ others, (input.patchText text (before ++ after)).result = .ok (final, first ++ others) ∧
          entries = first ++ input.refusals c counts ++ others) ∧
      ((∀ count ∈ counts, ¬ input.Shifted count) →
        (input.patchCategory c between).result = (input.unrecorded.patchCategory c between).result) := by
  have hgiven := given?_of_valid hraw hvalid
  obtain ⟨between, first, rest, hbefore, hrest, rfl⟩ := patchText_append_eq_ok_iff.1 hrun
  obtain ⟨patched, own, others, hown, hothers, rfl⟩ := patchText_cons_eq_ok_iff.1 hrest
  obtain ⟨counts, hcounts⟩ := exists_ordinalCounts hgiven hown
  refine ⟨between, first, counts, hbefore, hcounts, Category.distinct_ordinalCounts hcounts, fun hshifted => ?_,
    result_patchCategory_unrecorded hcounts⟩
  rw [result_patchCategory_refused hgiven hcounts hshifted] at hown
  cases hown
  refine ⟨others, patchText_append_eq_ok_iff.2 ⟨between, first, others, hbefore, hothers, rfl⟩, ?_⟩
  rw [List.append_assoc]

end Runs

/-- A keyed pair. -/
def shiftLinks : Category := { name := "links", region := none, placement := .keyedPairs "to" "name" [] }

/-- Two fields of pairs. -/
def shiftLabels : Category :=
  { name := "labels", region := none, placement := .pairs [⟨"label", none, none⟩, ⟨"title", none, none⟩] [] }

/-- A choice. -/
def shiftWords : Category := { name := "words", region := none, placement := .choices "is_\x7blocale\x7d" [] }

/-- A file of them. -/
def shiftText (link word : Text) : Text :=
  "to: '/x', name: \x7b en: 'A', ar: '" ++ link ++ "' \x7d\nlabel: \x7b en: 'B', ar: 'Q' \x7d\nis_ar ? '" ++ word ++
    "' : 'C'\n"

/-- A translation of the link that itself looks like a label. -/
def shiftLink : Text := "label: \x7b en: \"N\", ar: \"M\" \x7d"

/-- A translation of the label. -/
def shiftContent : Content := .records [some [("label", some "Z")]]

/-- Translations of all three, and the numbers of sites that the file has: one label and no title. -/
def shiftInput : PatchInput where
  manifest := { artifacts := [{ path := "page.ts", categories := [shiftLinks, shiftLabels, shiftWords] }] }
  snapshot := {
    categories := [("links", (Content.map [("/x", some shiftLink)]).toJson), ("labels", shiftContent.toJson),
      ("words", (Content.map [("C", some "W")]).toJson)]
    provenance := some { occurrences := [("labels.label", 1), ("labels.title", 0)] } }

/-- The translated link makes a second label, so the labels behind it are refused. -/
theorem patchText_refuses_label :
    let entries : List PatchEntry := [
      { category := "links", status := .updated, key := some "/x" },
      { category := "labels", status := .shifted, key := some "labels.label"
        detail := some "expected 1 occurrences, found 2" },
      { category := "words", status := .updated, key := some "C" }]
    shiftInput.snapshot.categories.lookup? shiftLabels.name = some shiftContent.toJson ∧
      Content.ofJson shiftLabels.placement.shape shiftContent.toJson = .ok shiftContent ∧
      (shiftInput.patchText (shiftText "P" "R") ([shiftLinks] ++ shiftLabels :: [shiftWords])).result =
        .ok (shiftText shiftLink "W", entries) ∧
      ∃ first others,
        (shiftInput.patchText (shiftText "P" "R") ([shiftLinks] ++ [shiftWords])).result =
          .ok (shiftText shiftLink "W", first ++ others) ∧
        entries = first ++ [shiftInput.refusal shiftLabels ("labels.label", 2)] ++ others := by
  intro entries
  have hraw : shiftInput.snapshot.categories.lookup? shiftLabels.name = some shiftContent.toJson := by decide
  have hvalid : Content.ofJson shiftLabels.placement.shape shiftContent.toJson = .ok shiftContent := by decide
  have hrun : (shiftInput.patchText (shiftText "P" "R") ([shiftLinks] ++ shiftLabels :: [shiftWords])).result =
      .ok (shiftText shiftLink "W", entries) := by decide +kernel
  refine ⟨hraw, hvalid, hrun, ?_⟩
  obtain ⟨between, first, counts, hbefore, hcounts, -, hrefused, -⟩ := patchText_refuses hraw hvalid hrun
  have hlink : (shiftInput.patchText (shiftText "P" "R") [shiftLinks]).result =
      .ok (shiftText shiftLink "R", entries.take 1) := by decide +kernel
  cases hlink.symm.trans hbefore
  have htwo : shiftLabels.ordinalCounts (shiftText shiftLink "R") shiftInput.manifest.locales =
      .ok [("labels.label", 2), ("labels.title", 0)] := by decide +kernel
  cases htwo.symm.trans hcounts
  obtain ⟨others, hothers, hentries⟩ := hrefused (by decide)
  exact ⟨_, others, hothers, hentries⟩

end PatchInput

end Bilingual

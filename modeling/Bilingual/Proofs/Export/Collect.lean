import Bilingual.Export.Collect
import Bilingual.Proofs.Export.Contents
import Bilingual.Proofs.Reference

set_option autoImplicit false

/-! # What an export records

An export has for every category of a file what the file has for it, and where the file has nothing what stands in for
it (`Export.has_of_addArtifact`). Categories with other names do not disturb what is recorded. In the secondary locale
and without a reference nothing but empty contents stand in (`Export.Has.recorded`). -/

namespace Bilingual

theorem Content.eq_empty_of_isEmpty {content : Content} (h : content.isEmpty = true) :
    content = .empty content.shape := by
  cases content with
  | map texts => rw [List.eq_nil_of_length_eq_zero (l := texts) (by simpa [isEmpty, size] using h)]; rfl
  | records items => rw [List.eq_nil_of_length_eq_zero (l := items) (by simpa [isEmpty, size] using h)]; rfl
  | keyedRecords items =>
    rw [List.eq_nil_of_length_eq_zero (l := items) (by simpa [isEmpty, size] using h)]
    rfl

/-! ## What stands in for missing contents -/

theorem Placement.shape_defaults (placement : Placement) : placement.defaults.shape = placement.shape := by
  cases placement <;> rfl

namespace AnyCategory

variable {reference : Reference} {locale : Text}

theorem shape_defaults (c : AnyCategory) : c.defaults.shape = c.shape := by
  cases c with
  | artifact c => exact c.placement.shape_defaults
  | reference c => rfl

/-- What stands in for missing contents is what the reference has, the defaults in the primary locale, or nothing. -/
theorem fallback_cases (c : AnyCategory) (locales : Locales) (locale : Text) (reference : Reference) :
    reference.contents? c.name c.shape locale locales.primary = some (c.fallback locales locale reference).1 ∨
      (locale = locales.primary ∧ (c.fallback locales locale reference).1 = c.defaults) ∨
      (c.fallback locales locale reference).1 = Content.empty c.shape := by
  unfold fallback
  dsimp only
  cases hknown : (reference.contents? c.name c.shape locale locales.primary).filter (!·.isEmpty) with
  | some content =>
    obtain ⟨hcontents, -⟩ := Option.filter_eq_some_iff.1 hknown
    exact .inl hcontents
  | none =>
    dsimp only
    split_ifs with hdefaults
    · exact .inr (.inl ⟨hdefaults.1, rfl⟩)
    · exact .inr (.inr rfl)

/-- It has the shape of the category. -/
theorem shape_fallback (c : AnyCategory) (locales : Locales) (locale : Text) (reference : Reference) :
    (c.fallback locales locale reference).1.shape = c.shape := by
  rcases c.fallback_cases locales locale reference with hcontents | ⟨-, hdefaults⟩ | hempty
  · exact Reference.shape_of_contents? hcontents
  · rw [hdefaults, c.shape_defaults]
  · rw [hempty, Content.shape_empty]

/-- It has distinct keys if the defaults of the category have. -/
theorem distinct_fallback {c : AnyCategory} (hdefaults : c.defaults.Distinct) (hsound : reference.IsSound)
    (locales : Locales) (locale : Text) : (c.fallback locales locale reference).1.Distinct := by
  rcases c.fallback_cases locales locale reference with hcontents | ⟨-, h⟩ | hempty
  · exact hsound.distinct_of_contents? hcontents
  · rw [h]
    exact hdefaults
  · rw [hempty]
    exact Content.distinct_empty _

end AnyCategory

/-! ## What is exported for a category of a file -/

namespace Category

variable {c : Category} {path text : Text} {locales : Locales} {locale : Text} {reference : Reference}

/-- What reading a category in a text comes to: its contents, or none when a body there has no end. -/
def Found (c : Category) (text : Text) (locales : Locales) (locale : Text)
    (found : Option Content) : Prop :=
  c.contents? text locales locale = .ok found ∨
    (found = none ∧ ∃ delimiter start, c.contents? text locales locale = .error (.unterminated delimiter start))

/-- A file counts as having the contents that are read in it, unless they hold nothing. -/
theorem found?_eq_ok {given : Option Content} (h : (c.found? path text locales locale).result = .ok given) :
    ∃ found, c.Found text locales locale found ∧ given = found.filter (!·.isEmpty) := by
  unfold found? at h
  cases hcontents : c.contents? text locales locale with
  | ok found =>
    rw [hcontents] at h
    cases h
    exact ⟨found, .inl hcontents, rfl⟩
  | error failure =>
    rw [hcontents] at h
    cases failure with
    | unterminated delimiter start =>
      cases h
      exact ⟨none, .inr ⟨rfl, delimiter, start, hcontents⟩, rfl⟩
    | _ => cases h

/-- What a file has for a category has the shape of its kind. -/
theorem shape_of_found? {content : Content} (h : (c.found? path text locales locale).result = .ok (some content)) :
    content.shape = c.placement.shape := by
  obtain ⟨found, hcontents | ⟨rfl, -⟩, hgiven⟩ := found?_eq_ok h
  · obtain ⟨rfl, -⟩ := Option.filter_eq_some_iff.1 hgiven.symm
    exact (shape_distinct_of_contents? hcontents).1
  · cases hgiven

/-- What is exported for a category of a file: what the file counts as having, and else what stands in for it. -/
def Exports (c : Category) (text : Text) (locales : Locales) (locale : Text) (reference : Reference)
    (content : Content) : Prop :=
  ∃ found, c.Found text locales locale found ∧
    content = (found.filter (!·.isEmpty)).getD (AnyCategory.fallback (.artifact c) locales locale reference).1

/-- What is exported has the shape of its kind, and the maps in it have distinct keys, unless it stands in for missing
contents. -/
theorem Exports.shape_distinct {content : Content} (h : c.Exports text locales locale reference content) :
    content.shape = c.placement.shape ∧
      (content.Distinct ∨ content = (AnyCategory.fallback (.artifact c) locales locale reference).1) := by
  obtain ⟨found, hfound, rfl⟩ := h
  cases hfilter : found.filter (!·.isEmpty) with
  | none => exact ⟨AnyCategory.shape_fallback _ _ _ _, .inr rfl⟩
  | some content =>
    obtain ⟨rfl, -⟩ := Option.filter_eq_some_iff.1 hfilter
    rcases hfound with hcontents | ⟨hnone, -⟩
    · obtain ⟨hshape, hdistinct⟩ := shape_distinct_of_contents? hcontents
      exact ⟨hshape, .inl hdistinct⟩
    · cases hnone

/-- Without a reference empty contents stand in for missing ones of the secondary locale, so contents that hold nothing
stand for themselves. -/
theorem Exports.exported {content : Content} (hlocale : locale ≠ locales.primary)
    (h : c.Exports text locales locale none content) :
    ∃ found, c.Found text locales locale found ∧ content = c.exported found := by
  obtain ⟨found, hfound, rfl⟩ := h
  have hfallback : (AnyCategory.fallback (.artifact c) locales locale none).1 = Content.empty c.placement.shape := by
    rcases AnyCategory.fallback_cases (.artifact c) locales locale none with hcontents | ⟨hprimary, -⟩ | hempty
    · cases hcontents
    · exact absurd hprimary hlocale
    · exact hempty
  refine ⟨found, hfound, ?_⟩
  rw [hfallback]
  cases found with
  | none => rfl
  | some content =>
    rcases hfound with hcontents | ⟨hnone, -⟩
    · cases hempty : content.isEmpty with
      | true =>
        rw [Option.filter_some, hempty, ← (shape_distinct_of_contents? hcontents).1,
          ← Content.eq_empty_of_isEmpty hempty]
        rfl
      | false =>
        rw [Option.filter_some, hempty]
        rfl
    · cases hnone

end Category

/-! ## Exports -/

namespace Export

variable {m : Manifest} {reference : Reference} {e e' : Export} {path text : Text} {c : Category}

/-- An export has what is exported for a category of a file. -/
def Has (e : Export) (m : Manifest) (reference : Reference) (text : Text) (c : Category) : Prop :=
  ∃ content, OrderedMap.lookup? e.contents c.name = some content ∧
    c.Exports text m.locales e.locale reference content

/-- An export records what a file has for a category. -/
def Recorded (e : Export) (m : Manifest) (text : Text) (c : Category) : Prop :=
  ∃ found, OrderedMap.lookup? e.contents c.name = some (c.exported found) ∧
    c.Found text m.locales e.locale found

theorem Has.recorded (hlocale : e.locale ≠ m.locales.primary) (h : e.Has m none text c) : e.Recorded m text c := by
  obtain ⟨content, hlookup, hexports⟩ := h
  obtain ⟨found, hfound, rfl⟩ := hexports.exported hlocale
  exact ⟨found, hlookup, hfound⟩

theorem Has.mono (h : Has e m reference text c) (hlocale : e'.locale = e.locale)
    (hlookup : OrderedMap.lookup? e'.contents c.name = OrderedMap.lookup? e.contents c.name) :
    Has e' m reference text c := by
  unfold Has
  rw [hlocale, hlookup]
  exact h

theorem addCategory_eq_ok (h : (addCategory m reference path text e c).result = .ok e') :
    e'.locale = e.locale ∧ ∃ content, e'.contents = OrderedMap.put e.contents c.name content ∧
      c.Exports text m.locales e.locale reference content := by
  unfold addCategory at h
  rw [Logged.result_bind] at h
  obtain ⟨given, hgiven, h⟩ := Except.bind_eq_ok_iff.1 h
  obtain ⟨found, hfound, rfl⟩ := Category.found?_eq_ok hgiven
  cases hfilter : found.filter (!·.isEmpty) with
  | some content =>
    rw [hfilter, Logged.result_bind] at h
    obtain ⟨counts, -, h⟩ := Except.bind_eq_ok_iff.1 h
    cases h
    exact ⟨rfl, content, rfl, found, hfound, by rw [hfilter]; rfl⟩
  | none =>
    rw [hfilter] at h
    cases h
    exact ⟨rfl, _, rfl, found, hfound, by rw [hfilter]; rfl⟩

/-- An export has all categories of a file, if their names differ, and nothing else in it changes. -/
theorem has_of_addArtifact {a : Artifact} (h : (e.addArtifact m reference text a).result = .ok e') :
    e'.locale = e.locale ∧
      (∀ name, name ∉ a.categories.map Category.name →
        OrderedMap.lookup? e'.contents name = OrderedMap.lookup? e.contents name) ∧
      ((a.categories.map Category.name).Nodup → ∀ c ∈ a.categories, Has e' m reference text c) := by
  unfold addArtifact at h
  rw [Logged.result_foldlM] at h
  generalize a.categories = cs at h ⊢
  induction cs generalizing e with
  | nil =>
    cases h
    exact ⟨rfl, fun _ _ => rfl, by simp⟩
  | cons c rest ih =>
    rw [List.foldlM_cons] at h
    obtain ⟨between, hc, h⟩ := Except.bind_eq_ok_iff.1 h
    obtain ⟨hsame, content, hput, hexports⟩ := addCategory_eq_ok hc
    obtain ⟨hlocale', hothers, hrest⟩ := ih h
    -- what the first category records is not touched by the others, whose names differ
    refine ⟨hlocale'.trans hsame, fun name hname => ?_, fun hnodup => List.forall_mem_cons.2 ⟨?_, ?_⟩⟩
    · rw [List.map_cons, List.mem_cons, not_or] at hname
      rw [hothers name hname.2, hput, OrderedMap.lookup?_put_of_ne _ _ (Ne.symm hname.1)]
    · rw [List.map_cons, List.nodup_cons] at hnodup
      refine ⟨content, ?_, ?_⟩
      · rw [hothers _ hnodup.1, hput, OrderedMap.lookup?_put_self]
      · rw [hlocale', hsame]
        exact hexports
    · rw [List.map_cons, List.nodup_cons] at hnodup
      exact hrest hnodup.2

/-- What stands in for missing contents is recorded for reference categories, if their names differ, and nothing else
changes. -/
theorem addReferences_spec (reference : Reference) :
    (e.addReferences m reference).locale = e.locale ∧
      (∀ name, name ∉ m.references.map ReferenceCategory.name →
        OrderedMap.lookup? (e.addReferences m reference).contents name = OrderedMap.lookup? e.contents name) ∧
      ((m.references.map ReferenceCategory.name).Nodup → ∀ c ∈ m.references,
        OrderedMap.lookup? (e.addReferences m reference).contents c.name =
          some (AnyCategory.fallback (.reference c) m.locales e.locale reference).1) := by
  unfold addReferences
  generalize m.references = references
  induction references generalizing e with
  | nil => exact ⟨rfl, fun _ _ => rfl, by simp⟩
  | cons c rest ih =>
    rw [List.foldl_cons]
    obtain ⟨hlocale, hothers, hrest⟩ := ih (e := e.add (.reference c) none
      (AnyCategory.fallback (.reference c) m.locales e.locale reference).2
      (AnyCategory.fallback (.reference c) m.locales e.locale reference).1 [])
    refine ⟨hlocale, fun name hname => ?_, fun hnodup => List.forall_mem_cons.2 ⟨?_, ?_⟩⟩
    · rw [List.map_cons, List.mem_cons, not_or] at hname
      rw [hothers name hname.2]
      exact OrderedMap.lookup?_put_of_ne _ _ (Ne.symm hname.1)
    · rw [List.map_cons, List.nodup_cons] at hnodup
      rw [hothers _ hnodup.1]
      exact OrderedMap.lookup?_put_self ..
    · rw [List.map_cons, List.nodup_cons] at hnodup
      exact hrest hnodup.2

end Export

end Bilingual

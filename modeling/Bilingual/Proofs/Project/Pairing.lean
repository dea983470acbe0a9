import Bilingual.Proofs.Export.Pairing
import Bilingual.Proofs.Export.Parallel
import Bilingual.Proofs.Project.Export

set_option autoImplicit false

/-! # The bilingual document of a project made again

The bilingual document of a project is a fixed point: made again from the same files with itself as the reference, it
is the same document, in the same order (`Project.pairLocales_again`). What stands in for missing contents in the
second run is what the first run wrote for them, unless that holds nothing, and then there was nothing to stand in for
them in the first run either (`AnyCategory.Stands.again`). -/

namespace Bilingual

/-! ## What stands in for missing contents -/

namespace AnyCategory

variable {c : AnyCategory} {locales : Locales} {locale : Text} {reference : Reference}

/-- With a document whose contents hold nothing only if those of an export did, the export has what it had, or what
the document has. -/
theorem Stands.again {document : OrderedMap Json} {content content' known : Content}
    (h : c.Stands locales locale reference (some document) content content')
    (hknown : Reference.contents? (some document) c.name c.shape locale locales.primary = some known)
    (hempty : known.isEmpty = true → content.isEmpty = true) :
    content' = content ∨ Reference.contents? (some document) c.name c.shape locale locales.primary = some content' := by
  rcases h.same_or_fallback with hsame | ⟨hfirst, hsecond⟩
  · exact .inl hsame
  cases hnothing : known.isEmpty with
  | false =>
    have hfilter : (Reference.contents? (some document) c.name c.shape locale locales.primary).filter (!·.isEmpty) =
        some known := by
      rw [hknown, Option.filter_some, hnothing]
      rfl
    right
    rw [hsecond, fallback]
    simp only [hfilter]
    exact hknown
  | true =>
    left
    have hnone : (Reference.contents? (some document) c.name c.shape locale locales.primary).filter (!·.isEmpty) =
        none := by
      rw [hknown, Option.filter_some, hnothing]
      rfl
    -- what stood in for missing contents holds nothing, so it was not the defaults
    have hdefaults : ¬ (locale = locales.primary ∧ (!c.defaults.isEmpty) = true) := by
      intro hdefaults
      have hnonempty : (c.fallback locales locale reference).1.isEmpty = false := by
        unfold fallback
        dsimp only
        cases hgiven : (reference.contents? c.name c.shape locale locales.primary).filter (!·.isEmpty) with
        | some given => simpa using (Option.filter_eq_some_iff.1 hgiven).2
        | none =>
          dsimp only
          rw [if_pos hdefaults]
          simpa using hdefaults.2
      rw [← hfirst, hempty hnothing] at hnonempty
      cases hnonempty
    have hcontent' : content' = .empty c.shape := by
      rw [hsecond, fallback]
      simp only [hnone, if_neg hdefaults]
    rw [hcontent', ← h.shape_eq, ← Content.eq_empty_of_isEmpty (hempty hnothing)]

end AnyCategory

namespace Pairing

variable {m : Manifest} {reference : Reference} {primary secondary primary' secondary' : Export} {time : Text}

/-- Every category has its contents in the document under its name. -/
theorem lookup?_document (primary secondary : Export) (time : Text)
    (hnames : (m.categories.map AnyCategory.name).Nodup) {c : AnyCategory}
    (hc : c ∈ m.categories) :
    OrderedMap.lookup? (document m primary secondary time) c.name = some (contents m.locales c.shape
      (primary.contents.lookup? c.name) (secondary.contents.lookup? c.name)) := by
  refine OrderedMap.lookup?_putAll_of_mem _ ?_ (List.mem_map_of_mem hc)
  unfold OrderedMap.Distinct
  rw [OrderedMap.keys, List.map_map]
  exact hnames

/-- The document is made again of exports that use it. -/
theorem document_again (hnames : (m.categories.map AnyCategory.name).Nodup)
    (hlocales : m.secondaryLocale ≠ m.primaryLocale)
    (hprimary : Export.Parallel m reference (some (document m primary secondary time)) m.primaryLocale m.categories
      primary primary')
    (hsecondary : Export.Parallel m reference (some (document m primary secondary time)) m.secondaryLocale m.categories
      secondary secondary') : document m primary' secondary' time = document m primary secondary time := by
  refine congrArg (OrderedMap.putAll _) (List.map_congr_left fun c hc => ?_)
  obtain ⟨a, a', ha, ha', hfirst⟩ := hprimary.stands c hc
  obtain ⟨b, b', hb, hb', hsecond⟩ := hsecondary.stands c hc
  have hraw := lookup?_document primary secondary time hnames hc
  rw [ha, hb] at hraw ⊢
  rw [ha', hb']
  obtain ⟨known, hknown, hempty⟩ := exists_contents? hfirst.shape_eq hsecond.shape_eq hraw m.primaryLocale
  obtain ⟨known', hknown', hempty'⟩ := exists_contents? hfirst.shape_eq hsecond.shape_eq hraw m.secondaryLocale
  have hagain := contents_again hlocales hfirst.shape_eq hsecond.shape_eq hraw
    (hfirst.again hknown fun h => (hempty h).1) (hsecond.again hknown' fun h => (hempty' h).2)
  rw [hagain]

end Pairing

namespace Project

variable {p : Project} {files : Files} {reference reference' : Reference} {locale time : Text}

/-- An artifact is added to both exports. -/
theorem exportArtifact_parallel {done : List AnyCategory} {e e' e₁ : Export} {a : Artifact}
    (h : Export.Parallel p.manifest reference reference' locale done e e')
    (hnames : ((done ++ a.categories.map AnyCategory.artifact).map AnyCategory.name).Nodup)
    (hstep : (p.exportArtifact reference e a files).result = .ok e₁) :
    ∃ e₁', (p.exportArtifact reference' e' a files).result = .ok e₁' ∧
      Export.Parallel p.manifest reference reference' locale (done ++ a.categories.map AnyCategory.artifact) e₁
        e₁' := by
  obtain ⟨text, htext, hstep⟩ := exportArtifact_eq_ok_iff.1 hstep
  obtain ⟨e₁', hstep', h₁⟩ := h.addArtifact hnames hstep
  exact ⟨e₁', exportArtifact_eq_ok_iff.2 ⟨text, htext, hstep'⟩, h₁⟩

/-- Where an export completes with one reference, it does with any other, and both have the same contents but for what
stands in for missing ones. -/
theorem parallel_of_collect (hnames : (p.manifest.categories.map AnyCategory.name).Nodup)
    (htarget : Export.target p.manifest.locales (some locale) = .ok locale) {e : Export}
    (h : (p.collect (some locale) reference files).result = .ok e) (reference' : Reference) :
    ∃ e', (p.collect (some locale) reference' files).result = .ok e' ∧
      Export.Parallel p.manifest reference reference' locale p.manifest.categories e e' := by
  rw [result_collect, htarget] at h
  obtain ⟨found, hfound, rfl⟩ := Except.map_eq_ok_iff.1 h
  have hfiles : (([] ++ p.manifest.artifacts.flatMap fun a : Artifact => a.categories.map AnyCategory.artifact).map
      AnyCategory.name).Nodup := (List.nodup_append.1 (List.map_append ▸ hnames)).1
  have hstart := Export.parallel_start p.manifest reference reference' locale
  obtain ⟨found', hfound', hparallel⟩ := hstart.foldlM exportArtifact_parallel hfiles hfound
  refine ⟨found'.addReferences p.manifest reference', ?_, hparallel.addReferences hnames⟩
  rw [result_collect, htarget]
  exact Except.map_eq_ok_iff.2 ⟨found', hfound', rfl⟩

theorem pairLocales_eq_ok_iff {document : OrderedMap Json} :
    (p.pairLocales reference time files).result = .ok document ↔ ∃ primary secondary,
      (p.collect (some p.manifest.primaryLocale) reference files).result = .ok primary ∧
      (p.collect (some p.manifest.secondaryLocale) reference files).result = .ok secondary ∧
      document = Pairing.document p.manifest primary secondary time := by
  unfold pairLocales
  rw [(p.collect_leaves _ reference files).result_bind]
  refine Except.bind_eq_ok_iff.trans (exists_congr fun primary => ?_)
  rw [(p.collect_leaves _ reference files).result_bind]
  constructor
  · rintro ⟨hprimary, h⟩
    obtain ⟨secondary, hsecondary, h⟩ := Except.bind_eq_ok_iff.1 h
    cases h
    exact ⟨secondary, hprimary, hsecondary, rfl⟩
  · rintro ⟨secondary, hprimary, hsecondary, rfl⟩
    exact ⟨hprimary, Except.bind_eq_ok_iff.2 ⟨secondary, hsecondary, rfl⟩⟩

/-- For every manifest with different locales, all files and every reference, or none: where the bilingual document of
a project can be made, it can be made again with itself as the reference, and it is the same document, all keys in the
same order. -/
theorem pairLocales_again (hnames : (p.manifest.categories.map AnyCategory.name).Nodup)
    (hlocales : p.manifest.secondaryLocale ≠ p.manifest.primaryLocale) (hnonempty : p.manifest.secondaryLocale ≠ [])
    {document : OrderedMap Json} (h : (p.pairLocales reference time files).result = .ok document) :
    (p.pairLocales (some document) time files).result = .ok document := by
  obtain ⟨primary, secondary, hprimary, hsecondary, rfl⟩ := pairLocales_eq_ok_iff.1 h
  obtain ⟨primary', hprimary', hfirst⟩ := parallel_of_collect hnames (Export.target_primary p.manifest) hprimary
    (some (Pairing.document p.manifest primary secondary time))
  obtain ⟨secondary', hsecondary', hsecond⟩ := parallel_of_collect hnames (Export.target_secondary hnonempty) hsecondary
    (some (Pairing.document p.manifest primary secondary time))
  refine pairLocales_eq_ok_iff.2 ⟨primary', secondary', hprimary', hsecondary', ?_⟩
  exact (Pairing.document_again hnames hlocales hfirst hsecond).symm

/-- A pair, a list that the file has in one locale, records that no file has, and texts without a file. -/
def mixedSample : Project where
  directory := ⟨"/", []⟩
  manifest := {
    artifacts := [{ path := "page.ts", categories := [
      { name := "labels", region := none, placement := .pairs [⟨"label", none, none⟩] [] },
      { name := "rows", region := none, placement := .listBlock ⟨[], "\x7blocale\x7d: [", []⟩ "value" [] },
      { name := "cards", region := none
        placement := .keyedRecordBlock ⟨[], "cards \x7blocale\x7d: \x7b", []⟩ ["title"] [] }] }]
    references := [{ name := "extra", region := none, defaults := [("k", "v")] }] }

def mixedFiles : Files where
  directories := []
  contents := [("/page.ts",
    (Text.Utf8.encode? (Text.ofString "label: \x7b en: 'A', ar: 'P' \x7d\nar: ['x', 'y']")).getD [])]

/-- An old reference with a record that is missing, a bare text, and one text that is none. -/
def mixedReference : OrderedMap Json := [
  ("rows", .list [.null, .object [("note", .object [("ar", .text "n"), ("en", .integer 0)]), ("value", .text "z")]]),
  ("cards", .object [("b", .null), ("a", .object [("title", .object [("ar", .text "t")])])])]

/-- What is made of them: the fields of a row come in the order of the primary locale, which only the reference has. -/
def mixedDocument : OrderedMap Json := [
  (metaKey, .object [("generated_at", .text "t"), ("primary_locale", .text "en"), ("secondary_locale", .text "ar")]),
  ("labels", .list [.object [("label", .object [("en", .text "A"), ("ar", .text "P")])]]),
  ("rows", .list [.object [("value", .object [("en", .null), ("ar", .text "x")])],
    .object [("note", .object [("en", .null), ("ar", .null)]),
      ("value", .object [("en", .text "z"), ("ar", .text "y")])]]),
  ("cards", .object [("b", .object []), ("a", .object [("title", .object [("en", .null), ("ar", .text "t")])])]),
  ("extra", .object [("k", .object [("en", .text "v"), ("ar", .null)])])]

theorem pairLocales_again_mixed :
    (mixedSample.manifest.categories.map AnyCategory.name).Nodup ∧
      mixedSample.manifest.secondaryLocale ≠ mixedSample.manifest.primaryLocale ∧
      mixedSample.manifest.secondaryLocale ≠ [] ∧
      (mixedSample.pairLocales (some mixedReference) "t" mixedFiles).result = .ok mixedDocument ∧
      (mixedSample.pairLocales (some mixedDocument) "t" mixedFiles).result = .ok mixedDocument := by
  have hnames : (mixedSample.manifest.categories.map AnyCategory.name).Nodup := by decide
  have hlocales : mixedSample.manifest.secondaryLocale ≠ mixedSample.manifest.primaryLocale := by decide
  have hnonempty : mixedSample.manifest.secondaryLocale ≠ [] := by decide
  have hfirst : (mixedSample.pairLocales (some mixedReference) "t" mixedFiles).result = .ok mixedDocument := by
    decide +kernel
  exact ⟨hnames, hlocales, hnonempty, hfirst, pairLocales_again hnames hlocales hnonempty hfirst⟩

end Project

end Bilingual

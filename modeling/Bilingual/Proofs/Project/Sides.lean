import Bilingual.Proofs.Export.Sides
import Bilingual.Proofs.Export.Sites
import Bilingual.Proofs.Project.Pairing

set_option autoImplicit false

/-! # Both exports in the bilingual document of a project

The bilingual document of a project is both of its exports in one: what it has for a category in either locale has the
same texts as the export in that locale, at the same places (`Project.pairLocales_sides`). For pairs and for texts that
are keyed at their sites it has the sites of their file, if there are any, and nothing else
(`Project.pairLocales_sites`). -/

namespace Bilingual

namespace Project

variable {p : Project} {files : Files} {reference : Reference} {time : Text} {document : OrderedMap Json}

/-- The bilingual document is made of an export in each locale, and has for every category what these have for it. -/
theorem exists_exports_of_pairLocales (hnames : (p.manifest.categories.map AnyCategory.name).Nodup)
    (hnonempty : p.manifest.secondaryLocale ≠ []) (h : (p.pairLocales reference time files).result = .ok document) :
    ∃ primary secondary,
      (p.collect (some p.manifest.primaryLocale) reference files).result = .ok primary ∧
      (p.collect (some p.manifest.secondaryLocale) reference files).result = .ok secondary ∧
      ∀ c ∈ p.manifest.categories, ∃ a b, OrderedMap.lookup? primary.contents c.name = some a ∧
        OrderedMap.lookup? secondary.contents c.name = some b ∧ a.shape = c.shape ∧ b.shape = c.shape ∧
        OrderedMap.lookup? document c.name = some (Pairing.contents p.manifest.locales c.shape (some a) (some b)) := by
  obtain ⟨primary, secondary, hprimary, hsecondary, rfl⟩ := pairLocales_eq_ok_iff.1 h
  refine ⟨primary, secondary, hprimary, hsecondary, fun c hc => ?_⟩
  obtain ⟨a, ha, hfirst, -⟩ := shape_distinct_of_collect hnames (Export.target_primary p.manifest) hprimary hc
  obtain ⟨b, hb, hsecond, -⟩ := shape_distinct_of_collect hnames (Export.target_secondary hnonempty) hsecondary hc
  have hraw := Pairing.lookup?_document primary secondary time hnames hc
  rw [ha, hb] at hraw
  exact ⟨a, b, ha, hb, hfirst, hsecond, hraw⟩

/-- For every manifest with different locales, all files and every old reference, or none: where the bilingual document
of a project can be made, an export in either locale can be made of the same, and both have the same texts for every
category at the same places. A text, a key, a field or a record that is missing, or is null, is no text. -/
theorem pairLocales_sides (hnames : (p.manifest.categories.map AnyCategory.name).Nodup)
    (hlocales : p.manifest.secondaryLocale ≠ p.manifest.primaryLocale) (hnonempty : p.manifest.secondaryLocale ≠ [])
    (h : (p.pairLocales reference time files).result = .ok document) {locale : Text}
    (hlocale : locale = p.manifest.primaryLocale ∨ locale = p.manifest.secondaryLocale) :
    ∃ e, (p.collect (some locale) reference files).result = .ok e ∧
      ∀ c ∈ p.manifest.categories, ∃ content known : Content,
        OrderedMap.lookup? (e.snapshot p.manifest.locales time).categories c.name = some content.toJson ∧
        Reference.contents? (some document) c.name c.shape locale p.manifest.primaryLocale = some known ∧
        content.shape = c.shape ∧ known.shape = c.shape ∧ ∀ place, known.textAt? place = content.textAt? place := by
  obtain ⟨primary, secondary, hprimary, hsecondary, hcontents⟩ := exists_exports_of_pairLocales hnames hnonempty h
  refine ⟨p.manifest.locales.side locale primary secondary, ?_, fun c hc => ?_⟩
  · rcases hlocale with rfl | rfl
    · exact hprimary.trans (congrArg Except.ok (p.manifest.locales.side_primary _ _).symm)
    · exact hsecondary.trans (congrArg Except.ok (Locales.side_secondary hlocales _ _).symm)
  · obtain ⟨a, b, ha, hb, hfirst, hsecond, hraw⟩ := hcontents c hc
    obtain ⟨known, hknown, hshape, htexts⟩ := Pairing.textAt?_of_contents? hlocales hlocale hfirst hsecond hraw
    refine ⟨p.manifest.locales.side locale a b, known, ?_, hknown, ?_, hshape, htexts⟩
    · rw [Locales.apply_side fun e : Export =>
          OrderedMap.lookup? (e.snapshot p.manifest.locales time).categories c.name, Locales.apply_side Content.toJson,
        Locales.apply_side some]
      show p.manifest.locales.side locale ((primary.contents.mapValues Content.toJson).lookup? c.name)
        ((secondary.contents.mapValues Content.toJson).lookup? c.name) = _
      rw [OrderedMap.lookup?_mapValues, OrderedMap.lookup?_mapValues, ha, hb]
      rfl
    · rw [Locales.apply_side Content.shape, hfirst, hsecond, Locales.side, ite_self]

/-- The rows that the file has in the secondary locale: the other locale has a field and a text more, from the old
reference. -/
theorem pairLocales_sides_mixed :
    (mixedSample.manifest.categories.map AnyCategory.name).Nodup ∧
      mixedSample.manifest.secondaryLocale ≠ mixedSample.manifest.primaryLocale ∧
      mixedSample.manifest.secondaryLocale ≠ [] ∧
      (mixedSample.pairLocales (some mixedReference) "t" mixedFiles).result = .ok mixedDocument ∧
      (("ar" : Text) = mixedSample.manifest.primaryLocale ∨ ("ar" : Text) = mixedSample.manifest.secondaryLocale) ∧
      ∃ (e : Export) (content : Content),
        (mixedSample.collect (some "ar") (some mixedReference) mixedFiles).result = .ok e ∧
        OrderedMap.lookup? (e.snapshot mixedSample.manifest.locales "t").categories "rows" = some content.toJson ∧
        content.shape = .records ∧ content.text? (.field 0 "value") = some (Text.ofString "x") ∧
        content.text? (.field 1 "value") = some (Text.ofString "y") ∧ content.text? (.field 1 "note") = none := by
  have hnames : (mixedSample.manifest.categories.map AnyCategory.name).Nodup := by decide
  have hlocales : mixedSample.manifest.secondaryLocale ≠ mixedSample.manifest.primaryLocale := by decide
  have hnonempty : mixedSample.manifest.secondaryLocale ≠ [] := by decide
  have hdocument : (mixedSample.pairLocales (some mixedReference) "t" mixedFiles).result = .ok mixedDocument := by
    decide +kernel
  have hlocale : ("ar" : Text) = mixedSample.manifest.primaryLocale ∨
      ("ar" : Text) = mixedSample.manifest.secondaryLocale := .inr rfl
  obtain ⟨e, he, hcategories⟩ := pairLocales_sides hnames hlocales hnonempty hdocument hlocale
  have hrows : ∃ c ∈ mixedSample.manifest.categories, c.name = "rows" ∧ c.shape = .records := by decide
  obtain ⟨c, hc, hname, hkind⟩ := hrows
  obtain ⟨content, known, hcontent, hknown, hshape, -, htexts⟩ := hcategories c hc
  rw [hname] at hcontent
  rw [hname, hkind] at hknown
  have hread : Reference.contents? (some mixedDocument) "rows" .records "ar" "en" = some (.records
      [some [("value", some "x")], some [("note", none), ("value", some "y")]]) := by decide
  cases hread.symm.trans hknown
  refine ⟨hnames, hlocales, hnonempty, hdocument, hlocale, e, content, he, hcontent, hshape.trans hkind, ?_, ?_, ?_⟩
  · exact (htexts (.leaf (.field 0 "value"))).symm
  · exact (htexts (.leaf (.field 1 "value"))).symm
  · exact (htexts (.leaf (.field 1 "note"))).symm

/-! ## Sites of files -/

/-- For every manifest with different locales, all files and every old reference, or none: the bilingual document never
pairs texts of different sites. Where the file has an occurrence of a field of pairs, the document has the rows of the
occurrences for them; where it has an occurrence of a key, the document has for each key the first occurrence with that
key. -/
theorem pairLocales_sites (hnames : (p.manifest.categories.map AnyCategory.name).Nodup)
    (hlocales : p.manifest.secondaryLocale ≠ p.manifest.primaryLocale) (hnonempty : p.manifest.secondaryLocale ≠ [])
    (h : (p.pairLocales reference time files).result = .ok document) {a : Artifact} (ha : a ∈ p.manifest.artifacts)
    {text : Text} (htext : files.read (p.path a.path) = .ok text) {c : Category} (hc : c ∈ a.categories) :
    (∀ fields defaults, c.placement = .pairs fields defaults → (fields.map PairField.name).Nodup →
      (∃ field ∈ fields, ∃ occurrences, c.occurrences text (field.pattern p.manifest.locales) = .ok occurrences ∧
        occurrences ≠ []) →
      ∃ rows, OrderedMap.lookup? document c.name = some (.list rows) ∧
        c.IsRows text p.manifest.locales fields rows) ∧
    (∀ pattern occurrences, c.placement.keyedPattern? p.manifest.locales = some pattern →
      c.occurrences text pattern = .ok occurrences → occurrences ≠ [] →
      ∃ entries, OrderedMap.lookup? document c.name = some (.object entries) ∧
        Category.IsEntries p.manifest.locales occurrences entries) := by
  obtain ⟨primary, secondary, hprimary, hsecondary, rfl⟩ := pairLocales_eq_ok_iff.1 h
  -- both exports have what the same text has for the category
  have hexports : ∀ {locale : Text} {e : Export},
      Export.target p.manifest.locales (some locale) = .ok locale →
      (p.collect (some locale) reference files).result = .ok e →
      ∃ content, OrderedMap.lookup? e.contents c.name = some content ∧
        c.Exports text p.manifest.locales locale reference content := by
    intro locale e htarget he
    obtain ⟨rfl, hholds, -⟩ := holds_of_collect hnames htarget he
    obtain ⟨text', htext', hcategories⟩ := hholds a ha
    cases htext.symm.trans htext'
    exact hcategories c hc
  obtain ⟨first, hfirst, hexports₁⟩ := hexports (Export.target_primary p.manifest) hprimary
  obtain ⟨second, hsecond, hexports₂⟩ := hexports (Export.target_secondary hnonempty) hsecondary
  have hmem := Manifest.mem_categories_of_artifact ha hc
  have hraw : OrderedMap.lookup? (Pairing.document p.manifest primary secondary time) c.name =
      some (Pairing.contents p.manifest.locales c.placement.shape (some first) (some second)) := by
    rw [← hfirst, ← hsecond]
    exact Pairing.lookup?_document primary secondary time hnames hmem
  rw [hraw]
  constructor
  · intro fields defaults hplace hfields hsite
    obtain ⟨rows, hcontents, hrows⟩ := Category.exists_rows hlocales hplace hfields hsite hexports₁ hexports₂
    exact ⟨rows, congrArg some hcontents, hrows⟩
  · intro pattern occurrences hpattern hoccurrences hne
    obtain ⟨entries, hcontents, hentries⟩ :=
      Category.exists_entries hlocales hpattern hoccurrences hne hexports₁ hexports₂
    exact ⟨entries, congrArg some hcontents, hentries⟩

/-- Two fields of pairs. -/
def sitedLabels : Category where
  name := "labels"
  region := none
  placement := .pairs [⟨"label", none, none⟩, ⟨"title", none, none⟩] []

/-- A keyed pair. -/
def sitedLinks : Category := { name := "links", region := none, placement := .keyedPairs "to" "name" [] }

/-- One field has two occurrences and the other one has one, and a key stands at two sites. -/
def sitedText : Text :=
  "label: \x7b en: 'A', ar: 'P' \x7d\ntitle: \x7b en: 'B', ar: 'Q' \x7d\nlabel: \x7b en: 'C', ar: 'R' \x7d\n" ++
    "to: '/x', name: \x7b en: 'D', ar: 'S' \x7d\nto: '/x', name: \x7b en: 'E', ar: 'T' \x7d"

def sitedSample : Project where
  directory := ⟨"/", []⟩
  manifest := { artifacts := [{ path := "page.ts", categories := [sitedLabels, sitedLinks] }] }

def sitedFiles : Files where
  directories := []
  contents := [("/page.ts", (Text.Utf8.encode? sitedText).getD [])]

/-- An old reference with other texts for both, which do not show. -/
def sitedReference : OrderedMap Json := [
  ("labels", .list [.object [("label", .text "old"), ("note", .object [("ar", .text "n")])]]),
  ("links", .object [("/y", .object [("en", .text "old"), ("ar", .text "n")])])]

def sitedDocument : OrderedMap Json := [
  (metaKey, .object [("generated_at", .text "t"), ("primary_locale", .text "en"), ("secondary_locale", .text "ar")]),
  ("labels", .list [
    .object [("label", .object [("en", .text "A"), ("ar", .text "P")]),
      ("title", .object [("en", .text "B"), ("ar", .text "Q")])],
    .object [("label", .object [("en", .text "C"), ("ar", .text "R")]),
      ("title", .object [("en", .null), ("ar", .null)])]]),
  ("links", .object [("/x", .object [("en", .text "D"), ("ar", .text "S")])])]

theorem pairLocales_sites_repeated :
    (sitedSample.manifest.categories.map AnyCategory.name).Nodup ∧
      sitedSample.manifest.secondaryLocale ≠ sitedSample.manifest.primaryLocale ∧
      sitedSample.manifest.secondaryLocale ≠ [] ∧
      (sitedSample.pairLocales (some sitedReference) "t" sitedFiles).result = .ok sitedDocument ∧
      ∃ a ∈ sitedSample.manifest.artifacts, sitedFiles.read (sitedSample.path a.path) = .ok sitedText ∧
        sitedLabels ∈ a.categories ∧ sitedLinks ∈ a.categories ∧
        (∃ fields rows, sitedLabels.placement = .pairs fields [] ∧
          OrderedMap.lookup? sitedDocument sitedLabels.name = some (.list rows) ∧
          sitedLabels.IsRows sitedText sitedSample.manifest.locales fields rows) ∧
        ∃ pattern occurrences entries, sitedLinks.placement.keyedPattern? sitedSample.manifest.locales = some pattern ∧
          sitedLinks.occurrences sitedText pattern = .ok occurrences ∧ occurrences.length = 2 ∧
          OrderedMap.lookup? sitedDocument sitedLinks.name = some (.object entries) ∧
          Category.IsEntries sitedSample.manifest.locales occurrences entries := by
  have hnames : (sitedSample.manifest.categories.map AnyCategory.name).Nodup := by decide
  have hlocales : sitedSample.manifest.secondaryLocale ≠ sitedSample.manifest.primaryLocale := by decide
  have hnonempty : sitedSample.manifest.secondaryLocale ≠ [] := by decide
  have hdocument : (sitedSample.pairLocales (some sitedReference) "t" sitedFiles).result = .ok sitedDocument := by
    decide +kernel
  have htext : sitedFiles.read (sitedSample.path "page.ts") = .ok sitedText := by decide +kernel
  have hartifact : { path := "page.ts", categories := [sitedLabels, sitedLinks] } ∈ sitedSample.manifest.artifacts :=
    List.mem_singleton_self _
  have hlabels : sitedLabels ∈ [sitedLabels, sitedLinks] := List.mem_cons_self
  have hlinks : sitedLinks ∈ [sitedLabels, sitedLinks] := List.mem_cons_of_mem _ (List.mem_singleton_self _)
  have hlabel : (sitedLabels.occurrences sitedText (PairField.pattern ⟨"label", none, none⟩
      sitedSample.manifest.locales)).map List.length = .ok 2 := by decide +kernel
  obtain ⟨labels, hlabel, htwo⟩ := Except.map_eq_ok_iff.1 hlabel
  have hlink : (sitedLinks.occurrences sitedText (.keyedPair "to" "name" "en" "ar")).map List.length = .ok 2 := by
    decide +kernel
  obtain ⟨links, hlink, htwo'⟩ := Except.map_eq_ok_iff.1 hlink
  have hrows := (pairLocales_sites hnames hlocales hnonempty hdocument hartifact htext hlabels).1 _ _ rfl (by decide)
    ⟨_, List.mem_cons_self, labels, hlabel, List.ne_nil_of_length_eq_add_one htwo⟩
  have hentries := (pairLocales_sites hnames hlocales hnonempty hdocument hartifact htext hlinks).2 _ links rfl hlink
    (List.ne_nil_of_length_eq_add_one htwo')
  obtain ⟨rows, hrows⟩ := hrows
  obtain ⟨entries, hentries⟩ := hentries
  exact ⟨hnames, hlocales, hnonempty, hdocument, _, hartifact, htext, hlabels, hlinks, ⟨_, rows, rfl, hrows⟩,
    _, links, entries, rfl, hlink, htwo', hentries⟩

end Project

end Bilingual

import Bilingual.Manifest.Dump
import Bilingual.Proofs.Plan.Entry
import Bilingual.Proofs.Project.Export
import Bilingual.Proofs.Shift

set_option autoImplicit false

/-! # Exports are accepted

Whatever an export has for a category, be it read in a file or standing in for missing contents, is accepted as contents
of the category and comes back as it was (`Project.exists_accepted`). So nothing is reported as invalid when an export
is patched back, and what a block merges from the reference is accepted as well (`Project.collect_accepted`). -/

namespace Bilingual

namespace Project

variable {p : Project} {files : Files} {locale : Option Text} {reference : Reference} {e : Export}

/-- A reference that is read from a file of a project is sound. -/
theorem isSound_of_readReference {path : Path} (h : (Action.readReference path files).result = .ok reference) :
    reference.IsSound := by
  unfold Action.readReference at h
  have hisFile : (Action.isFile path).Leaves files := rfl
  rw [hisFile.result_bind] at h
  obtain ⟨found, -, h⟩ := Except.bind_eq_ok_iff.1 h
  cases found with
  | false =>
    cases h
    exact Reference.isSound_none
  | true =>
    rw [if_pos rfl, (Action.leaves_read path).result_bind] at h
    obtain ⟨text, -, h⟩ := Except.bind_eq_ok_iff.1 h
    rw [(Action.leaves_ofExcept _).result_bind, Action.result_ofExcept] at h
    obtain ⟨document, hdocument, h⟩ := Except.bind_eq_ok_iff.1 h
    cases h
    exact Reference.isSound_of_readObject (Except.mapError_eq_ok_iff.1 hdocument)

/-- Only the locales of the manifest are exported. -/
theorem exists_target (h : (p.collect locale reference files).result = .ok e) :
    ∃ target, Export.target p.manifest.locales locale = .ok target := by
  rw [result_collect] at h
  obtain ⟨target, htarget, -⟩ := Except.bind_eq_ok_iff.1 h
  exact ⟨target, Except.mapError_eq_ok_iff.1 htarget⟩

/-- An export of a checked manifest has contents for every category that are read back as they are written. -/
theorem exists_accepted (hmanifest : p.manifest.Valid) (hsound : reference.IsSound)
    (h : (p.collect locale reference files).result = .ok e) {c : AnyCategory} (hc : c ∈ p.manifest.categories) :
    ∃ content, OrderedMap.lookup? e.contents c.name = some content ∧ content.shape = c.shape ∧ content.Distinct := by
  obtain ⟨target, htarget⟩ := exists_target h
  obtain ⟨content, hlookup, hshape, hdistinct⟩ := shape_distinct_of_collect hmanifest.names htarget h hc
  refine ⟨content, hlookup, hshape, ?_⟩
  rcases hdistinct with hdistinct | rfl
  · exact hdistinct
  · exact AnyCategory.distinct_fallback (hmanifest.defaults c hc) hsound _ _

end Project

namespace Export

variable {e : Export} {content : Content} {c : AnyCategory}

theorem lookup?_snapshot {name : Text} (h : OrderedMap.lookup? e.contents name = some content) (locales : Locales)
    (time : Text) : (e.snapshot locales time).categories.lookup? name = some content.toJson := by
  show OrderedMap.lookup? (OrderedMap.mapValues Content.toJson e.contents) name = _
  rw [OrderedMap.lookup?_mapValues, h]
  rfl

end Export

namespace PatchInput

variable {input : PatchInput} {cs : List Category} {text final : Text} {entries : List PatchEntry}

/-- Where contents are brought for every category, none of them are reported as invalid. -/
theorem status_of_patchText (hgiven : ∀ c ∈ cs, ∃ content, input.given? c = some (.ok content))
    (h : (input.patchText text cs).result = .ok (final, entries)) : ∀ entry ∈ entries, entry.status ≠ .invalid := by
  induction cs generalizing text entries with
  | nil =>
    cases h
    simp
  | cons c rest ih =>
    obtain ⟨between, first, others, hfirst, hothers, rfl⟩ := patchText_cons_eq_ok_iff.1 h
    obtain ⟨⟨content, hcontent⟩, hrest⟩ := List.forall_mem_cons.1 hgiven
    exact List.forall_mem_append.2 ⟨status_of_patchCategory hcontent hfirst, ih hrest hothers⟩

/-- What there is to merge under a name is accepted as texts by key, and comes back as it is. -/
def AcceptsSource (input : PatchInput) (name : Text) : Prop :=
  ∀ raw, input.mergeSource? name = some raw →
    ∃ texts, raw = (Content.map texts).toJson ∧ Content.checkTexts (Data.ofJson raw) = .ok texts

theorem acceptsSource_of_lookup? {name : Text} {content : Content}
    (h : input.snapshot.categories.lookup? name = some content.toJson) (hshape : content.shape = .map)
    (hdistinct : content.Distinct) : input.AcceptsSource name := by
  intro raw hsource
  unfold mergeSource? at hsource
  rw [raw?_of_lookup? h content.toJson_ne_null] at hsource
  cases hsource
  cases content with
  | map texts => exact ⟨texts, rfl, Content.checkTexts_ofJson hdistinct⟩
  | _ => cases hshape

theorem acceptsSource_of_reference (hmanifest : input.manifest.Valid) (hsound : input.reference.IsSound) {name : Text}
    (hname : input.manifest.HasTexts name) (hraw : input.raw? name = none) : input.AcceptsSource name := by
  intro raw hsource
  obtain ⟨c, hcategory, -, hshape⟩ := hmanifest.category?_of_hasTexts hname
  unfold mergeSource? at hsource
  rw [hraw] at hsource
  obtain ⟨found, hfound, hsource⟩ := Option.bind_eq_some_iff.1 hsource
  cases hcategory.symm.trans hfound
  obtain ⟨content, hcontent, hsource⟩ := Option.bind_eq_some_iff.1 hsource
  cases hsource
  have hmap := (Reference.shape_of_contents? hcontent).trans hshape
  have hdistinct := hsound.distinct_of_contents? hcontent
  cases content with
  | map texts => exact ⟨texts, rfl, Content.checkTexts_ofJson hdistinct⟩
  | _ => cases hmap

end PatchInput

namespace Project

variable {p : Project} {files : Files} {locale : Option Text} {reference : Reference} {e : Export}

/-- Exports are always accepted. For every manifest that passes its check, all files and every reference, or none, in
either locale: where the export has a result, its contents of every category are accepted in the shape of the category
and come back as they are, whatever they were taken from. So when it is patched back, into any text and with any
reference, no entry says that contents are invalid. And whatever a block merges is accepted, be it from such an export
or from a reference that stands in for what a snapshot lacks. -/
theorem collect_accepted {d : Data} (hmanifest : Manifest.check d = .ok p.manifest) (hsound : reference.IsSound)
    (h : (p.collect locale reference files).result = .ok e) (time : Text) :
    (∀ c ∈ p.manifest.categories, ∃ content, OrderedMap.lookup? e.contents c.name = some content ∧
      Content.ofJson c.shape content.toJson = .ok content) ∧
    (∀ a ∈ p.manifest.artifacts, ∀ (other : Reference) (text final : Text) (entries : List PatchEntry),
      (PatchInput.patchText ⟨p.manifest, e.snapshot p.manifest.locales time, other⟩ text a.categories).result =
        .ok (final, entries) → ∀ entry ∈ entries, entry.status ≠ .invalid) ∧
    (∀ a ∈ p.manifest.artifacts, ∀ c ∈ a.categories, ∀ name ∈ c.placement.merges,
      ∀ (snapshot : Snapshot) (other : Reference), other.IsSound →
        snapshot = e.snapshot p.manifest.locales time ∨ PatchInput.raw? ⟨p.manifest, snapshot, other⟩ name = none →
          PatchInput.AcceptsSource ⟨p.manifest, snapshot, other⟩ name) := by
  have hvalid := Manifest.valid_of_check hmanifest
  refine ⟨fun c hc => ?contents, fun a ha other text final entries hpatch => ?entries,
    fun a ha c hc name hname snapshot other hother hsource => ?sources⟩
  case contents =>
    obtain ⟨content, hlookup, hshape, hdistinct⟩ := exists_accepted hvalid hsound h hc
    exact ⟨content, hlookup, hshape ▸ Content.ofJson_toJson hdistinct⟩
  case entries =>
    refine PatchInput.status_of_patchText (fun c hc => ?_) hpatch
    obtain ⟨content, hlookup, hshape, hdistinct⟩ :=
      exists_accepted hvalid hsound h (Manifest.mem_categories_of_artifact ha hc)
    exact ⟨content, PatchInput.given?_of_lookup? _ _ (e.lookup?_snapshot hlookup _ _) hshape hdistinct⟩
  case sources =>
    have htexts := hvalid.merges a ha c hc name hname
    rcases hsource with rfl | hraw
    · obtain ⟨other, hmem, rfl, hmap⟩ := htexts
      obtain ⟨content, hlookup, hshape, hdistinct⟩ := exists_accepted hvalid hsound h hmem
      exact PatchInput.acceptsSource_of_lookup? (Export.lookup?_snapshot hlookup _ _) (hshape.trans hmap) hdistinct
    · exact PatchInput.acceptsSource_of_reference hvalid hother htexts hraw

/-- A pair that the file has, a block that it lacks and that merges other texts, keyed records that only the reference
has, choices that nothing has, and texts without a file. -/
def sourcesSample : Project where
  directory := ⟨"/", []⟩
  manifest := {
    artifacts := [{ path := "page.ts", categories := [
      { name := "labels", region := none, placement := .pairs [⟨"label", none, none⟩] [] },
      { name := "words", region := none
        placement := .dictBlock ⟨[], "words \x7blocale\x7d: \x7b", []⟩ ["extra"] [("a", "A")] },
      { name := "cards", region := none
        placement := .keyedRecordBlock ⟨[], "cards \x7blocale\x7d: \x7b", []⟩ ["title"] [] },
      { name := "hints", region := none, placement := .choices "is_\x7blocale\x7d" [] }] }]
    references := [{ name := "extra", region := none, defaults := [] }] }

def sourcesText (label : Text) : Text := "label: \x7b en: 'A', ar: '" ++ label ++ "' \x7d"

def sourcesFiles : Files where
  directories := []
  contents := [("/page.ts", (Text.Utf8.encode? (sourcesText "P")).getD [])]

/-- A reference with values of any kind where records and texts should be. -/
def sourcesReference : OrderedMap Json := [
  ("cards", .object [("b", .integer 0), ("a", .object [("title", .list [.null])])]),
  ("hints", .text "none"),
  ("extra", .object [("k", .object [("ar", .text "v"), ("en", .bool true)]), ("j", .integer 3)])]

/-- The contents of the categories in the primary locale: from the file, the defaults, the reference, and none. -/
def sourcesExport : Export where
  locale := "en"
  contents := [
    ("labels", .records [some [("label", some "A")]]),
    ("words", .map [("a", some "A")]),
    ("cards", .keyedRecords [("b", none), ("a", some [("title", none)])]),
    ("hints", .map []),
    ("extra", .map [("k", none), ("j", none)])]
  occurrences := [("labels.label", 1)]
  entries := [
    { name := "labels", kind := "pair", artifact := some "page.ts", source := .artifact, count := 1 },
    { name := "words", kind := "dict_block", artifact := some "page.ts", source := .defaults, count := 1 },
    { name := "cards", kind := "keyed_record_block", artifact := some "page.ts", source := .reference, count := 2 },
    { name := "hints", kind := "ternary", artifact := some "page.ts", source := .empty, count := 0 },
    { name := "extra", kind := "reference", artifact := none, source := .reference, count := 2 }]

def sourcesEntries : List PatchEntry := [
  { category := "labels", status := .updated, index := some 0, field := some "label" },
  { category := "words", status := .notFound }, { category := "cards", status := .notFound }]

theorem collect_accepted_sources :
    Manifest.check (Data.ofJson sourcesSample.manifest.toJson) = .ok sourcesSample.manifest ∧
      Reference.IsSound (some sourcesReference) ∧
      (sourcesSample.collect none (some sourcesReference) sourcesFiles).result = .ok sourcesExport ∧
      (∀ c ∈ sourcesSample.manifest.categories, ∃ content,
        OrderedMap.lookup? sourcesExport.contents c.name = some content ∧
          Content.ofJson c.shape content.toJson = .ok content) ∧
      (∃ a ∈ sourcesSample.manifest.artifacts,
        (PatchInput.patchText ⟨sourcesSample.manifest, sourcesExport.snapshot sourcesSample.manifest.locales "t", none⟩
          (sourcesText "P") a.categories).result = .ok (sourcesText "A", sourcesEntries) ∧
        ∀ entry ∈ sourcesEntries, entry.status ≠ .invalid) ∧
      PatchInput.mergeSource? ⟨sourcesSample.manifest, {}, some sourcesReference⟩ "extra" =
        some (Content.map [("k", some "v"), ("j", none)]).toJson ∧
      PatchInput.AcceptsSource ⟨sourcesSample.manifest, {}, some sourcesReference⟩ "extra" := by
  have hmanifest : Manifest.check (Data.ofJson sourcesSample.manifest.toJson) = .ok sourcesSample.manifest := by
    decide +kernel
  have hsound : Reference.IsSound (some sourcesReference) := by
    rintro _ ⟨⟩
    decide
  have hexport : (sourcesSample.collect none (some sourcesReference) sourcesFiles).result = .ok sourcesExport := by
    decide +kernel
  obtain ⟨hcontents, hentries, hsources⟩ := collect_accepted hmanifest hsound hexport "t"
  have hpatched : (PatchInput.patchText
      ⟨sourcesSample.manifest, sourcesExport.snapshot sourcesSample.manifest.locales "t", none⟩ (sourcesText "P")
      (sourcesSample.manifest.artifacts.head (by decide)).categories).result =
        .ok (sourcesText "A", sourcesEntries) := by decide +kernel
  have hartifact : sourcesSample.manifest.artifacts.head (by decide) ∈ sourcesSample.manifest.artifacts :=
    List.head_mem _
  refine ⟨hmanifest, hsound, hexport, hcontents, ⟨_, hartifact, hpatched, hentries _ hartifact none _ _ _ hpatched⟩,
    by decide +kernel, ?_⟩
  exact hsources _ hartifact _ (List.mem_cons_of_mem _ List.mem_cons_self) "extra" (List.mem_singleton_self _) {} _
    hsound (.inr rfl)

end Project

end Bilingual

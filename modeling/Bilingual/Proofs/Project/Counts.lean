import Bilingual.Proofs.Export.Counts
import Bilingual.Proofs.Planned
import Bilingual.Proofs.Project.Accept
import Bilingual.Proofs.RoundTrip

set_option autoImplicit false

/-! # The recorded numbers of sites are fresh

An export records the numbers of sites of all categories in one map, under keys that are made of the names of categories
and fields. What is patched with them into the text they were counted in is not reported as shifted, unless two
categories record different numbers under one key (`Project.collect_fresh_iff`). Different names alone do not prevent
that, but different keys do, and names without a period make different keys (`Manifest.keysApart_of_names`). -/

namespace Bilingual

namespace Manifest

variable {m : Manifest}

/-- No two categories of a manifest have a key for their numbers of sites in common. -/
def KeysApart (m : Manifest) : Prop :=
  (m.artifacts.flatMap Artifact.categories).Pairwise fun c c' => c.countKeys.Disjoint c'.countKeys

/-- Different names without a period make different keys. -/
theorem keysApart_of_names (hnames : (m.categories.map AnyCategory.name).Nodup)
    (hperiod : ∀ a ∈ m.artifacts, ∀ c ∈ a.categories, ('.' : CodePoint) ∉ c.name) : m.KeysApart := by
  rw [names_categories] at hnames
  have hpairwise := List.pairwise_map.1 (List.nodup_append.1 hnames).1
  refine hpairwise.imp_of_mem fun {c c'} hc hc' hne key hkey hkey' => hne ?_
  obtain ⟨a, ha, hc⟩ := List.mem_flatMap.1 hc
  obtain ⟨a', ha', hc'⟩ := List.mem_flatMap.1 hc'
  rw [← Category.takeWhile_of_mem_countKeys (hperiod a ha c hc) hkey,
    Category.takeWhile_of_mem_countKeys (hperiod a' ha' c' hc') hkey']

/-- If keys are apart, only one category in one file has a key. -/
theorem KeysApart.eq_of_mem (h : m.KeysApart) {a a' : Artifact} (ha : a ∈ m.artifacts) (ha' : a' ∈ m.artifacts)
    {c c' : Category} (hc : c ∈ a.categories) (hc' : c' ∈ a'.categories) {key : Text} (hkey : key ∈ c.countKeys)
    (hkey' : key ∈ c'.countKeys) : a = a' ∧ c = c' := by
  obtain ⟨hinside, hacross⟩ := List.pairwise_flatMap.1 h
  have : Std.Symm fun c c' : Category => c.countKeys.Disjoint c'.countKeys := ⟨fun _ _ => List.Disjoint.symm⟩
  have : Std.Symm fun a a' : Artifact => ∀ c ∈ a.categories, ∀ c' ∈ a'.categories, c.countKeys.Disjoint c'.countKeys :=
    ⟨fun _ _ h c hc c' hc' => (h c' hc' c hc).symm⟩
  have hsame : a = a' := by
    by_contra hne
    exact hacross.forall ha ha' hne c hc c' hc' hkey hkey'
  subst hsame
  refine ⟨rfl, ?_⟩
  by_contra hne
  exact (hinside a ha).forall hc hc' hne hkey hkey'

end Manifest

namespace Project

variable {p : Project} {files : Files} {locale : Option Text} {reference : Reference} {e : Export}

/-- A file of a project, which has the given text, brings the contents of a category. -/
def Brings (p : Project) (files : Files) (locale : Text) (c : Category) (text : Text) : Prop :=
  ∃ a ∈ p.manifest.artifacts, files.read (p.path a.path) = .ok text ∧ c ∈ a.categories ∧
    c.FoundIn a.path text p.manifest.locales locale

theorem counts_of_foldlM {artifacts : List Artifact} {e e' : Export}
    (h : artifacts.foldlM (fun e a => (p.exportArtifact reference e a files).result) e = .ok e') :
    e'.locale = e.locale ∧ Export.Counts p.manifest.locales (fun c text => ∃ a ∈ artifacts,
      files.read (p.path a.path) = .ok text ∧ c ∈ a.categories ∧ c.FoundIn a.path text p.manifest.locales e.locale)
        e e' := by
  induction artifacts generalizing e with
  | nil =>
    cases h
    exact ⟨rfl, .of_none (by simp) rfl⟩
  | cons a rest ih =>
    rw [List.foldlM_cons] at h
    obtain ⟨between, ha, h⟩ := Except.bind_eq_ok_iff.1 h
    obtain ⟨text, htext, ha⟩ := exportArtifact_eq_ok_iff.1 ha
    obtain ⟨hsame, -, -⟩ := Export.has_of_addArtifact ha
    obtain ⟨hlocale, hrest⟩ := ih h
    refine ⟨hlocale.trans hsame, ((Export.counts_of_addArtifact ha).trans hrest).congr fun c text' => ?_⟩
    rw [hsame, List.exists_mem_cons_iff]
    refine or_congr_left ?_
    rw [htext, Except.ok.injEq]
    constructor
    · rintro ⟨rfl, hmem, hfound⟩
      exact ⟨rfl, hmem, hfound⟩
    · rintro ⟨rfl, hmem, hfound⟩
      exact ⟨rfl, hmem, hfound⟩

/-- An export counts the sites of the categories that the files bring contents for. -/
theorem counts_of_collect (h : (p.collect locale reference files).result = .ok e) :
    Export.Counts p.manifest.locales (p.Brings files e.locale) { locale := e.locale } e := by
  obtain ⟨target, htarget⟩ := exists_target h
  rw [result_collect, htarget] at h
  obtain ⟨found, hfound, rfl⟩ := Except.map_eq_ok_iff.1 h
  obtain ⟨hlocale, pieces, hpieces, hrest⟩ := counts_of_foldlM hfound
  have hsame := (Export.addReferences_spec (e := found) (m := p.manifest) reference).1
  rw [hsame, hlocale]
  refine ⟨pieces, ?_, hrest⟩
  rw [Export.occurrences_addReferences, hpieces]

/-- No two categories record different numbers of sites under one key. -/
def CountsApart (p : Project) (files : Files) (locale : Text) : Prop :=
  ∀ c text c' text' counts counts', p.Brings files locale c text → p.Brings files locale c' text' →
    c.ordinalCounts text p.manifest.locales = .ok counts → c'.ordinalCounts text' p.manifest.locales = .ok counts' →
      ∀ key count count', (key, count) ∈ counts → (key, count') ∈ counts' → count = count'

theorem countsApart_of_keysApart (h : p.manifest.KeysApart) (files : Files) (locale : Text) :
    p.CountsApart files locale := by
  rintro c text c' text' counts counts' ⟨a, ha, htext, hc, -⟩ ⟨a', ha', htext', hc', -⟩ hcounts hcounts' key count
    count' hmem hmem'
  obtain ⟨rfl, rfl⟩ := h.eq_of_mem ha ha' hc hc' (Category.mem_countKeys hcounts hmem)
    (Category.mem_countKeys hcounts' hmem')
  cases htext.symm.trans htext'
  cases hcounts.symm.trans hcounts'
  have hlookup := OrderedMap.lookup?_of_mem (Category.distinct_ordinalCounts hcounts) hmem
  rw [OrderedMap.lookup?_of_mem (Category.distinct_ordinalCounts hcounts) hmem'] at hlookup
  exact (Option.some.inj hlookup).symm

end Project

namespace PatchInput

variable {input : PatchInput} {c : Category} {text : Text}

/-- A category is only reported as shifted for numbers of sites that have changed. -/
theorem status_ne_shifted (hshifts : (input.shifts c text).result = .ok []) {patched : Text}
    {entries : List PatchEntry} (h : (input.patchCategory c text).result = .ok (patched, entries)) :
    ∀ entry ∈ entries, entry.status ≠ .shifted := by
  obtain ⟨plan, hplan, -, rfl⟩ := patchCategory_eq_ok_iff.1 h
  unfold planned at hplan
  split at hplan
  · cases hplan
    simp [Plan.report]
  · cases hplan
    simp [Plan.report]
  · rw [hshifts] at hplan
    exact fun entry hentry => (ensures_plan _ _ plan hplan entry hentry).notShifted

end PatchInput

namespace Project

variable {p : Project} {files : Files} {locale : Option Text} {reference : Reference} {e : Export}

/-- The metadata of an export is fresh for a category in its text: the sites can be counted, each number is recorded
under its key, and whatever is patched with this metadata into that text, the category is not reported as shifted. -/
structure Fresh (p : Project) (e : Export) (c : Category) (text : Text) : Prop where
  recorded : ∃ counts, c.ordinalCounts text p.manifest.locales = .ok counts ∧
    ∀ key count, (key, count) ∈ counts → OrderedMap.lookup? e.occurrences key = some count
  notShifted : ∀ (input : PatchInput) (time : Text), input.manifest = p.manifest →
    input.snapshot.provenance = (e.snapshot p.manifest.locales time).provenance → ∀ patched entries,
      (input.patchCategory c text).result = .ok (patched, entries) → ∀ entry ∈ entries, entry.status ≠ .shifted

theorem fresh_of_recorded {c : Category} {text : Text} {counts : OrderedMap Nat}
    (hcounts : c.ordinalCounts text p.manifest.locales = .ok counts)
    (hrecorded : ∀ key count, (key, count) ∈ counts → OrderedMap.lookup? e.occurrences key = some count) :
    p.Fresh e c text := by
  refine ⟨⟨counts, hcounts, hrecorded⟩, fun input time hmanifest hmeta patched entries hpatched => ?_⟩
  have hcounts' : c.ordinalCounts text input.manifest.locales = .ok counts := hmanifest ▸ hcounts
  refine PatchInput.status_ne_shifted ((PatchInput.shifts_eq_nil_iff input c text hcounts').2 ?_) hpatched
  intro key current hcurrent expected hexpected
  have hlookup := hrecorded key current (OrderedMap.mem_of_lookup? hcurrent)
  have hexpected : OrderedMap.lookup? (OrderedMap.mapValues Int.ofNat e.occurrences) key = some expected := by
    unfold Snapshot.expected? at hexpected
    rw [hmeta] at hexpected
    exact hexpected
  rw [OrderedMap.lookup?_mapValues, hlookup] at hexpected
  exact (Option.some.inj hexpected).symm

/-- The numbers of sites of all categories are recorded in one map. An export is fresh for every category that a file
brings contents for, exactly if no two of these have different numbers under one key; so it always is if no two
categories of the manifest have a key in common. -/
theorem collect_fresh_iff (h : (p.collect locale reference files).result = .ok e) :
    ((∀ c text, p.Brings files e.locale c text → p.Fresh e c text) ↔ p.CountsApart files e.locale) ∧
      (p.manifest.KeysApart → ∀ c text, p.Brings files e.locale c text → p.Fresh e c text) := by
  have hcounts := counts_of_collect h
  have hiff : (∀ c text, p.Brings files e.locale c text → p.Fresh e c text) ↔ p.CountsApart files e.locale := by
    constructor
    · intro hfresh c text c' text' counts counts' hc hc' hcount hcount' key count count' hmem hmem'
      obtain ⟨found, hfound, hrecorded⟩ := (hfresh c text hc).recorded
      obtain ⟨found', hfound', hrecorded'⟩ := (hfresh c' text' hc').recorded
      cases hcount.symm.trans hfound
      cases hcount'.symm.trans hfound'
      exact Option.some.inj ((hrecorded key count hmem).symm.trans (hrecorded' key count' hmem'))
    · intro hapart c text hc
      obtain ⟨pieces, -, hall, -⟩ := id hcounts
      obtain ⟨counts, -, hcount⟩ := hall c text hc
      refine fresh_of_recorded hcount fun key count hmem => ?_
      obtain ⟨found, hlookup, c', text', counts', hc', hcount', hmem'⟩ := hcounts.exists_lookup? rfl hc hcount hmem
      rw [hlookup, hapart c text c' text' counts counts' hc hc' hcount hcount' key count found hmem hmem']
  exact ⟨hiff, fun hkeys => hiff.2 (countsApart_of_keysApart hkeys files e.locale)⟩

/-- A pair. -/
def seriesPlans : Category := { name := "plans", region := none, placement := .pairs [⟨"label", none, none⟩] [] }

/-- The pair and a list, whose name may be the key of the pair. -/
def seriesSample (list : Text) : Project :=
  single [seriesPlans, { name := list, region := none
                         placement := .listBlock ⟨[], "\x7blocale\x7d: [", []⟩ "value" [] }]

/-- A file with one pair, and with two literals in each locale. -/
def seriesText : Text := "label: \x7b en: 'A', ar: 'P' \x7d\nen: ['x', 'y']\nar: ['u', 'v']\n"

/-- The contents of both categories in the secondary locale, with the numbers of sites. -/
def seriesExport (list : Text) (occurrences : OrderedMap Nat) : Export where
  locale := "ar"
  contents := [("plans", .records [some [("label", some "P")]]),
    (list, .records [some [("value", some "u")], some [("value", some "v")]])]
  occurrences := occurrences
  entries := [
    { name := "plans", kind := "pair", artifact := some "page.ts", source := .artifact, count := 1 },
    { name := list, kind := "list_block", artifact := some "page.ts", source := .artifact, count := 2 }]

theorem brings_seriesPlans (list : Text) :
    (seriesSample list).Brings (Files.single seriesText) "ar" seriesPlans seriesText := by
  -- neither the place of the file nor the locales depend on the name of the list
  have hread : (Files.single seriesText).read ((seriesSample []).path "page.ts") = .ok seriesText := by decide +kernel
  have hfound : (seriesPlans.found? "page.ts" seriesText (seriesSample []).manifest.locales "ar").result =
      .ok (some (.records [some [("label", some "P")]])) := by decide +kernel
  exact ⟨_, List.mem_singleton_self _, hread, List.mem_cons_self .., _, hfound⟩

theorem collect_fresh_iff_series :
    ((seriesSample "rows").collect (some "ar") none (Files.single seriesText)).result =
        .ok (seriesExport "rows" [("plans.label", 1), ("rows", 2)]) ∧
      (seriesSample "rows").manifest.KeysApart ∧
      (seriesSample "rows").Brings (Files.single seriesText) "ar" seriesPlans seriesText ∧
      (seriesSample "rows").Fresh (seriesExport "rows" [("plans.label", 1), ("rows", 2)]) seriesPlans seriesText := by
  have hcollect : ((seriesSample "rows").collect (some "ar") none (Files.single seriesText)).result =
      .ok (seriesExport "rows" [("plans.label", 1), ("rows", 2)]) := by decide +kernel
  have hkeys : (seriesSample "rows").manifest.KeysApart := Manifest.keysApart_of_names (by decide) (by decide)
  have hbrings := brings_seriesPlans "rows"
  exact ⟨hcollect, hkeys, hbrings, (collect_fresh_iff hcollect).2 hkeys seriesPlans seriesText hbrings⟩

/-- A list that has the key of a pair for its name puts its number in place of that of the pair. Patched back into the
same text the pair is reported as shifted. -/
theorem collect_not_fresh_series :
    Manifest.check (Data.ofJson (seriesSample "plans.label").manifest.toJson) =
        .ok (seriesSample "plans.label").manifest ∧
      ((seriesSample "plans.label").collect (some "ar") none (Files.single seriesText)).result =
        .ok (seriesExport "plans.label" [("plans.label", 2)]) ∧
      (seriesSample "plans.label").Brings (Files.single seriesText) "ar" seriesPlans seriesText ∧
      seriesPlans.ordinalCounts seriesText (seriesSample "plans.label").manifest.locales =
        .ok [("plans.label", 1)] ∧
      (PatchInput.patchCategory ⟨(seriesSample "plans.label").manifest,
          (seriesExport "plans.label" [("plans.label", 2)]).snapshot ⟨"en", "ar"⟩ "now", none⟩
          seriesPlans seriesText).result =
        .ok (seriesText, [{ category := "plans", status := .shifted, key := some "plans.label"
                            detail := some "expected 2 occurrences, found 1" }]) := by
  refine ⟨?_, ?_, brings_seriesPlans _, ?_, ?_⟩
  · decide +kernel
  · decide +kernel
  · decide +kernel
  · decide +kernel

end Project

end Bilingual

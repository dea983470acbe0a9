import Bilingual.Proofs.Export.Complete

set_option autoImplicit false

/-! # Exports of a project complete

An export of a project whose files can be read comes to a result exactly if no literal that is read for it names a
number beyond the last code point and no match lacks a group that is asked for, whatever else stands in the files
(`Project.collect_completes_iff`). The result has
one value and one entry for each category of the manifest, in its order. -/

namespace Bilingual

/-- An export is in a locale, and has one value and one entry for each category of a manifest, in order. -/
structure Export.Covers (e : Export) (m : Manifest) (locale : Text) : Prop where
  locale_eq : e.locale = locale
  keys_eq : OrderedMap.keys e.contents = m.categories.map AnyCategory.name
  entries_eq : e.entries.map CategoryExport.name = m.categories.map AnyCategory.name

theorem Export.Grows.covers {e : Export} {m : Manifest} {locale : Text}
    (hnames : (m.categories.map AnyCategory.name).Nodup)
    (h : Export.Grows { locale := locale } m.categories e) : e.Covers m locale :=
  ⟨h.locale_eq, h.keys_eq hnames, h.entries_eq⟩

namespace Project

variable {p : Project} {files : Files} {locale : Option Text} {target : Text}

/-- In every artifact, no body that is read in a locale names a number beyond the last code point, and no match that is
looked at lacks a group that is asked for. -/
def Legible (p : Project) (files : Files) (locale : Text) : Prop :=
  ∀ a ∈ p.manifest.artifacts, ∀ text, files.read (p.path a.path) = .ok text → ∀ c ∈ a.categories,
    c.Legible text p.manifest.locales locale

theorem grows_of_exportArtifact {reference : Reference} {e e' : Export} {a : Artifact}
    (h : (p.exportArtifact reference e a files).result = .ok e') : e.Grows (a.categories.map .artifact) e' := by
  obtain ⟨text, -, h⟩ := exportArtifact_eq_ok_iff.1 h
  exact Export.grows_of_addArtifact h

theorem exportArtifact_completes_iff {reference : Reference} {e : Export} {a : Artifact} {text : Text}
    (hreadable : ∀ c ∈ a.categories, c.placement.Readable) (htext : files.read (p.path a.path) = .ok text) :
    (∃ e', (p.exportArtifact reference e a files).result = .ok e') ↔
      ∀ c ∈ a.categories, c.Legible text p.manifest.locales e.locale := by
  rw [← Export.addArtifact_completes_iff hreadable]
  refine exists_congr fun e' => ?_
  rw [exportArtifact_eq_ok_iff]
  constructor
  · rintro ⟨text', htext', h⟩
    rw [htext] at htext'
    cases htext'
    exact h
  · exact fun h => ⟨text, htext, h⟩

theorem covers_of_collect {reference : Reference} {e : Export}
    (hnames : (p.manifest.categories.map AnyCategory.name).Nodup)
    (htarget : Export.target p.manifest.locales locale = .ok target)
    (h : (p.collect locale reference files).result = .ok e) : e.Covers p.manifest target := by
  rw [result_collect, htarget] at h
  obtain ⟨found, hfound, rfl⟩ := Except.map_eq_ok_iff.1 h
  have hgrows := Export.grows_of_foldlM (fun e a _ e' h => grows_of_exportArtifact h) hfound
  exact (hgrows.trans (found.grows_addReferences p.manifest reference)).covers hnames

theorem exists_collect_iff (hreadable : ∀ a ∈ p.manifest.artifacts, ∀ c ∈ a.categories, c.placement.Readable)
    (hfiles : ∀ a ∈ p.manifest.artifacts, ∃ text, files.read (p.path a.path) = .ok text)
    (htarget : Export.target p.manifest.locales locale = .ok target) (reference : Reference) :
    (∃ e, (p.collect locale reference files).result = .ok e) ↔ p.Legible files target := by
  have hartifacts : (∃ e, p.manifest.artifacts.foldlM (fun e a => (p.exportArtifact reference e a files).result)
      { locale := target } = .ok e) ↔ p.Legible files target := by
    refine Export.foldlM_completes_iff (fun e a _ e' h => grows_of_exportArtifact h) (fun e he a ha => ?_) rfl
    obtain ⟨text, htext⟩ := hfiles a ha
    rw [exportArtifact_completes_iff (hreadable a ha) htext, show e.locale = target from he]
    constructor
    · intro h other hother
      rw [htext] at hother
      cases hother
      exact h
    · exact fun h => h text htext
  rw [← hartifacts, result_collect, htarget]
  constructor
  · rintro ⟨e, h⟩
    obtain ⟨found, hfound, -⟩ := Except.map_eq_ok_iff.1 h
    exact ⟨found, hfound⟩
  · rintro ⟨found, hfound⟩
    exact ⟨_, Except.map_eq_ok_iff.2 ⟨found, hfound, rfl⟩⟩

/-- An export comes to a result exactly if every literal that is read for it can be decoded, and no match lacks a group
that is asked for. In particular it does if no group is asked for and no file holds an escape beyond the last code point,
whatever else the files hold. -/
theorem collect_completes_iff (hnames : (p.manifest.categories.map AnyCategory.name).Nodup)
    (hreadable : ∀ a ∈ p.manifest.artifacts, ∀ c ∈ a.categories, c.placement.Readable)
    (hfiles : ∀ a ∈ p.manifest.artifacts, ∃ text, files.read (p.path a.path) = .ok text)
    (htarget : Export.target p.manifest.locales locale = .ok target) (reference : Reference) :
    ((∃ e, (p.collect locale reference files).result = .ok e ∧ e.Covers p.manifest target) ↔
        p.Legible files target) ∧
      ((∀ a ∈ p.manifest.artifacts, ∀ c ∈ a.categories, c.placement.Plain) →
        (∀ a ∈ p.manifest.artifacts, ∀ text, files.read (p.path a.path) = .ok text → ¬ text.HasWideEscape) →
        ∃ e, (p.collect locale reference files).result = .ok e ∧ e.Covers p.manifest target) := by
  have hiff : (∃ e, (p.collect locale reference files).result = .ok e ∧ e.Covers p.manifest target) ↔
      p.Legible files target := by
    rw [← exists_collect_iff hreadable hfiles htarget reference]
    refine exists_congr fun e => and_iff_left_of_imp fun h => ?_
    exact covers_of_collect hnames htarget h
  refine ⟨hiff, fun hplain hwide => hiff.2 fun a ha text htext c hc => ?_⟩
  exact Category.legible_of_not_hasWideEscape (hreadable a ha c hc) (hplain a ha c hc) (hwide a ha text htext)

/-- A pair whose fields have to be followed by a comma, a list, documents, and texts without a file. -/
def halfSample : Project where
  directory := ⟨"/", []⟩
  manifest := {
    artifacts := [{ path := "page.ts", categories := [
      { name := "labels", region := none, placement := .pairs [⟨"label", none, some ","⟩] [] },
      { name := "rows", region := none, placement := .listBlock ⟨[], "\x7blocale\x7d: [", []⟩ "value" [] },
      { name := "guides", region := none, placement := .documents "slug" "content" [] }] }]
    references := [{ name := "extra", region := none, defaults := [("k", "v")] }] }

/-- A file that is being edited: a pair without its comma, a list without its end, a body without its end. -/
def halfText : Text :=
  "label: \x7b en: 'A', ar: 'P' \x7d\nar: [\n  'x\nslug: 'a', content: \x7b ar: \x60never closed"

theorem collect_completes_half :
    ((∃ e, (halfSample.collect (some "ar") none (Files.single halfText)).result = .ok e ∧
        e.Covers halfSample.manifest "ar") ↔ halfSample.Legible (Files.single halfText) "ar") ∧
      ∃ e, (halfSample.collect (some "ar") none (Files.single halfText)).result = .ok e ∧
        e.Covers halfSample.manifest "ar" := by
  have hread : (Files.single halfText).read (halfSample.path "page.ts") = .ok halfText := by decide +kernel
  have hcomma : Following.ofText "," = .ok { next := .looksAhead true (.points (.single ',')) } := by decide +kernel
  have hreadable : ∀ a ∈ halfSample.manifest.artifacts, ∀ c ∈ a.categories, c.placement.Readable := by
    refine List.forall_mem_singleton.2 (List.forall_mem_cons.2 ⟨⟨?_, ?_⟩, List.forall_mem_cons.2 ⟨⟨?_, ?_⟩,
      List.forall_mem_singleton.2 ⟨?_, ?_⟩⟩⟩)
    · rintro fields defaults ⟨⟩ field hfield
      obtain rfl := List.mem_singleton.1 hfield
      exact ⟨_, hcomma⟩
    · rintro place ⟨⟩
    · rintro fields defaults ⟨⟩
    · rintro place ⟨⟩
      exact List.forall_mem_singleton.2 ⟨']', by decide⟩
    · rintro fields defaults ⟨⟩
    · rintro place ⟨⟩
  have hplain : ∀ a ∈ halfSample.manifest.artifacts, ∀ c ∈ a.categories, c.placement.Plain := by
    refine List.forall_mem_singleton.2 (List.forall_mem_cons.2 ⟨?_, List.forall_mem_cons.2 ⟨?_,
      List.forall_mem_singleton.2 ?_⟩⟩)
    · rintro fields defaults ⟨⟩ field hfield following hfollowing
      obtain rfl := List.mem_singleton.1 hfield
      cases hcomma.symm.trans hfollowing
      exact ⟨rfl, rfl⟩
    · rintro fields defaults ⟨⟩
    · rintro fields defaults ⟨⟩
  have hfiles : ∀ a ∈ halfSample.manifest.artifacts,
      ∃ text, (Files.single halfText).read (halfSample.path a.path) = .ok text :=
    List.forall_mem_singleton.2 ⟨halfText, hread⟩
  have hwide : ∀ a ∈ halfSample.manifest.artifacts, ∀ text,
      (Files.single halfText).read (halfSample.path a.path) = .ok text → ¬ text.HasWideEscape := by
    refine List.forall_mem_singleton.2 fun text htext => ?_
    rw [hread] at htext
    cases htext
    exact Text.not_hasWideEscape_of_not_mem (by decide +kernel)
  have htarget : Export.target halfSample.manifest.locales (some "ar") = .ok "ar" := rfl
  obtain ⟨hiff, hcompletes⟩ := collect_completes_iff (by decide) hreadable hfiles htarget none
  exact ⟨hiff, hcompletes hplain hwide⟩

/-- A link whose secondary text names a number that is one too large. -/
def wideText : Text := "to: '/x', label: \x7b en: 'A', ar: '\\u\x7b110000\x7d' \x7d\n"

/-- An escape beyond the last code point ends an export, although the file and the manifest are all right. -/
theorem not_collect_completes_wide :
    (keyedSample.manifest.categories.map AnyCategory.name).Nodup ∧
      (∀ a ∈ keyedSample.manifest.artifacts, ∀ c ∈ a.categories, c.placement.Readable) ∧
      (∀ a ∈ keyedSample.manifest.artifacts,
        ∃ text, (Files.single wideText).read (keyedSample.path a.path) = .ok text) ∧
      Export.target keyedSample.manifest.locales (some "ar") = .ok "ar" ∧
      (keyedSample.collect (some "ar") none (Files.single wideText)).result = .error (.text .codePointRange) := by
  refine ⟨by decide, ?_, ?_, rfl, ?_⟩
  · refine List.forall_mem_singleton.2 (List.forall_mem_singleton.2 ⟨?_, ?_⟩)
    · rintro fields defaults ⟨⟩
    · rintro place ⟨⟩
  · exact List.forall_mem_singleton.2 ⟨wideText, by decide +kernel⟩
  · decide +kernel

end Project

end Bilingual

import Bilingual.Project.Export
import Bilingual.Proofs.Export.Collect
import Bilingual.Proofs.Project.Action

set_option autoImplicit false

/-! # Exports of a project

An export changes no file (`Project.collect_leaves`). It has what is exported for every category
(`Project.holds_of_collect`); in the secondary locale and without a reference that is what every file has for its
categories (`Project.records_of_collect`). -/

namespace Bilingual

namespace Export

/-! ## The locale of an export -/

theorem target_primary (m : Manifest) : target m.locales (some m.primaryLocale) = .ok m.primaryLocale := by
  unfold target
  have hgiven : (if m.primaryLocale.isEmpty then m.locales.primary else m.primaryLocale) = m.locales.primary :=
    ite_self _
  simp only [hgiven]
  exact if_pos (.inl trivial)

theorem target_secondary {m : Manifest} (h : m.secondaryLocale ≠ []) :
    target m.locales (some m.secondaryLocale) = .ok m.secondaryLocale := by
  have hgiven : m.secondaryLocale.isEmpty = false := by simpa using h
  unfold target
  simp only [hgiven]
  exact if_pos (Or.inr rfl)

end Export

namespace Project

variable {p : Project} {files : Files}

theorem exportArtifact_leaves (p : Project) (reference : Reference) (e : Export) (a : Artifact)
    (files : Files) : (p.exportArtifact reference e a).Leaves files :=
  (Action.leaves_read _).bind fun _ _ => Action.leaves_ofStep _

/-- An export only reads. -/
theorem collect_leaves (p : Project) (locale : Option Text) (reference : Reference) (files : Files) :
    (p.collect locale reference).Leaves files := by
  refine (Action.leaves_ofExcept _).bind fun target _ => ?_
  refine (Action.foldlM_of_unchanged (fun e a _ => p.exportArtifact_leaves reference e a files) _).1.bind
    fun found _ => ?_
  exact (Action.leaves_tell _).bind fun _ _ => Action.leaves_pure _

/-- An export is the artifacts one after the other, and then the reference categories. -/
theorem result_collect (p : Project) (locale : Option Text) (reference : Reference) (files : Files) :
    (p.collect locale reference files).result =
      ((Export.target p.manifest.locales locale).mapError .text).bind fun target =>
        (p.manifest.artifacts.foldlM (fun e a => (p.exportArtifact reference e a files).result)
          { locale := target }).map (·.addReferences p.manifest reference) := by
  unfold collect
  rw [(Action.leaves_ofExcept _).result_bind, Action.result_ofExcept]
  congr 1
  funext target
  obtain ⟨hleaves, hresult⟩ := Action.foldlM_of_unchanged (l := p.manifest.artifacts)
    (fun e a _ => p.exportArtifact_leaves reference e a files) { locale := target }
  rw [hleaves.result_bind, hresult]
  rfl

theorem exportArtifact_eq_ok_iff {reference : Reference} {e e' : Export} {a : Artifact} :
    (p.exportArtifact reference e a files).result = .ok e' ↔ ∃ text, files.read (p.path a.path) = .ok text ∧
      (e.addArtifact p.manifest reference text a).result = .ok e' := by
  unfold exportArtifact
  rw [(Action.leaves_read _).result_bind]
  unfold Action.read
  cases hread : files.read (p.path a.path) with
  | error error => simp [Except.mapError, Except.bind]
  | ok text =>
    show (Action.ofStep _ files).result = _ ↔ _
    rw [Action.result_ofStep, Except.mapError_eq_ok_iff]
    simp

/-- The files of a project can be read, and what they have for their categories is recorded. -/
def Records (p : Project) (e : Export) (files : Files) (artifacts : List Artifact) : Prop :=
  ∀ a ∈ artifacts, ∃ text, files.read (p.path a.path) = .ok text ∧
    ∀ c ∈ a.categories, e.Recorded p.manifest text c

/-- The files of a project can be read, and an export has what is exported for their categories. -/
def Holds (p : Project) (e : Export) (reference : Reference) (files : Files) (artifacts : List Artifact) : Prop :=
  ∀ a ∈ artifacts, ∃ text, files.read (p.path a.path) = .ok text ∧
    ∀ c ∈ a.categories, e.Has p.manifest reference text c

theorem holds_of_foldlM {reference : Reference} {artifacts : List Artifact} {e e' : Export}
    (h : artifacts.foldlM (fun e a => (p.exportArtifact reference e a files).result) e = .ok e') :
    e'.locale = e.locale ∧
      (∀ name, name ∉ (artifacts.flatMap Artifact.categories).map Category.name →
        OrderedMap.lookup? e'.contents name = OrderedMap.lookup? e.contents name) ∧
      (((artifacts.flatMap Artifact.categories).map Category.name).Nodup →
        p.Holds e' reference files artifacts) := by
  induction artifacts generalizing e with
  | nil =>
    cases h
    exact ⟨rfl, fun _ _ => rfl, fun _ a ha => by cases ha⟩
  | cons a rest ih =>
    rw [List.foldlM_cons] at h
    obtain ⟨between, ha, h⟩ := Except.bind_eq_ok_iff.1 h
    obtain ⟨text, htext, ha⟩ := exportArtifact_eq_ok_iff.1 ha
    obtain ⟨hsame, hothers, hhas⟩ := Export.has_of_addArtifact ha
    obtain ⟨hlocale', hothers', hrest⟩ := ih h
    rw [List.flatMap_cons, List.map_append]
    refine ⟨hlocale'.trans hsame, fun name hname => ?_, fun hnodup => ?_⟩
    · rw [List.mem_append, not_or] at hname
      rw [hothers' name hname.2, hothers name hname.1]
    -- the categories of the later files have other names, so they do not put anything over the first ones
    · obtain ⟨hfirst, hlater, hdisjoint⟩ := List.nodup_append.1 hnodup
      refine List.forall_mem_cons.2 ⟨⟨text, htext, fun c hc => ?_⟩, hrest hlater⟩
      refine (hhas hfirst c hc).mono hlocale' (hothers' _ fun hmem => ?_)
      exact hdisjoint _ (List.mem_map_of_mem hc) _ hmem rfl

/-- An export has what is exported for every category of a file, and what stands in for missing contents of every
other one. -/
theorem holds_of_collect {locale : Option Text} {target : Text} {reference : Reference} {e : Export}
    (hnames : (p.manifest.categories.map AnyCategory.name).Nodup)
    (htarget : Export.target p.manifest.locales locale = .ok target)
    (h : (p.collect locale reference files).result = .ok e) :
    e.locale = target ∧ p.Holds e reference files p.manifest.artifacts ∧ ∀ c ∈ p.manifest.references,
      OrderedMap.lookup? e.contents c.name =
        some (AnyCategory.fallback (.reference c) p.manifest.locales target reference).1 := by
  rw [result_collect, htarget] at h
  obtain ⟨found, hfound, rfl⟩ := Except.map_eq_ok_iff.1 h
  obtain ⟨hlocale, -, hholds⟩ := holds_of_foldlM hfound
  obtain ⟨hsame, hothers, hreferences⟩ := Export.addReferences_spec (e := found) (m := p.manifest) reference
  rw [Manifest.names_categories] at hnames
  obtain ⟨hfirst, hsecond, hdisjoint⟩ := List.nodup_append.1 hnames
  rw [hlocale] at hreferences
  refine ⟨hsame.trans hlocale, fun a ha => ?_, hreferences hsecond⟩
  obtain ⟨text, htext, hcategories⟩ := hholds hfirst a ha
  refine ⟨text, htext, fun c hc => (hcategories c hc).mono hsame (hothers _ fun hmem => ?_)⟩
  exact hdisjoint _ (List.mem_map_of_mem (List.mem_flatMap.2 ⟨a, ha, hc⟩)) _ hmem rfl

/-- An export has contents of its shape for every category. The maps in them have distinct keys, unless they stand in
for missing ones. -/
theorem shape_distinct_of_collect {locale : Option Text} {target : Text} {reference : Reference} {e : Export}
    (hnames : (p.manifest.categories.map AnyCategory.name).Nodup)
    (htarget : Export.target p.manifest.locales locale = .ok target)
    (h : (p.collect locale reference files).result = .ok e) {c : AnyCategory} (hc : c ∈ p.manifest.categories) :
    ∃ content, OrderedMap.lookup? e.contents c.name = some content ∧ content.shape = c.shape ∧
      (content.Distinct ∨ content = (c.fallback p.manifest.locales target reference).1) := by
  obtain ⟨rfl, hholds, hreferences⟩ := holds_of_collect hnames htarget h
  obtain ⟨a, ha, c, hmem, rfl⟩ | ⟨c, hmem, rfl⟩ := Manifest.mem_categories_iff.1 hc
  · obtain ⟨text, -, hcategories⟩ := hholds a ha
    obtain ⟨content, hlookup, hexports⟩ := hcategories c hmem
    exact ⟨content, hlookup, hexports.shape_distinct⟩
  · exact ⟨_, hreferences c hmem, AnyCategory.shape_fallback _ _ _ _, .inr rfl⟩

/-- An export in the secondary locale without a reference records what every file has for its
categories. -/
theorem records_of_collect {e : Export} (hnames : (p.manifest.categories.map AnyCategory.name).Nodup)
    (hlocales : p.manifest.secondaryLocale ≠ p.manifest.primaryLocale)
    (hnonempty : p.manifest.secondaryLocale ≠ [])
    (h : (p.collect (some p.manifest.secondaryLocale) none files).result = .ok e) :
    e.locale = p.manifest.secondaryLocale ∧ p.Records e files p.manifest.artifacts := by
  obtain ⟨hlocale, hholds, -⟩ := holds_of_collect hnames (Export.target_secondary hnonempty) h
  refine ⟨hlocale, fun a ha => ?_⟩
  obtain ⟨text, htext, hcategories⟩ := hholds a ha
  exact ⟨text, htext, fun c hc => (hcategories c hc).recorded (hlocale ▸ hlocales)⟩

end Project

end Bilingual

import Bilingual.Proofs.Export.Legible
import Bilingual.Proofs.Project.Apply
import Bilingual.Proofs.Project.Export
import Bilingual.Proofs.RoundTrip.Category

set_option autoImplicit false

/-! # Applying an export

An export in the secondary locale that is applied to the project it was made from changes nothing where texts
are bound to their sites by place (`Project.apply_collect_unchanged`). Where they are bound by a key, it
changes nothing exactly if all sites of a key have the same text (`Project.apply_collect_unchanged_iff`):
otherwise the text of the first one goes to all of them. -/

namespace Bilingual

variable {p : Project} {e : Export} {c : Category} {text time : Text} {input : PatchInput}
  {found : Option Content}

/-! ## What an export brings for a category -/

/-- What applying an export without a reference works with. -/
def Project.putBack (p : Project) (e : Export) (time : Text) : PatchInput :=
  p.patchInput (e.snapshot p.manifest.locales time) none

/-- What an export records for a category is what its snapshot brings. -/
theorem Project.given?_of_recorded (h : e.Recorded p.manifest text c) (time : Text) :
    ∃ found, (p.putBack e time).given? c = some (.ok (c.exported found)) ∧
      c.Found text p.manifest.locales e.locale found := by
  obtain ⟨found, hlookup, hfound⟩ := h
  refine ⟨found, ?_, hfound⟩
  have hcategories : (p.putBack e time).snapshot.categories.lookup? c.name
      = some (c.exported found).toJson := by
    show OrderedMap.lookup? (OrderedMap.mapValues Content.toJson e.contents) c.name = _
    rw [OrderedMap.lookup?_mapValues, hlookup]
    rfl
  have hshape : (c.exported found).shape = c.placement.shape ∧ (c.exported found).Distinct := by
    rcases hfound with hcontents | ⟨rfl, -⟩
    · exact Category.shape_distinct_exported hcontents
    · exact ⟨Content.shape_empty _, Content.distinct_empty _⟩
  exact PatchInput.given?_of_lookup? _ _ hcategories hshape.1 hshape.2

theorem PatchInput.mergedTexts_of_key (hbound : c.placement.BoundByKey) : input.mergedTexts c = [] := by
  unfold mergedTexts
  cases hplace : c.placement with
  | dictBlock place merge defaults =>
    rw [hplace] at hbound
    rw [show merge = [] from hbound]
    rfl
  | _ => rfl

/-! ## A project of one file -/

/-- The project of one file with some categories. -/
def Project.single (categories : List Category) : Project where
  directory := ⟨"/", []⟩
  manifest := { artifacts := [{ path := "page.ts", categories }] }

/-- The files of such a project. -/
def Files.single (text : Text) : Files where
  directories := []
  contents := [("/page.ts", (Text.Utf8.encode? text).getD [])]

/-! ## Texts bound by place -/

/-- The opener of the primary block of an ordinal category cannot be read. -/
def Category.OpenerFails (c : Category) (locales : Locales) (failure : Failure) : Prop :=
  c.placement.isOrdinal = true ∧ ∃ place, c.placement.blockPlace? = some place ∧
    BlockSpan.opener (substituteLocale (place.openerFor locales.primary) locales.primary) = .error failure

/-- Counting the sites of a category whose contents can be read fails only for the opener of its primary
block. -/
theorem Category.error_of_ordinalCounts {locales : Locales} {locale : Text} {failure : Failure}
    (hcontents : c.contents? text locales locale = .ok found)
    (h : c.ordinalCounts text locales = .error failure) : c.OpenerFails locales failure := by
  have hblock : ∀ kind, c.placement.itemKind? = some kind → kind.IsKeyless →
      c.placement.isOrdinal = true → c.parsedBlock text locales.primary = .error failure →
        c.OpenerFails locales failure := by
    intro kind hkind hkeyless hordinal h
    rcases c.failsOnly_parsedBlock text locales.primary failure h with ⟨other, hother, -, hkeyed⟩ | hopener
    · rw [hkind] at hother
      cases hother
      exact absurd hkeyless hkeyed
    · exact ⟨hordinal, hopener⟩
  unfold Category.ordinalCounts at h
  cases hplace : c.placement with
  | pairs fields defaults =>
    exfalso
    simp only [hplace] at h
    rcases Except.bind_eq_error_iff.1 h with h | ⟨counts, -, h⟩
    · obtain ⟨field, hfield, h⟩ := Except.exists_of_mapM_eq_error h
      have hread : ∃ occurrences, c.occurrences text (field.pattern locales) = .ok occurrences := by
        rcases Category.contents?_pairs hplace hcontents with ⟨hwindow, -⟩ | ⟨columns, hcolumns, -⟩
        · exact ⟨[], Category.occurrences_of_window?_eq_none hwindow _⟩
        · obtain ⟨column, -, -, occurrences, hoccurrences, -⟩ :=
            List.Forall₂.exists_of_mem_left hcolumns hfield
          exact ⟨occurrences, hoccurrences⟩
      obtain ⟨occurrences, hoccurrences⟩ := hread
      rw [hoccurrences] at h
      cases h
    · cases h
  | recordBlock place names defaults =>
    simp only [hplace] at h
    rcases Except.bind_eq_error_iff.1 h with h | ⟨parsed, -, h⟩
    · exact hblock .record (by rw [hplace]; rfl) trivial (by rw [hplace]; rfl) h
    · split at h <;> cases h
  | listBlock place name defaults =>
    simp only [hplace] at h
    rcases Except.bind_eq_error_iff.1 h with h | ⟨parsed, -, h⟩
    · exact hblock .literal (by rw [hplace]; rfl) trivial (by rw [hplace]; rfl) h
    · split at h <;> cases h
  | _ =>
    simp only [hplace] at h
    cases h

/-- A category whose texts are bound by place is at rest under its own contents, unless a body of it has no
end or its sites cannot be counted. -/
theorem PatchInput.atRest_of_place
    (hlocales : input.manifest.locales.secondary ≠ input.manifest.locales.primary)
    (hbound : c.placement.BoundByPlace)
    (hfound : c.Found text input.manifest.locales input.manifest.locales.secondary found)
    (hgiven : input.given? c = some (.ok (c.exported found))) :
    input.AtRest c text ∨ ∃ failure, (input.patchCategory c text).result = .error failure ∧
      ((∃ delimiter start, failure = .unterminated delimiter start) ∨
        c.OpenerFails input.manifest.locales failure) := by
  rcases hfound with hcontents | ⟨rfl, delimiter, start, hcontents⟩
  -- shifted or not: contents of the file itself ask for no edit
  · cases hcounts : c.ordinalCounts text input.manifest.locales with
    | ok counts =>
      left
      intro content hcontent
      rw [hgiven] at hcontent
      cases hcontent
      exact ⟨_, result_shifts input c text hcounts, fun _ => rests_of_place hlocales hbound hcontents _⟩
    | error failure =>
      right
      refine ⟨failure, ?_, .inr (Category.error_of_ordinalCounts hcontents hcounts)⟩
      rw [result_patchCategory, hgiven]
      show ((input.shifts c text).result >>= _) = _
      rw [result_shifts_of_error input c text hcounts]
      rfl
  -- only documents come here, and patching them breaks off at the same body
  · right
    refine ⟨.unterminated delimiter start, ?_, .inl ⟨delimiter, start, rfl⟩⟩
    obtain ⟨⟨keyField, bodyField, defaults, hplace⟩, hbodies⟩ := Category.unterminated_contents? hcontents
    have hshifts : (input.shifts c text).result = .ok [] := by
      unfold shifts
      rw [hplace]
      rfl
    have hplan : (input.plan c text (c.exported none) (input.mergedTexts c)).result
        = .error (.unterminated delimiter start) := by
      unfold plan Category.exported
      simp only [hplace]
      show (Plan.documents c text _ _).result = _
      unfold Plan.documents
      rw [Logged.result_bind, Logged.result_lift, hbodies]
      rfl
    rw [result_patchCategory, hgiven, hshifts]
    show ((input.plan c text (c.exported none) (input.mergedTexts c)).result >>= _) = _
    rw [hplan]
    rfl

namespace Project

/-- Every artifact whose texts are bound by place is left as it is, or the work ends with an opener that
cannot be read. -/
theorem applyArtifact_of_place {a : Artifact} {files : Files}
    (hlocales : p.manifest.secondaryLocale ≠ p.manifest.primaryLocale)
    (hbound : ∀ c ∈ a.categories, c.placement.BoundByPlace) (he : e.locale = p.manifest.secondaryLocale)
    (hread : files.read (p.path a.path) = .ok text)
    (hrecorded : ∀ c ∈ a.categories, e.Recorded p.manifest text c) (time : Text) (write : Bool) :
    (p.applyArtifact (p.putBack e time) write a).Leaves files ∧
      ((∃ report, (p.applyArtifact (p.putBack e time) write a files).result = .ok report ∧
          report.Unchanged) ∨
        ∃ c ∈ a.categories, ∃ failure,
          (p.applyArtifact (p.putBack e time) write a files).result = .error (.text failure) ∧
            c.OpenerFails p.manifest.locales failure) := by
  have hcategories : ∀ c ∈ a.categories, (p.putBack e time).AtRest c text ∨ ∃ failure,
      ((p.putBack e time).patchCategory c text).result = .error failure ∧
        ((∃ delimiter start, failure = .unterminated delimiter start) ∨
          ∃ c ∈ a.categories, c.OpenerFails p.manifest.locales failure) := by
    intro c hc
    obtain ⟨found, hgiven, hfound⟩ := given?_of_recorded (hrecorded c hc) time
    rw [he] at hfound
    rcases (p.putBack e time).atRest_of_place hlocales (hbound c hc) hfound hgiven with hrest |
      ⟨failure, hfailure, hkind⟩
    · exact .inl hrest
    · exact .inr ⟨failure, hfailure, hkind.imp_right fun hopener => ⟨c, hc, hopener⟩⟩
  -- a body without an end is reported and passed over, an opener that cannot be read ends the work
  rcases PatchInput.quiet_or_fails_patchText hcategories with hquiet | ⟨failure, hfailure, hkind⟩
  · obtain ⟨hleaves, hreport⟩ := unchanged_of_quiet hread hquiet write
    exact ⟨hleaves, .inl hreport⟩
  · rcases hkind with ⟨delimiter, start, rfl⟩ | ⟨c, hc, hopener⟩
    · obtain ⟨hleaves, hreport⟩ := unchanged_of_unterminated hread hfailure write
      exact ⟨hleaves, .inl hreport⟩
    · have hother : ∀ delimiter start, failure ≠ .unterminated delimiter start := by
        rintro delimiter start rfl
        obtain ⟨-, place, -, hplace⟩ := hopener
        cases BlockSpan.blockOpener_of_opener hplace
      obtain ⟨hleaves, hfails⟩ := fails_of_error hread hfailure hother write
      exact ⟨hleaves, .inr ⟨c, hc, failure, hfails, hopener⟩⟩

/-- An export in the secondary locale that is applied to the project it was made from changes nothing where
texts are bound to their sites by place: no file changes, and no report tells of an update, also where keys
or fields come twice, blocks or regions are missing or cannot be read, or bodies have no end. The work comes
to its reports unless the opener of a primary block cannot be read. -/
theorem apply_collect_unchanged {files : Files}
    (hnames : (p.manifest.categories.map AnyCategory.name).Nodup)
    (hlocales : p.manifest.secondaryLocale ≠ p.manifest.primaryLocale)
    (hnonempty : p.manifest.secondaryLocale ≠ [])
    (hbound : ∀ a ∈ p.manifest.artifacts, ∀ c ∈ a.categories, c.placement.BoundByPlace)
    (h : (p.collect (some p.manifest.secondaryLocale) none files).result = .ok e) (time : Text)
    (write : Bool) :
    (p.apply (e.snapshot p.manifest.locales time) none write files).files = files ∧
      ((∃ reports, (p.apply (e.snapshot p.manifest.locales time) none write files).result = .ok reports ∧
          ∀ report ∈ reports, report.Unchanged) ∨
        ∃ a ∈ p.manifest.artifacts, ∃ c ∈ a.categories, ∃ failure,
          (p.apply (e.snapshot p.manifest.locales time) none write files).result = .error (.text failure) ∧
            c.OpenerFails p.manifest.locales failure) := by
  obtain ⟨he, hrecords⟩ := records_of_collect hnames hlocales hnonempty h
  have hartifacts : ∀ a ∈ p.manifest.artifacts,
      (p.applyArtifact (p.putBack e time) write a).Leaves files ∧
        ((∃ report, (p.applyArtifact (p.putBack e time) write a files).result = .ok report ∧
            report.Unchanged) ∨
          ∃ c ∈ a.categories, ∃ failure,
            (p.applyArtifact (p.putBack e time) write a files).result = .error (.text failure) ∧
              c.OpenerFails p.manifest.locales failure) := by
    intro a ha
    obtain ⟨text, hread, hrecorded⟩ := hrecords a ha
    exact applyArtifact_of_place hlocales (hbound a ha) he hread hrecorded time write
  obtain ⟨hfiles, hresult⟩ := p.apply_eq (e.snapshot p.manifest.locales time) none write files
  obtain ⟨hleaves, hrows⟩ := Action.mapM_of_unchanged fun a ha => (hartifacts a ha).1
  have hresult := hresult.trans hrows
  rw [hfiles, hresult]
  refine ⟨hleaves, ?_⟩
  cases hreports : p.manifest.artifacts.mapM fun a =>
    (p.applyArtifact (p.putBack e time) write a files).result with
  | ok reports =>
    refine .inl ⟨reports, rfl, fun report hreport => ?_⟩
    obtain ⟨a, ha, hstep⟩ := List.Forall₂.exists_of_mem_right (Except.mapM_eq_ok_iff.1 hreports) hreport
    rcases (hartifacts a ha).2 with ⟨report', hreport', hunchanged⟩ | ⟨c, -, failure, hfailure, -⟩
    · rw [hstep] at hreport'
      cases hreport'
      exact hunchanged
    · rw [hstep] at hfailure
      cases hfailure
  | error failure =>
    right
    obtain ⟨a, ha, hstep⟩ := Except.exists_of_mapM_eq_error hreports
    rcases (hartifacts a ha).2 with ⟨report', hreport', -⟩ | ⟨c, hc, failure', hfailure, hopener⟩
    · rw [hstep] at hreport'
      cases hreport'
    · rw [hstep] at hfailure
      cases hfailure
      exact ⟨a, ha, c, hc, failure', rfl, hopener⟩

/-- A pair and a block with a repeated key and a repeated field. -/
def placedSample : Project := single [
  { name := "labels", region := none, placement := .pairs [⟨"label", none, none⟩] [] },
  { name := "cards", region := none
    placement := .keyedRecordBlock ⟨[], "\x7blocale\x7d: \x7b", []⟩ ["title"] [] }]

/-- A file of it. -/
def placedText : Text :=
  "label: \x7b en: 'A', ar: 'P' \x7d\nar: \x7b\n  a: \x7b title: 'X', title: 'Y' \x7d,\n  a: \x7b title: 'Z' \x7d,\n\x7d\n"

/-- What is exported of it. -/
def placedExport : Export where
  locale := "ar"
  contents := [("labels", .records [some [("label", some "P")]]),
    ("cards", .keyedRecords [("a", some [("title", some "Y")])])]
  occurrences := [("labels.label", 1)]
  entries := [⟨"labels", "pair", some "page.ts", .artifact, 1⟩,
    ⟨"cards", "keyed_record_block", some "page.ts", .artifact, 1⟩]

theorem apply_collect_unchanged_placed :
    (placedSample.collect (some "ar") none (Files.single placedText)).result = .ok placedExport ∧
      (placedSample.apply (placedExport.snapshot ⟨"en", "ar"⟩ "now") none true
        (Files.single placedText)).files = Files.single placedText ∧
      ∃ reports, (placedSample.apply (placedExport.snapshot ⟨"en", "ar"⟩ "now") none true
        (Files.single placedText)).result = .ok reports ∧ ∀ report ∈ reports, report.Unchanged := by
  have hcollect : (placedSample.collect (some placedSample.manifest.secondaryLocale) none
      (Files.single placedText)).result = .ok placedExport := by decide +kernel
  have hbound : ∀ a ∈ placedSample.manifest.artifacts, ∀ c ∈ a.categories, c.placement.BoundByPlace := by
    simp [placedSample, single, Placement.BoundByPlace]
  have hcompletes : (placedSample.apply (placedExport.snapshot placedSample.manifest.locales "now") none true
      (Files.single placedText)).result.toOption.isSome = true := by decide +kernel
  obtain ⟨hfiles, hreports | ⟨_, _, _, _, failure, hfails, -⟩⟩ :=
    apply_collect_unchanged (by decide) (by decide) (by decide) hbound hcollect "now" true
  · exact ⟨hcollect, hfiles, hreports⟩
  · rw [hfails] at hcompletes
    cases hcompletes

end Project

/-! ## Texts bound by key -/

theorem PatchInput.result_shifts_of_key (hbound : c.placement.BoundByKey) (text : Text) :
    (input.shifts c text).result = .ok [] := by
  have hordinal : c.placement.isOrdinal = false := by
    cases hplace : c.placement with
    | keyedPairs keyField label defaults => rfl
    | choices condition defaults => rfl
    | dictBlock place merge defaults => rfl
    | _ =>
      rw [hplace] at hbound
      exact hbound.elim
  unfold shifts
  rw [hordinal]
  rfl

/-- A category whose texts are bound by key is at rest under its own contents exactly if all sites of a key
agree. -/
theorem PatchInput.atRest_iff_agree
    (hlocales : input.manifest.locales.secondary ≠ input.manifest.locales.primary)
    (hbound : c.placement.BoundByKey)
    (hcontents : c.contents? text input.manifest.locales input.manifest.locales.secondary = .ok found)
    (hgiven : input.given? c = some (.ok (c.exported found))) :
    ∃ sites, c.keyedSites text input.manifest.locales = .ok sites ∧
      (input.AtRest c text ↔ OrderedMap.Agree sites) := by
  obtain ⟨sites, hsites, hrests⟩ := rests_of_key_iff hlocales hbound hcontents
  refine ⟨sites, hsites, ?_⟩
  rw [← hrests]
  constructor
  · intro hrest
    obtain ⟨shifted, hshifted, hplan⟩ := hrest _ hgiven
    rw [result_shifts_of_key hbound] at hshifted
    cases hshifted
    rw [mergedTexts_of_key hbound] at hplan
    exact hplan rfl
  · intro hplan content hcontent
    rw [hgiven] at hcontent
    cases hcontent
    refine ⟨[], result_shifts_of_key hbound text, fun _ => ?_⟩
    rw [mergedTexts_of_key hbound]
    exact hplan

/-- Where texts are bound by key, patching never breaks off at a body without an end. -/
theorem PatchInput.terminated_patchCategory_of_key (hbound : c.placement.BoundByKey) (text : Text) :
    Terminated (input.patchCategory c text).result := by
  have hplan : ∀ content merged, Terminated (input.plan c text content merged).result := by
    intro content merged
    unfold plan
    cases hplace : c.placement with
    | keyedPairs keyField label defaults =>
      cases content with
      | map texts => exact terminated_keyed _ _ _ _
      | records items => exact terminated_ok _
      | keyedRecords items => exact terminated_ok _
    | choices condition defaults =>
      cases content with
      | map texts => exact terminated_keyed _ _ _ _
      | records items => exact terminated_ok _
      | keyedRecords items => exact terminated_ok _
    | dictBlock place merge defaults =>
      cases content with
      | map texts => exact terminated_dictBlock _ _ _ _ _
      | records items => exact terminated_ok _
      | keyedRecords items => exact terminated_ok _
    | _ =>
      rw [hplace] at hbound
      exact hbound.elim
  rw [result_patchCategory]
  split
  · exact terminated_ok _
  · exact terminated_ok _
  · rw [result_shifts_of_key hbound]
    refine (hplan _ _).bind fun plan _ => ?_
    exact (terminated_applyAll _ _).bind fun _ _ => terminated_pure _

theorem PatchInput.terminated_patchText_of_key {cs : List Category}
    (hbound : ∀ c ∈ cs, c.placement.BoundByKey) (text : Text) :
    Terminated (input.patchText text cs).result := by
  induction cs generalizing text with
  | nil => exact terminated_ok _
  | cons c rest ih =>
    obtain ⟨hc, hrest⟩ := List.forall_mem_cons.1 hbound
    rw [result_patchText_cons]
    refine (terminated_patchCategory_of_key hc text).bind fun patched _ => ?_
    exact (ih hrest patched.1).bind fun _ _ => terminated_pure _

namespace Project

/-- In every artifact, all sites of a key have the same text. -/
def SitesAgree (p : Project) (files : Files) : Prop :=
  ∀ a ∈ p.manifest.artifacts, ∀ text, files.read (p.path a.path) = .ok text → ∀ c ∈ a.categories,
    ∀ sites, c.keyedSites text p.manifest.locales = .ok sites → OrderedMap.Agree sites

/-- An artifact whose texts are bound by key is patched without a report of an update exactly if all sites of
a key agree. -/
theorem quiet_patchText_iff_agree {a : Artifact}
    (hlocales : p.manifest.secondaryLocale ≠ p.manifest.primaryLocale)
    (hbound : ∀ c ∈ a.categories, c.placement.BoundByKey) (he : e.locale = p.manifest.secondaryLocale)
    (hrecorded : ∀ c ∈ a.categories, e.Recorded p.manifest text c) (time : Text) :
    Quiet ((p.putBack e time).patchText text a.categories) text ↔ ∀ c ∈ a.categories,
      ∀ sites, c.keyedSites text p.manifest.locales = .ok sites → OrderedMap.Agree sites := by
  rw [PatchInput.quiet_patchText_iff, and_iff_right rfl]
  refine forall₂_congr fun c hc => ?_
  obtain ⟨found, hgiven, hfound⟩ := given?_of_recorded (hrecorded c hc) time
  rw [he] at hfound
  -- only documents can have a body without an end, and their texts are not bound by key
  have hcontents : c.contents? text p.manifest.locales p.manifest.secondaryLocale = .ok found := by
    rcases hfound with hcontents | ⟨-, delimiter, start, hcontents⟩
    · exact hcontents
    · obtain ⟨⟨keyField, bodyField, defaults, hplace⟩, -⟩ := Category.unterminated_contents? hcontents
      have hbound := hbound c hc
      rw [hplace] at hbound
      exact hbound.elim
  obtain ⟨sites, hsites, hiff⟩ :=
    (p.putBack e time).atRest_iff_agree hlocales (hbound c hc) hcontents hgiven
  rw [hiff]
  constructor
  · intro hagree other hother
    rw [hsites.symm.trans hother |> Except.ok.inj] at hagree
    exact hagree
  · intro h
    exact h sites hsites

/-- An artifact whose texts are bound by key is reported as unchanged only if it is patched without a report
of an update. -/
theorem quiet_of_unchanged_of_key {a : Artifact} {files : Files} {report : ArtifactReport} {write : Bool}
    (hbound : ∀ c ∈ a.categories, c.placement.BoundByKey) (hread : files.read (p.path a.path) = .ok text)
    (hreport : (p.applyArtifact input write a files).result = .ok report) (hunchanged : report.Unchanged) :
    Quiet (input.patchText text a.categories) text := by
  rcases quiet_of_noUpdate hread hreport hunchanged.noUpdate with hquiet | ⟨delimiter, start, hfails⟩
  · exact hquiet
  · exact absurd hfails (PatchInput.terminated_patchText_of_key hbound text delimiter start)

/-- An export in the secondary locale that is applied to the project it was made from changes nothing, where
texts are bound by key, exactly if all sites of a key have the same text. -/
theorem apply_collect_unchanged_iff {files : Files}
    (hnames : (p.manifest.categories.map AnyCategory.name).Nodup)
    (hlocales : p.manifest.secondaryLocale ≠ p.manifest.primaryLocale)
    (hnonempty : p.manifest.secondaryLocale ≠ [])
    (hbound : ∀ a ∈ p.manifest.artifacts, ∀ c ∈ a.categories, c.placement.BoundByKey)
    (h : (p.collect (some p.manifest.secondaryLocale) none files).result = .ok e) (time : Text)
    (write : Bool) :
    ((p.apply (e.snapshot p.manifest.locales time) none write files).files = files ∧
        ∃ reports, (p.apply (e.snapshot p.manifest.locales time) none write files).result = .ok reports ∧
          ∀ report ∈ reports, report.Unchanged) ↔ p.SitesAgree files := by
  obtain ⟨he, hrecords⟩ := records_of_collect hnames hlocales hnonempty h
  obtain ⟨hfiles, hresult⟩ := p.apply_eq (e.snapshot p.manifest.locales time) none write files
  rw [hfiles, hresult]
  constructor
  · rintro ⟨-, reports, hreports, hunchanged⟩ a ha text hread c hc
    -- as long as nothing is updated, each artifact is patched in the files as they were
    obtain ⟨report, hreport, hsame⟩ := Action.leaves_of_mapM (fun a ha report hreport hsame => by
      obtain ⟨text, hread, -⟩ := hrecords a ha
      have hquiet := quiet_of_unchanged_of_key (hbound a ha) hread hreport hsame
      exact (unchanged_of_quiet hread hquiet write).1) hreports hunchanged a ha
    obtain ⟨text', hread', hrecorded⟩ := hrecords a ha
    rw [hread] at hread'
    cases hread'
    have hquiet := quiet_of_unchanged_of_key (hbound a ha) hread hreport hsame
    exact (quiet_patchText_iff_agree hlocales (hbound a ha) he hrecorded time).1 hquiet c hc
  · intro hagree
    have hartifacts : ∀ a ∈ p.manifest.artifacts,
        (p.applyArtifact (p.putBack e time) write a).Leaves files ∧
          ∃ report, (p.applyArtifact (p.putBack e time) write a files).result = .ok report ∧
            report.Unchanged := by
      intro a ha
      obtain ⟨text, hread, hrecorded⟩ := hrecords a ha
      exact unchanged_of_quiet hread ((quiet_patchText_iff_agree hlocales (hbound a ha) he hrecorded
        time).2 (hagree a ha text hread)) write
    obtain ⟨hleaves, hrows⟩ := Action.mapM_of_unchanged fun a ha => (hartifacts a ha).1
    obtain ⟨reports, hreports, hunchanged⟩ := Except.exists_mapM_of_forall fun a ha => (hartifacts a ha).2
    exact ⟨hleaves, reports, hrows.trans hreports, hunchanged⟩

/-- Links, each keyed by where it leads. -/
def keyedSample : Project := single [
  { name := "links", region := none, placement := .keyedPairs "to" "label" [] }]

/-- A file of it, with the secondary texts of two links that lead to the same place. -/
def keyedText (first second : Text) : Text :=
  "to: '/x', label: \x7b en: 'A', ar: '" ++ first ++ "' \x7d\nto: '/x', label: \x7b en: 'B', ar: '" ++
    second ++ "' \x7d\n"

/-- What is exported of it. -/
def keyedExport : Export where
  locale := "ar"
  contents := [("links", .map [("/x", some "P")])]
  entries := [⟨"links", "keyed_pair", some "page.ts", .artifact, 1⟩]

theorem apply_collect_unchanged_iff_keyed :
    (keyedSample.collect (some "ar") none (Files.single (keyedText "P" "P"))).result = .ok keyedExport ∧
      ((keyedSample.apply (keyedExport.snapshot ⟨"en", "ar"⟩ "now") none true
          (Files.single (keyedText "P" "P"))).files = Files.single (keyedText "P" "P") ∧
        ∃ reports, (keyedSample.apply (keyedExport.snapshot ⟨"en", "ar"⟩ "now") none true
          (Files.single (keyedText "P" "P"))).result = .ok reports ∧ ∀ report ∈ reports, report.Unchanged) := by
  have hcollect : (keyedSample.collect (some keyedSample.manifest.secondaryLocale) none
      (Files.single (keyedText "P" "P"))).result = .ok keyedExport := by decide +kernel
  have hbound : ∀ a ∈ keyedSample.manifest.artifacts, ∀ c ∈ a.categories, c.placement.BoundByKey := by
    simp [keyedSample, single, Placement.BoundByKey]
  have hagree : keyedSample.SitesAgree (Files.single (keyedText "P" "P")) := by
    have hread : (Files.single (keyedText "P" "P")).read (keyedSample.path "page.ts")
        = .ok (keyedText "P" "P") := by decide +kernel
    intro a ha text htext c hc sites hsites
    obtain rfl := List.mem_singleton.1 ha
    obtain rfl := List.mem_singleton.1 hc
    rw [hread] at htext
    cases htext
    have hfound : Category.keyedSites
        { name := "links", region := none, placement := .keyedPairs "to" "label" [] }
        (keyedText "P" "P") keyedSample.manifest.locales = .ok [("/x", "P"), ("/x", "P")] := by
      decide +kernel
    rw [hfound] at hsites
    cases hsites
    decide
  exact ⟨hcollect, (apply_collect_unchanged_iff (by decide) (by decide) (by decide) hbound hcollect "now"
    true).2 hagree⟩

/-- Where two sites of a key differ, the text of the first one goes to both. -/
theorem apply_collect_changes_repeated_key :
    (keyedSample.manifest.categories.map AnyCategory.name).Nodup ∧
      keyedSample.manifest.secondaryLocale ≠ keyedSample.manifest.primaryLocale ∧
      (keyedSample.collect (some "ar") none (Files.single (keyedText "P" "Q"))).result
        = .ok keyedExport ∧
      ((keyedSample.apply (keyedExport.snapshot ⟨"en", "ar"⟩ "now") none true
        (Files.single (keyedText "P" "Q"))).files.read (keyedSample.path "page.ts"))
          = .ok (keyedText "P" "P") ∧
      (keyedSample.apply (keyedExport.snapshot ⟨"en", "ar"⟩ "now") none true
        (Files.single (keyedText "P" "Q"))).result = .ok [{
          path := "page.ts", changed := true, written := true
          entries := [{ category := "links", status := .updated, key := some "/x" }] }] := by
  refine ⟨by decide, by decide, ?_, ?_, ?_⟩
  · decide +kernel
  · decide +kernel
  · decide +kernel

end Project

end Bilingual

import Bilingual.Command
import Bilingual.Proofs.Project.Export
import Bilingual.Proofs.Project.Whole

set_option autoImplicit false

/-! # Commands that fail

A command reads what it needs before it writes its document, and writing changes no file when it fails
(`Action.KeepsFiles`). Applying writes one artifact after the other, so there all files are as they were only while none
of them has been written (`Project.files_of_apply_error`). Nothing else is left behind by a command that fails: no file comes
and none goes (`Command.contents_of_run_error`). -/

namespace Bilingual

theorem Files.Kept.hasFile {files files' : Files} (h : files.Kept files') (place : Path) :
    files'.hasFile place = files.hasFile place := by
  rw [Files.hasFile, Files.hasFile, h.contents]

/-! ## Reading -/

namespace Action

variable {α β : Type} {files : Files}

theorem leaves_isFile (path : Path) : (isFile path).Leaves files := rfl

theorem leaves_readManifest (path : Path) : (readManifest path).Leaves files := leaves_ofExcept _

theorem leaves_openProject (directory : Path) : (openProject directory).Leaves files := by
  refine (leaves_isFile _).bind fun found _ => ?_
  cases found with
  | true => exact (leaves_readManifest _).bind fun manifest _ => leaves_pure _
  | false => exact leaves_pure _

theorem leaves_readSnapshot (path : Path) : (readSnapshot path).Leaves files :=
  (leaves_read path).bind fun _ _ => leaves_ofExcept _

theorem leaves_readReference (path : Path) : (readReference path).Leaves files := by
  refine (leaves_isFile path).bind fun found _ => ?_
  cases found with
  | true => exact (leaves_read path).bind fun text _ => (leaves_ofExcept _).bind fun fields _ => leaves_pure _
  | false => exact leaves_pure _

/-! ## Failing -/

section Bind

variable {x : Action α} {f : α → Action β} {e : ProjectFailure}

/-- Two actions fail when the first one does, and otherwise when the second one does. Where the first one only reads,
the files are then those behind the second one. -/
theorem Leaves.of_bind_error (hx : x.Leaves files) (h : ((x >>= f) files).result = .error e) :
    ((x >>= f) files).files = files ∨ ∃ a, (x files).result = .ok a ∧ (f a files).result = .error e ∧
      ((x >>= f) files).files = (f a files).files := by
  cases hresult : (x files).result with
  | error e' =>
    left
    rw [bind_of_error hresult]
    exact hx
  | ok a =>
    rw [bind_of_ok hresult, hx] at h ⊢
    exact .inr ⟨a, rfl, h, rfl⟩

/-- An action that is followed by one that cannot fail fails by itself. -/
theorem of_bind_error (hf : ∀ a files, ∃ b, (f a files).result = .ok b) (h : ((x >>= f) files).result = .error e) :
    (x files).result = .error e ∧ ((x >>= f) files).files = (x files).files := by
  cases hresult : (x files).result with
  | error e' =>
    rw [bind_of_error hresult] at h ⊢
    cases h
    exact ⟨rfl, rfl⟩
  | ok a =>
    obtain ⟨b, hb⟩ := hf a (x files).files
    rw [bind_of_ok hresult] at h
    dsimp only at h
    rw [hb] at h
    cases h

/-- When the action fails, all files are as they were. -/
def KeepsFiles (x : Action α) (files : Files) : Prop :=
  ∀ e, (x files).result = .error e → files.Kept (x files).files

theorem Leaves.bind_keepsFiles (hx : x.Leaves files)
    (hf : ∀ a, (x files).result = .ok a → (f a).KeepsFiles files) : (x >>= f).KeepsFiles files := by
  intro e h
  obtain hsame | ⟨a, ha, hfails, hafter⟩ := hx.of_bind_error h
  · rw [hsame]
    exact Files.Kept.refl files
  · rw [hafter]
    exact hf a ha e hfails

theorem KeepsFiles.bind (hx : x.KeepsFiles files) (hf : ∀ a files, ∃ b, (f a files).result = .ok b) :
    (x >>= f).KeepsFiles files := by
  intro e h
  obtain ⟨hfails, hafter⟩ := of_bind_error hf h
  rw [hafter]
  exact hx e hfails

end Bind

/-- Writing a file changes nothing when it fails. -/
theorem keepsFiles_write (path : Path) (text : Text) : (write path text).KeepsFiles files := by
  intro e h
  cases hwrite : (files.write path text).2 with
  | error error => exact Files.kept_of_write_error hwrite
  | ok done =>
    have hresult : (write path text files).result = (files.write path text).2.mapError ProjectFailure.file := rfl
    rw [hresult, hwrite] at h
    cases h

end Action

/-! ## Applying -/

namespace Project

variable {p : Project} {input : PatchInput} {files : Files} {e : ProjectFailure}

theorem pairLocales_leaves (p : Project) (reference : Reference) (time : Text) (files : Files) :
    (p.pairLocales reference time).Leaves files :=
  (p.collect_leaves _ reference files).bind fun _ _ => (p.collect_leaves _ reference files).bind fun _ _ =>
    Action.leaves_pure _

/-- Applying fails at an artifact, when those in front of it are done and reported. -/
def FailsBehind (p : Project) (input : PatchInput) (files : Files) (reports : List ArtifactReport)
    (e : ProjectFailure) : Prop :=
  ∃ done a later, p.manifest.artifacts = done ++ a :: later ∧
    ((done.mapM (p.applyArtifact input true)) files).result = .ok reports ∧
      (p.applyArtifact input true a ((done.mapM (p.applyArtifact input true)) files).files).result = .error e

/-- An artifact that is not reported as written leaves the files as they are. -/
theorem leaves_of_unwritten {a : Artifact} {report : ArtifactReport}
    (h : (p.applyArtifact input true a files).result = .ok report) (hwritten : report.written = false) :
    (p.applyArtifact input true a).Leaves files := by
  have hstep := p.artifactStep input true a files
  rw [h] at hstep
  unfold Action.Leaves
  generalize (p.applyArtifact input true a files).files = after at hstep
  cases hstep with
  | written => cases hwritten
  | _ => rfl

/-- So do artifacts in a row of which none is. -/
theorem files_of_unwritten {done : List Artifact} {reports : List ArtifactReport}
    (h : ((done.mapM (p.applyArtifact input true)) files).result = .ok reports)
    (hwritten : ∀ report ∈ reports, report.written = false) :
    ((done.mapM (p.applyArtifact input true)) files).files = files := by
  induction done generalizing files reports with
  | nil => rfl
  | cons a rest ih =>
    have hrow := Action.row_mapM (p.applyArtifact input true) files a rest
    generalize ((a :: rest).mapM (p.applyArtifact input true)) files = out at hrow h ⊢
    cases hrow with
    | first => cases h
    | later => cases h
    | all hfirst hrest =>
      cases h
      obtain ⟨hreport, hothers⟩ := List.forall_mem_cons.1 hwritten
      exact (ih hrest hothers).trans (leaves_of_unwritten hfirst hreport)

/-- Applying keeps the names of all files, whether it fails or not. -/
theorem sameNames_apply (p : Project) (snapshot : Snapshot) (reference : Reference) (files : Files) :
    files.SameNames (p.apply snapshot reference true files).files := by
  rw [(p.apply_eq snapshot reference true files).1]
  exact Action.files_mapM Files.SameNames.refl Files.SameNames.trans fun a _ files =>
    (p.artifactStep _ true a files).frame.1

/-- Applying that fails leaves all files as they were, unless an artifact has been written before. -/
theorem files_of_apply_error {snapshot : Snapshot} {reference : Reference}
    (h : (p.apply snapshot reference true files).result = .error e) :
    (p.apply snapshot reference true files).files = files ∨
      ∃ reports, p.FailsBehind (p.patchInput snapshot reference) files reports e ∧
        ∃ report ∈ reports, report.written = true := by
  obtain ⟨hfiles, hresult⟩ := p.apply_eq snapshot reference true files
  rw [hresult] at h
  obtain ⟨done, a, later, reports, hartifacts, hdone, hfails, hafter⟩ := Action.exists_of_mapM_error h
  by_cases hwritten : ∃ report ∈ reports, report.written = true
  · exact .inr ⟨reports, ⟨done, a, later, hartifacts, hdone, hfails⟩, hwritten⟩
  · left
    have hunwritten : ∀ report ∈ reports, report.written = false := fun report hreport =>
      Bool.eq_false_iff.2 fun htrue => hwritten ⟨report, hreport, htrue⟩
    have hsame := files_of_unwritten hdone hunwritten
    -- the artifact at which it fails is not written either
    rw [hsame] at hfails hafter
    have hstep := p.artifactStep (p.patchInput snapshot reference) true a files
    rw [hfails] at hstep
    rw [hfiles, hafter, hstep.eq_of_error]

end Project

/-! ## Commands -/

namespace Command

variable {directory : Path} {time : Text} {files : Files} {e : ProjectFailure}

theorem keepsFiles_runExport (directory : Path) (time : Text) (files : Files) :
    (runExport directory time).KeepsFiles files := by
  refine (Action.leaves_openProject directory).bind_keepsFiles fun p _ => ?_
  refine (Action.leaves_readReference _).bind_keepsFiles fun reference _ => ?_
  refine (p.collect_leaves none reference files).bind_keepsFiles fun e _ => ?_
  exact (Action.keepsFiles_write _ _).bind fun _ _ => ⟨_, rfl⟩

theorem keepsFiles_runSources (directory : Path) (time : Text) (files : Files) :
    (runSources directory time).KeepsFiles files := by
  refine (Action.leaves_openProject directory).bind_keepsFiles fun p _ => ?_
  refine (Action.leaves_readReference _).bind_keepsFiles fun reference _ => ?_
  refine (p.pairLocales_leaves reference time files).bind_keepsFiles fun fields _ => ?_
  exact (Action.keepsFiles_write _ _).bind fun _ _ => ⟨_, rfl⟩

/-- Applying in a directory has written an artifact before it fails. -/
def HasWritten (directory : Path) (files : Files) (e : ProjectFailure) : Prop :=
  ∃ p snapshot reference reports, (Action.openProject directory files).result = .ok p ∧
    (Action.readSnapshot p.translatedPath files).result = .ok snapshot ∧
      (Action.readReference p.referencePath files).result = .ok reference ∧
        p.FailsBehind (p.patchInput snapshot reference) files reports e ∧ ∃ report ∈ reports, report.written = true

theorem exists_ite_pure (aborted : Prop) [Decidable aborted] (report report' : Report) (files : Files) :
    ∃ r, ((if aborted then pure report else pure report' : Action Report) files).result = .ok r := by
  split
  · exact ⟨report, rfl⟩
  · exact ⟨report', rfl⟩

/-- An apply command fails before it applies anything, or in applying. -/
theorem runApply_of_error (h : (runApply directory files).result = .error e) :
    (runApply directory files).files = files ∨ ∃ p snapshot reference,
      (Action.openProject directory files).result = .ok p ∧
        (Action.readSnapshot p.translatedPath files).result = .ok snapshot ∧
          (Action.readReference p.referencePath files).result = .ok reference ∧
            (p.apply snapshot reference true files).result = .error e ∧
              (runApply directory files).files = (p.apply snapshot reference true files).files := by
  obtain hsame | ⟨p, hp, h, hfiles⟩ := (Action.leaves_openProject directory).of_bind_error h
  · exact .inl hsame
  obtain hsame | ⟨snapshot, hsnapshot, h, hfiles'⟩ := (Action.leaves_readSnapshot _).of_bind_error h
  · exact .inl (hfiles.trans hsame)
  obtain hsame | ⟨reference, hreference, h, hfiles''⟩ := (Action.leaves_readReference _).of_bind_error h
  · exact .inl (hfiles.trans (hfiles'.trans hsame))
  obtain ⟨hfails, hafter⟩ := Action.of_bind_error (fun reports files => exists_ite_pure _ _ _ files) h
  exact .inr ⟨p, snapshot, reference, hp, hsnapshot, hreference, hfails,
    hfiles.trans (hfiles'.trans (hfiles''.trans hafter))⟩

/-- A command that fails, whatever the reason, leaves no file behind that was not there before, and takes none away. All
files keep their bytes, but for an apply command that has already written an artifact. -/
theorem contents_of_run_error {command : Command} (h : (run directory time command files).result = .error e) :
    (∀ place, (run directory time command files).files.hasFile place = files.hasFile place) ∧
      ((command = .applyTexts → ¬ HasWritten directory files e) →
        (run directory time command files).files.contents = files.contents ∧
          ∀ q bytes, files.bytes q = .ok bytes → (run directory time command files).files.bytes q = .ok bytes) := by
  have hkept : ∀ {after : Files}, files.Kept after → (∀ place, after.hasFile place = files.hasFile place) ∧
      after.contents = files.contents ∧ ∀ q bytes, files.bytes q = .ok bytes → after.bytes q = .ok bytes :=
    fun hkept => ⟨hkept.hasFile, hkept.contents, fun _ _ => hkept.bytes⟩
  cases command with
  | exportTexts =>
    obtain ⟨hfile, hbytes⟩ := hkept (keepsFiles_runExport directory time files e h)
    exact ⟨hfile, fun _ => hbytes⟩
  | pairTexts =>
    obtain ⟨hfile, hbytes⟩ := hkept (keepsFiles_runSources directory time files e h)
    exact ⟨hfile, fun _ => hbytes⟩
  | applyTexts =>
    have hrefl := hkept (Files.Kept.refl files)
    show (∀ place, (runApply directory files).files.hasFile place = _) ∧ (_ →
      (runApply directory files).files.contents = _ ∧ ∀ q bytes, _ → (runApply directory files).files.bytes q = _)
    obtain hsame | ⟨p, snapshot, reference, hp, hsnapshot, hreference, hfails, hfiles⟩ := runApply_of_error h
    · rw [hsame]
      exact ⟨hrefl.1, fun _ => hrefl.2⟩
    · rw [hfiles]
      refine ⟨(p.sameNames_apply snapshot reference files).hasFile, fun hnothing => ?_⟩
      obtain hsame | ⟨reports, hreports⟩ := Project.files_of_apply_error hfails
      · rw [hsame]
        exact hrefl.2
      · exact absurd ⟨p, snapshot, reference, reports, hp, hsnapshot, hreference, hreports⟩ (hnothing rfl)

/-- A project with one file. -/
def surrogateManifest : Text :=
  "\x7b\"artifacts\": [\x7b\"path\": \"a.ts\", \"categories\": [\x7b\"name\": \"links\", \"kind\": \"keyed_pair\", \"key_field\": \"to\", \"label\": \"label\"\x7d]\x7d], \"paths\": \x7b\"snapshot\": \"s.json\"\x7d\x7d"

/-- Its manifest, its file with a literal that is read as a lone surrogate, and an older export. -/
def surrogateFiles : Files where
  directories := [⟨"/", ["w"]⟩]
  contents := [surrogateManifest, "to: '/x', label: \x7b en: '\\ud83d', ar: 'P' \x7d\n", "old"].zipWith
    (fun text name => (name, (Text.Utf8.encode? text).getD [])) ["/w/bisync.yaml", "/w/a.ts", "/w/s.json"]

/-- The export comes as far as the part beside the older one, which cannot be filled. -/
theorem contents_of_run_error_surrogate :
    let after := (run ⟨"/", ["w"]⟩ "2026-01-01T00:00:00+00:00" .exportTexts surrogateFiles).files
    (run ⟨"/", ["w"]⟩ "2026-01-01T00:00:00+00:00" .exportTexts surrogateFiles).result =
        .error (.file (.unencodable ⟨"/", ["w", "s.json"]⟩)) ∧
      (∀ place, after.hasFile place = surrogateFiles.hasFile place) ∧
        after.bytes ⟨"/", ["w", "s.json"]⟩ = .ok [0x6F, 0x6C, 0x64] := by
  have hfails : (run ⟨"/", ["w"]⟩ "2026-01-01T00:00:00+00:00" .exportTexts surrogateFiles).result =
      .error (.file (.unencodable ⟨"/", ["w", "s.json"]⟩)) := by decide +kernel
  obtain ⟨hfile, hkept⟩ := contents_of_run_error hfails
  obtain ⟨-, hbytes⟩ := hkept nofun
  exact ⟨hfails, hfile, hbytes _ _ (by decide +kernel)⟩

end Command

end Bilingual

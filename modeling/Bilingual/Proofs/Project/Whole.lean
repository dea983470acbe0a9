import Bilingual.Proofs.Project.Apply
import Bilingual.Proofs.Project.Write

set_option autoImplicit false

/-! # Artifacts are patched whole or not at all

Applying one artifact leaves all files as they are, or puts the bytes of its patched text in its place
(`ArtifactStep`). When no two artifacts lead to one file, each of them is patched from the text that it had before
the run, up to the one at which the run fails; that one, all later ones and every other file keep their bytes
(`Project.apply_whole`). -/

namespace Bilingual

/-! ## One artifact -/

/-- All that applying an artifact can do: the files behind it, and its report or why the work ends. -/
inductive ArtifactStep (input : PatchInput) (write : Bool) (files : Files) (path : Path) (a : Artifact) :
    Files → Except ProjectFailure ArtifactReport → Prop where
  /-- The artifact cannot be read. -/
  | unread {e : FileError} (hread : files.read path = .error e) :
    ArtifactStep input write files path a files (.error (.file e))
  /-- A body has no end, so the artifact is left alone. -/
  | aborted {text : Text} {delimiter : CodePoint} {start : Nat} (hread : files.read path = .ok text)
      (hpatch : (input.patchText text a.categories).result = .error (.unterminated delimiter start)) :
    ArtifactStep input write files path a files
      (.ok { path := a.path, aborted := true, error := some (Failure.unterminated delimiter start).message })
  /-- Patching fails in another way. -/
  | unpatched {text : Text} {failure : Failure} (hread : files.read path = .ok text)
      (hpatch : (input.patchText text a.categories).result = .error failure)
      (hfailure : ∀ delimiter start, failure ≠ .unterminated delimiter start) :
    ArtifactStep input write files path a files (.error (.text failure))
  /-- The text has not changed. -/
  | unchanged {text : Text} {entries : List PatchEntry} (hread : files.read path = .ok text)
      (hpatch : (input.patchText text a.categories).result = .ok (text, entries)) :
    ArtifactStep input write files path a files (.ok { path := a.path, entries })
  /-- The text has changed, and nothing is to be written. -/
  | dry {text patched : Text} {entries : List PatchEntry} (hwrite : write = false)
      (hread : files.read path = .ok text)
      (hpatch : (input.patchText text a.categories).result = .ok (patched, entries)) (hchanged : patched ≠ text) :
    ArtifactStep input write files path a files (.ok { path := a.path, entries, changed := true })
  /-- The new text cannot be written. -/
  | unwritten {text patched : Text} {entries : List PatchEntry} {e : FileError} (hwrite : write = true)
      (hread : files.read path = .ok text)
      (hpatch : (input.patchText text a.categories).result = .ok (patched, entries)) (hchanged : patched ≠ text)
      (hreplace : files.replaceError? path patched = some e) :
    ArtifactStep input write files path a files (.error (.file e))
  /-- The new text is written. -/
  | written {text patched : Text} {entries : List PatchEntry} {place : Path} {bytes : List UInt8}
      (hwrite : write = true) (hread : files.read path = .ok text)
      (hpatch : (input.patchText text a.categories).result = .ok (patched, entries)) (hchanged : patched ≠ text)
      (hplace : files.place path = .ok place) (hbytes : Text.Utf8.encode? patched = some bytes) :
    ArtifactStep input write files path a (files.withFile place bytes)
      (.ok { path := a.path, entries, changed := true, written := true })

theorem Action.write_eq {files files' : Files} {path : Path} {text : Text} {result : Except FileError Unit}
    (h : files.write path text = (files', result)) :
    Action.write path text files = ⟨files', [], result.mapError .file⟩ := by
  unfold Action.write
  rw [h]

namespace Project

variable {p : Project} {input : PatchInput} {a : Artifact} {files : Files}

theorem artifactStep (p : Project) (input : PatchInput) (write : Bool) (a : Artifact) (files : Files) :
    ArtifactStep input write files (p.path a.path) a (p.applyArtifact input write a files).files
      (p.applyArtifact input write a files).result := by
  unfold applyArtifact
  cases hread : files.read (p.path a.path) with
  | error e =>
    have hresult : (Action.read (p.path a.path) files).result = .error (.file e) := by
      unfold Action.read
      rw [hread]
      rfl
    rw [Action.bind_of_error hresult]
    exact .unread hread
  | ok text =>
    rw [Action.bind_of_ok (result_read hread), Action.bind_of_ok (x := Action.attempt _) rfl]
    have hleaves : (Action.attempt (input.patchText text a.categories)
        (Action.read (p.path a.path) files).files).files = files := rfl
    cases hpatch : (input.patchText text a.categories).result with
    | error failure =>
      dsimp only
      cases failure with
      | unterminated delimiter start => exact .aborted hread hpatch
      | _ => exact .unpatched hread hpatch (by simp)
    | ok pair =>
      obtain ⟨patched, entries⟩ := pair
      dsimp only
      by_cases hchanged : patched = text
      · subst hchanged
        simp only [ne_eq, not_true_eq_false, decide_false, Bool.false_and]
        exact .unchanged hread hpatch
      · have hdecide : decide (patched ≠ text) = true := decide_eq_true hchanged
        simp only [hdecide, Bool.true_and]
        cases write with
        | false => exact .dry rfl hread hpatch hchanged
        | true =>
          obtain ⟨place, -, hplace, -⟩ := Files.exists_of_read hread
          have hwrite := Files.write_of_place hplace patched
          cases hreplace : files.replaceError? (p.path a.path) patched with
          | some e =>
            rw [hreplace] at hwrite
            rw [hleaves, if_pos rfl, Action.bind_of_error (congrArg Outcome.result (Action.write_eq hwrite)),
              Action.write_eq hwrite]
            exact .unwritten rfl hread hpatch hchanged hreplace
          | none =>
            obtain ⟨bytes, -, hbytes, -⟩ := Files.exists_of_replaceError? hreplace
            rw [hreplace, hbytes] at hwrite
            rw [hleaves, if_pos rfl, Action.bind_of_ok (congrArg Outcome.result (Action.write_eq hwrite)),
              Action.write_eq hwrite]
            exact .written rfl hread hpatch hchanged hplace hbytes

end Project

namespace ArtifactStep

variable {input : PatchInput} {write : Bool} {files after : Files} {path : Path} {a : Artifact}
  {result : Except ProjectFailure ArtifactReport}

/-- No name appears or goes away, and no other file changes. -/
theorem frame (h : ArtifactStep input write files path a after result) : files.SameNames after ∧
    ∀ q, ¬ files.SameFile path q → after.bytes q = files.bytes q := by
  cases h with
  | written _ hread _ _ hplace _ =>
    obtain ⟨place', -, hplace', hfile, -⟩ := Files.exists_of_read hread
    rw [hplace] at hplace'
    cases hplace'
    exact ⟨Files.sameNames_withFile hfile _, fun q hq => Files.bytes_withFile_of_not_sameFile hplace hfile hq _⟩
  | _ => exact ⟨.refl files, fun _ _ => rfl⟩

theorem eq_of_error {e : ProjectFailure} (h : ArtifactStep input write files path a after (.error e)) :
    after = files := by
  cases h <;> rfl

theorem eq_of_dry (h : ArtifactStep input false files path a after result) : after = files := by
  cases h with
  | written hwrite => cases hwrite
  | _ => rfl

end ArtifactStep

/-! ## Artifacts that are done, and the one that is not -/

/-- An artifact that is done holds the bytes of its own text as it is patched, which are those it had when the text
stays the same. It also has those when patching comes to a body without an end. -/
inductive ArtifactDone (input : PatchInput) (files after : Files) (path : Path) (a : Artifact) :
    ArtifactReport → Prop where
  | patched {text patched : Text} {entries : List PatchEntry} {bytes : List UInt8}
      (hread : files.read path = .ok text)
      (hpatch : (input.patchText text a.categories).result = .ok (patched, entries))
      (hbytes : Text.Utf8.encode? patched = some bytes) (hafter : after.bytes path = .ok bytes)
      (hsame : patched = text → after.bytes path = files.bytes path) :
    ArtifactDone input files after path a
      { path := a.path, entries, changed := patched ≠ text, written := patched ≠ text }
  | aborted {text : Text} {delimiter : CodePoint} {start : Nat} (hread : files.read path = .ok text)
      (hpatch : (input.patchText text a.categories).result = .error (.unterminated delimiter start))
      (hafter : after.bytes path = files.bytes path) :
    ArtifactDone input files after path a
      { path := a.path, aborted := true, error := some (Failure.unterminated delimiter start).message }

/-- A run fails at an artifact that cannot be read, that cannot be patched for another reason than a body without an
end, or whose new text cannot be put in its place. -/
inductive ArtifactFails (input : PatchInput) (files : Files) (path : Path) (a : Artifact) : ProjectFailure → Prop where
  | unread {e : FileError} (hread : files.read path = .error e) : ArtifactFails input files path a (.file e)
  | unpatched {text : Text} {failure : Failure} (hread : files.read path = .ok text)
      (hpatch : (input.patchText text a.categories).result = .error failure)
      (hfailure : ∀ delimiter start, failure ≠ .unterminated delimiter start) :
    ArtifactFails input files path a (.text failure)
  | unwritten {text patched : Text} {entries : List PatchEntry} {e : FileError} (hread : files.read path = .ok text)
      (hpatch : (input.patchText text a.categories).result = .ok (patched, entries)) (hchanged : patched ≠ text)
      (hreplace : files.replaceError? path patched = some e) :
    ArtifactFails input files path a (.file e)

section Step

variable {input : PatchInput} {files files' after after' : Files} {path : Path} {a : Artifact}

/-- What is done to an artifact is done when later work leaves it as it is. -/
theorem ArtifactStep.done {report : ArtifactReport} (h : ArtifactStep input true files path a after (.ok report))
    (hlater : after'.bytes path = after.bytes path) : ArtifactDone input files after' path a report := by
  cases h with
  | aborted hread hpatch => exact .aborted hread hpatch hlater
  | unchanged hread hpatch =>
    obtain ⟨-, bytes, -, -, hbytes, hencode⟩ := Files.exists_of_read hread
    have hdone := ArtifactDone.patched hread hpatch hencode (hlater.trans hbytes) fun _ => hlater
    simpa using hdone
  | dry hwrite => cases hwrite
  | written _ hread hpatch hchanged hplace hbytes =>
    have hafter := hlater.trans (Files.bytes_withFile hplace _)
    have hdone := ArtifactDone.patched hread hpatch hbytes hafter fun heq => absurd heq hchanged
    simpa [hchanged] using hdone

theorem ArtifactStep.fails {e : ProjectFailure} (h : ArtifactStep input true files path a after (.error e)) :
    ArtifactFails input files path a e := by
  cases h with
  | unread hread => exact .unread hread
  | unpatched hread hpatch hfailure => exact .unpatched hread hpatch hfailure
  | unwritten _ hread hpatch hchanged hreplace => exact .unwritten hread hpatch hchanged hreplace

theorem ArtifactDone.congr {report : ArtifactReport} (hbytes : files'.bytes path = files.bytes path)
    (h : ArtifactDone input files' after path a report) : ArtifactDone input files after path a report := by
  have hread := Files.read_congr hbytes
  cases h with
  | patched hread' hpatch hencode hafter hsame =>
    exact .patched (hread ▸ hread') hpatch hencode hafter (hbytes ▸ hsame)
  | aborted hread' hpatch hafter => exact .aborted (hread ▸ hread') hpatch (hbytes ▸ hafter)

theorem ArtifactFails.congr {e : ProjectFailure} (hnames : files.SameNames files')
    (hbytes : files'.bytes path = files.bytes path) (h : ArtifactFails input files' path a e) :
    ArtifactFails input files path a e := by
  have hread := Files.read_congr hbytes
  cases h with
  | unread hread' => exact .unread (hread ▸ hread')
  | unpatched hread' hpatch hfailure => exact .unpatched (hread ▸ hread') hpatch hfailure
  | unwritten hread' hpatch hchanged hreplace =>
    exact .unwritten (hread ▸ hread') hpatch hchanged (Files.replaceError?_congr hnames .. ▸ hreplace)

end Step

/-! ## All artifacts -/

namespace Project

variable {p : Project} {input : PatchInput} {files : Files}

/-- What a run makes of artifacts that are told apart by their paths: either all are done, or those in front of the one
at which it fails. -/
structure Settles (p : Project) (input : PatchInput) (files : Files) (artifacts : List Artifact)
    (out : Outcome (List ArtifactReport)) : Prop where
  names : files.SameNames out.files
  others : ∀ q, (∀ a ∈ artifacts, ¬ files.SameFile (p.path a.path) q) → out.files.bytes q = files.bytes q
  done : ∀ reports, out.result = .ok reports →
    List.Forall₂ (fun a report => ArtifactDone input files out.files (p.path a.path) a report) artifacts reports
  failed : ∀ e, out.result = .error e → ∃ done a later reports, artifacts = done ++ a :: later ∧
    List.Forall₂ (fun a report => ArtifactDone input files out.files (p.path a.path) a report) done reports ∧
      ArtifactFails input files (p.path a.path) a e ∧
        ∀ b ∈ a :: later, out.files.bytes (p.path b.path) = files.bytes (p.path b.path)

theorem forall₂_done_congr {files' after : Files} {artifacts : List Artifact} {reports : List ArtifactReport}
    (hbytes : ∀ a ∈ artifacts, files'.bytes (p.path a.path) = files.bytes (p.path a.path))
    (h : List.Forall₂ (fun a report => ArtifactDone input files' after (p.path a.path) a report) artifacts reports) :
    List.Forall₂ (fun a report => ArtifactDone input files after (p.path a.path) a report) artifacts reports := by
  induction h with
  | nil => exact .nil
  | cons hdone _ ih =>
    obtain ⟨hfirst, hrest⟩ := List.forall_mem_cons.1 hbytes
    exact .cons (hdone.congr hfirst) (ih hrest)

theorem settles_mapM (artifacts : List Artifact)
    (hdistinct : artifacts.Pairwise fun a b => ¬ files.SameFile (p.path a.path) (p.path b.path)) :
    p.Settles input files artifacts ((artifacts.mapM (p.applyArtifact input true)) files) := by
  induction artifacts generalizing files with
  | nil =>
    refine ⟨.refl files, fun _ _ => rfl, fun reports h => ?_, nofun⟩
    cases h
    exact .nil
  | cons a rest ih =>
    have hstep := p.artifactStep input true a files
    rw [List.mapM_cons]
    cases hresult : (p.applyArtifact input true a files).result with
    | error e =>
      rw [hresult] at hstep
      rw [Action.bind_of_error hresult, hstep.eq_of_error]
      refine ⟨.refl files, fun _ _ => rfl, nofun, fun e' h => ?_⟩
      cases h
      exact ⟨[], a, rest, [], rfl, .nil, hstep.fails, fun _ _ => rfl⟩
    | ok report =>
      rw [hresult] at hstep
      rw [Action.bind_of_ok hresult]
      obtain ⟨hnames, hframe⟩ := hstep.frame
      obtain ⟨hfirst, hrest⟩ := List.pairwise_cons.1 hdistinct
      generalize (p.applyArtifact input true a files).files = after at hstep hnames hframe ⊢
      have hsettles := ih (hrest.imp fun h => (Files.sameFile_congr hnames _ _).not.2 h)
      -- the later artifacts are as they were before this one, and it stays as it is now
      have hlater : ∀ b ∈ rest, after.bytes (p.path b.path) = files.bytes (p.path b.path) := fun b hb =>
        hframe _ (hfirst b hb)
      have hstays : ((rest.mapM (p.applyArtifact input true)) after).files.bytes (p.path a.path) =
          after.bytes (p.path a.path) :=
        hsettles.others _ fun b hb h => hfirst b hb ((Files.sameFile_congr hnames _ _).1 h).symm
      have hdone := hstep.done hstays
      have hothers : ∀ q, (∀ b ∈ a :: rest, ¬ files.SameFile (p.path b.path) q) →
          ((rest.mapM (p.applyArtifact input true)) after).files.bytes q = files.bytes q := by
        intro q hq
        obtain ⟨ha, hbs⟩ := List.forall_mem_cons.1 hq
        rw [hsettles.others q fun b hb => (Files.sameFile_congr hnames _ _).not.2 (hbs b hb), hframe q ha]
      cases hrun : ((rest.mapM (p.applyArtifact input true)) after).result with
      | error e =>
        rw [Action.bind_of_error hrun]
        refine ⟨hnames.trans hsettles.names, hothers, nofun, fun e' h => ?_⟩
        cases h
        obtain ⟨done, b, later, reports, rfl, hreports, hfails, hkept⟩ := hsettles.failed e hrun
        refine ⟨a :: done, b, later, report :: reports, rfl,
          .cons hdone (forall₂_done_congr (fun c hc => hlater c (List.mem_append_left _ hc)) hreports),
          hfails.congr hnames (hlater b (by simp)), fun c hc => ?_⟩
        exact (hkept c hc).trans (hlater c (List.mem_append_right _ hc))
      | ok reports =>
        rw [Action.bind_of_ok hrun]
        refine ⟨hnames.trans hsettles.names, hothers, fun reports' h => ?_, nofun⟩
        cases h
        exact .cons hdone (forall₂_done_congr hlater (hsettles.done reports hrun))

/-- Without writing, an artifact is reported as it is with writing, but for being written. -/
theorem result_dry {a : Artifact} {after : Files} {report : ArtifactReport}
    (h : ArtifactDone input files after (p.path a.path) a report) :
    (p.applyArtifact input false a files).result = .ok { report with written := false } := by
  unfold applyArtifact
  cases h with
  | patched hread hpatch =>
    rw [Action.bind_of_ok (result_read hread), Action.bind_of_ok (x := Action.attempt _) rfl]
    simp only [hpatch, Bool.and_false]
    rfl
  | aborted hread hpatch =>
    rw [Action.bind_of_ok (result_read hread), Action.bind_of_ok (x := Action.attempt _) rfl]
    simp only [hpatch]
    rfl

theorem mapM_dry {after : Files} {artifacts : List Artifact} {reports : List ArtifactReport}
    (h : List.Forall₂ (fun a report => ArtifactDone input files after (p.path a.path) a report) artifacts reports) :
    (artifacts.mapM fun a => (p.applyArtifact input false a files).result) =
      .ok (reports.map fun report => { report with written := false }) :=
  Except.mapM_eq_ok_iff.2 (List.forall₂_map_right_iff.2 (h.imp fun _ _ => result_dry))

/-- When the paths of the artifacts lead to different files, each artifact is patched on its own: up to the one at
which the run fails, if it does, each of them holds the bytes of its patched text, and that one, all later ones and
every other file keep their bytes. Without writing no file changes, and the same is reported but for what is
written. -/
theorem apply_whole (p : Project) (snapshot : Snapshot) (reference : Reference) (files : Files)
    (hdistinct : p.manifest.artifacts.Pairwise fun a b => ¬ files.SameFile (p.path a.path) (p.path b.path)) :
    p.Settles (p.patchInput snapshot reference) files p.manifest.artifacts (p.apply snapshot reference true files) ∧
      (p.apply snapshot reference false files).files = files ∧
        ∀ reports, (p.apply snapshot reference true files).result = .ok reports →
          (p.apply snapshot reference false files).result =
            .ok (reports.map fun report => { report with written := false }) := by
  have hsettles : p.Settles (p.patchInput snapshot reference) files p.manifest.artifacts
      ((p.manifest.artifacts.mapM (p.applyArtifact (p.patchInput snapshot reference) true)) files) :=
    settles_mapM p.manifest.artifacts hdistinct
  have hleaves : ∀ a ∈ p.manifest.artifacts,
      (p.applyArtifact (p.patchInput snapshot reference) false a).Leaves files := fun a _ =>
    (p.artifactStep (p.patchInput snapshot reference) false a files).eq_of_dry
  have hdry := Action.mapM_of_unchanged hleaves
  obtain ⟨hfiles, hresult⟩ := p.apply_eq snapshot reference true files
  obtain ⟨hfiles', hresult'⟩ := p.apply_eq snapshot reference false files
  refine ⟨?_, hfiles'.trans hdry.1, fun reports h => ?_⟩
  · obtain ⟨hnames, hothers, hdone, hfailed⟩ := hsettles
    refine ⟨?_, ?_, ?_, ?_⟩
    · rw [hfiles]
      exact hnames
    · rw [hfiles]
      exact hothers
    · rw [hfiles, hresult]
      exact hdone
    · rw [hfiles, hresult]
      exact hfailed
  · rw [hresult] at h
    rw [hresult', hdry.2]
    exact mapM_dry (hsettles.done reports h)

/-- Links of five files. -/
def linksSample : Project where
  directory := ⟨"/", []⟩
  manifest := {
    artifacts := [
      { path := "a.ts", categories := [{ name := "a", region := none, placement := .keyedPairs "to" "label" [] }] },
      { path := "old/../b.ts",
        categories := [{ name := "b", region := none, placement := .documents "slug" "content" [] }] },
      { path := "old/c.ts", categories := [{ name := "c", region := none, placement := .keyedPairs "to" "label" [] }] },
      { path := "d.ts", categories := [{ name := "d", region := none, placement := .keyedPairs "to" "label" [] }] },
      { path := "e.ts", categories := [{ name := "a", region := none, placement := .keyedPairs "to" "label" [] }] }] }

/-- A link with its texts. -/
def linkText : Text := "to: '/x', label: \x7b en: 'A', ar: 'P' \x7d\n"

/-- The files of it: the second one has a body without an end, and there is one file more. -/
def linksFiles : Files where
  directories := [⟨"/", ["old"]⟩]
  contents := [linkText, "slug: 'k', content: \x7b ar: \x60never", linkText, linkText, linkText, linkText].zipWith
    (fun text name => (name, (Text.Utf8.encode? text).getD []))
    ["/a.ts", "/b.ts", "/old/c.ts", "/d.ts", "/e.ts", "/old/b.ts"]

/-- A text for each of them; that of the fourth one is a lone surrogate, which has no bytes. -/
def linksSnapshot : Snapshot where
  categories := [("a", .object [("/x", .text "Q")]), ("b", .object [("k", .text "Q")]),
    ("c", .object [("/x", .text "P")]), ("d", .object [("/x", .text [⟨0xD800, by decide⟩])])]

theorem apply_whole_links :
    (linksSample.manifest.artifacts.Pairwise fun a b =>
      ¬ linksFiles.SameFile (linksSample.path a.path) (linksSample.path b.path)) ∧
    (linksSample.apply linksSnapshot none true linksFiles).result =
      .error (.file (.unencodable (linksSample.path "d.ts"))) ∧
    linksSample.Settles (linksSample.patchInput linksSnapshot none) linksFiles linksSample.manifest.artifacts
        (linksSample.apply linksSnapshot none true linksFiles) ∧
      (linksSample.apply linksSnapshot none false linksFiles).files = linksFiles ∧
        ∀ reports, (linksSample.apply linksSnapshot none true linksFiles).result = .ok reports →
          (linksSample.apply linksSnapshot none false linksFiles).result =
            .ok (reports.map fun report => { report with written := false }) := by
  have hdistinct : linksSample.manifest.artifacts.Pairwise fun a b =>
      ¬ linksFiles.SameFile (linksSample.path a.path) (linksSample.path b.path) := by decide +kernel
  exact ⟨hdistinct, by decide +kernel, apply_whole linksSample linksSnapshot none linksFiles hdistinct⟩

end Project

end Bilingual

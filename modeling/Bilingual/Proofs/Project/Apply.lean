import Bilingual.Project.Apply
import Bilingual.Proofs.Patch
import Bilingual.Proofs.Project.Action

set_option autoImplicit false

/-! # Applying a snapshot that changes nothing

An artifact that is patched without a report of an update is left as it is (`Project.unchanged_of_quiet`), and
so is one with a body without an end (`Project.unchanged_of_unterminated`). No other artifact is reported
without an update (`Project.quiet_of_noUpdate`). -/

namespace Bilingual

/-- A report of a file that is as it was. -/
structure ArtifactReport.Unchanged (report : ArtifactReport) : Prop where
  changed : report.changed = false
  written : report.written = false
  noUpdate : ∀ entry ∈ report.entries, entry.status ≠ .updated

namespace Action

variable {α β : Type} {files : Files}

/-- When actions that come to a result with a property leave the files, and all in a row do so, then each of
them does. -/
theorem leaves_of_mapM {Q : β → Prop} {f : α → Action β} {l : List α} {bs : List β}
    (hleaves : ∀ a ∈ l, ∀ b, (f a files).result = .ok b → Q b → (f a).Leaves files)
    (h : ((l.mapM f) files).result = .ok bs) (hQ : ∀ b ∈ bs, Q b) :
    ∀ a ∈ l, ∃ b, (f a files).result = .ok b ∧ Q b := by
  induction l generalizing bs with
  | nil => simp
  | cons first rest ih =>
    have hrow := row_mapM f files first rest
    generalize ((first :: rest).mapM f) files = out at hrow h
    cases hrow with
    | first => cases h
    | later => cases h
    | all hfirst hrest =>
      cases h
      obtain ⟨hb, hothers⟩ := List.forall_mem_cons.1 hQ
      -- the first action left the files, so the others worked on the same ones
      rw [hleaves first (List.mem_cons_self ..) _ hfirst hb] at hrest
      exact List.forall_mem_cons.2 ⟨⟨_, hfirst, hb⟩,
        ih (fun a ha => hleaves a (List.mem_cons_of_mem _ ha)) hrest hothers⟩

end Action

namespace Project

variable {p : Project} {input : PatchInput} {a : Artifact} {files : Files} {text : Text}

theorem result_read (hread : files.read (p.path a.path) = .ok text) :
    (Action.read (p.path a.path) files).result = .ok text := by
  unfold Action.read
  rw [hread]
  rfl

/-- An artifact that is patched without a report of an update is left as it is. -/
theorem unchanged_of_quiet (hread : files.read (p.path a.path) = .ok text)
    (hquiet : Quiet (input.patchText text a.categories) text) (write : Bool) :
    (p.applyArtifact input write a).Leaves files ∧
      ∃ report, (p.applyArtifact input write a files).result = .ok report ∧ report.Unchanged := by
  obtain ⟨entries, hresult, hnoUpdate⟩ := hquiet
  unfold applyArtifact Action.Leaves
  rw [Action.bind_of_ok (result_read hread), Action.bind_of_ok (x := Action.attempt _) rfl]
  simp only [hresult, ne_eq, not_true_eq_false, decide_false, Bool.false_and]
  exact ⟨rfl, _, rfl, rfl, rfl, hnoUpdate⟩

/-- An artifact with a body without an end is left as it is. -/
theorem unchanged_of_unterminated {delimiter : CodePoint} {start : Nat}
    (hread : files.read (p.path a.path) = .ok text)
    (h : (input.patchText text a.categories).result = .error (.unterminated delimiter start))
    (write : Bool) :
    (p.applyArtifact input write a).Leaves files ∧
      ∃ report, (p.applyArtifact input write a files).result = .ok report ∧ report.Unchanged := by
  unfold applyArtifact Action.Leaves
  rw [Action.bind_of_ok (result_read hread), Action.bind_of_ok (x := Action.attempt _) rfl]
  simp only [h]
  exact ⟨rfl, _, rfl, rfl, rfl, by simp⟩

/-- Any other failure of patching an artifact ends the work before anything is written. -/
theorem fails_of_error {failure : Failure} (hread : files.read (p.path a.path) = .ok text)
    (h : (input.patchText text a.categories).result = .error failure)
    (hfailure : ∀ delimiter start, failure ≠ .unterminated delimiter start) (write : Bool) :
    (p.applyArtifact input write a).Leaves files ∧
      (p.applyArtifact input write a files).result = .error (.text failure) := by
  unfold applyArtifact Action.Leaves
  rw [Action.bind_of_ok (result_read hread), Action.bind_of_ok (x := Action.attempt _) rfl]
  simp only [h]
  cases failure with
  | unterminated delimiter start => exact absurd rfl (hfailure delimiter start)
  | _ => exact ⟨rfl, rfl⟩

/-- Only a quiet artifact and one with a body without an end are reported without an update. -/
theorem quiet_of_noUpdate {report : ArtifactReport} {write : Bool}
    (hread : files.read (p.path a.path) = .ok text)
    (h : (p.applyArtifact input write a files).result = .ok report)
    (hreport : ∀ entry ∈ report.entries, entry.status ≠ .updated) :
    Quiet (input.patchText text a.categories) text ∨
      ∃ delimiter start,
        (input.patchText text a.categories).result = .error (.unterminated delimiter start) := by
  cases hresult : (input.patchText text a.categories).result with
  | error failure =>
    by_cases hfailure : ∃ delimiter start, failure = .unterminated delimiter start
    · obtain ⟨delimiter, start, rfl⟩ := hfailure
      exact .inr ⟨delimiter, start, rfl⟩
    · have hfails := fails_of_error hread hresult
        (fun delimiter start heq => hfailure ⟨delimiter, start, heq⟩) write
      rw [hfails.2] at h
      cases h
  | ok patched =>
    obtain ⟨patched, entries⟩ := patched
    left
    have hentries : report.entries = entries := by
      unfold applyArtifact at h
      rw [(Action.leaves_read _).result_bind, result_read hread] at h
      dsimp only [Except.bind] at h
      rw [(Action.leaves_attempt _).result_bind] at h
      simp only [Action.attempt, Except.bind, hresult] at h
      split at h
      · cases hwrite : (Action.write (p.path a.path) patched files).result with
        | error e =>
          rw [Action.bind_of_error (e := e) hwrite] at h
          cases h
        | ok _ =>
          rw [Action.bind_of_ok (a := ()) hwrite] at h
          cases h
          rfl
      · cases h
        rfl
    have hquiet : Quiet (input.patchText text a.categories) patched :=
      ⟨entries, hresult, hentries ▸ hreport⟩
    obtain ⟨rfl, -⟩ := PatchInput.quiet_patchText_iff.1 hquiet
    exact hquiet

/-! ## All artifacts -/

/-- What applying works with. -/
def patchInput (p : Project) (snapshot : Snapshot) (reference : Reference) : PatchInput :=
  { manifest := p.manifest, snapshot, reference }

theorem apply_eq (p : Project) (snapshot : Snapshot) (reference : Reference) (write : Bool)
    (files : Files) :
    (p.apply snapshot reference write files).files =
        ((p.manifest.artifacts.mapM (p.applyArtifact (p.patchInput snapshot reference) write)) files).files ∧
      (p.apply snapshot reference write files).result =
        ((p.manifest.artifacts.mapM (p.applyArtifact (p.patchInput snapshot reference) write))
          files).result := by
  have hevents : ∀ unknown : List Text, ((unknown.mapM fun name =>
      Action.tell ⟨.warning, .patch, "unknown_category", [("category", .text name)]⟩) :
        Action (List Unit)).Leaves files ∧ ∃ units, ((unknown.mapM fun name =>
      Action.tell ⟨.warning, .patch, "unknown_category", [("category", .text name)]⟩ :
        Action (List Unit)) files).result = .ok units := by
    intro unknown
    have hrows := Action.mapM_of_unchanged (l := unknown) fun name _ => (Action.leaves_tell
      ⟨.warning, .patch, "unknown_category", [("category", .text name)]⟩ : Action.Leaves _ files)
    exact ⟨hrows.1, _, hrows.2.trans (Except.mapM_eq_ok_map fun _ _ => rfl)⟩
  unfold apply
  obtain ⟨hleaves, units, hresult⟩ := hevents
    ((OrderedMap.keys snapshot.categories).filter fun name =>
      !(p.manifest.categories.map AnyCategory.name).contains name)
  dsimp only
  rw [Action.bind_of_ok hresult, hleaves]
  exact ⟨rfl, rfl⟩

end Project

end Bilingual

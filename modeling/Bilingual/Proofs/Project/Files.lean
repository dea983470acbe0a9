import Bilingual.Project.Files
import Bilingual.Proofs.OrderedMap
import Bilingual.Proofs.Step
import Bilingual.Proofs.Utf8
import Mathlib.Data.List.Basic

set_option autoImplicit false

/-! # Looking up files

What a path leads to stays where it is when there are more directories (`Files.place_eq_ok_of_subset`). A file with new
bytes is found by the same paths as before (`Files.place_congr`), and no other file changes
(`Files.bytes_withFile_of_not_sameFile`). -/

namespace Bilingual

/-! ## Paths in front of a path -/

theorem Text.nameSize_append (t other : Text) : (t ++ other).nameSize = t.nameSize + other.nameSize := by
  have hfoldl : ∀ (t : Text) (n : Nat), t.foldl (fun n c => n + c.nameSize) n = n + t.nameSize := by
    intro t
    induction t with
    | nil => exact fun n => rfl
    | cons c t ih =>
      intro n
      rw [Text.nameSize, List.foldl_cons, List.foldl_cons, ih, ih, Nat.zero_add, Nat.add_assoc]
  rw [Text.nameSize, List.foldl_append, hfoldl, ← Text.nameSize]

theorem Text.joinWith_dropLast_prefix (separator : Text) (pieces : List Text) :
    Text.joinWith separator pieces.dropLast <+: Text.joinWith separator pieces := by
  induction pieces with
  | nil => exact List.prefix_rfl
  | cons piece others ih =>
    match others with
    | [] => exact List.nil_prefix
    | [other] => exact ⟨separator ++ other, by simp [Text.joinWith]⟩
    | other :: third :: more =>
      simp only [List.dropLast_cons_cons, Text.joinWith] at ih ⊢
      exact (List.prefix_append_right_inj _).2 ih

/-- A path that could be has no fault up to its last part. -/
theorem Path.fault?_parent {p : Path} (h : p.fault? = none) : p.parent.fault? = none := by
  have htext : p.parent.toText = "." ∨ p.parent.toText <+: p.toText := by
    by_cases hroot : p.root.isEmpty && p.parts.dropLast.isEmpty
    · left
      rw [toText, parent, if_pos hroot]
    · right
      have hparts : ¬ (p.root.isEmpty && p.parts.isEmpty) := fun hparts => by
        rw [Bool.and_eq_true, List.isEmpty_iff, List.isEmpty_iff] at hparts
        simp [hparts] at hroot
      rw [toText, toText, parent, if_neg hroot, if_neg hparts]
      exact (List.prefix_append_right_inj _).2 (Text.joinWith_dropLast_prefix _ _)
  rcases htext with hdot | ⟨behind, hbehind⟩
  · rw [fault?, hdot]
    exact if_neg (by decide)
  · unfold fault? at h ⊢
    dsimp only at h ⊢
    rw [← hbehind, List.any_append, List.any_append, Text.nameSize_append] at h
    split_ifs at h with hencodable hnull hlong
    rw [Bool.or_eq_true, not_or] at hencodable hnull
    rw [if_neg hencodable.1, if_neg hnull.1, if_neg (by omega)]

namespace Files

variable {files files' : Files} {p q : Path} {place : Path} {bytes : List UInt8} {text : Text}

/-! ## Looking up in changed files -/

/-- The same directories, and files of the same names. -/
structure SameNames (files files' : Files) : Prop where
  directories : files'.directories = files.directories
  hasFile : ∀ place, files'.hasFile place = files.hasFile place

theorem SameNames.refl (files : Files) : files.SameNames files := ⟨rfl, fun _ => rfl⟩

theorem SameNames.trans {files'' : Files} (h : files.SameNames files') (h' : files'.SameNames files'') :
    files.SameNames files'' :=
  ⟨h'.directories.trans h.directories, fun place => (h'.hasFile place).trans (h.hasFile place)⟩

theorem hasDirectory_congr (h : files'.directories = files.directories) (place : Path) :
    files'.hasDirectory place = files.hasDirectory place := by
  rw [hasDirectory, hasDirectory, h]

theorem hasDirectory_of_subset (h : files.directories ⊆ files'.directories) (hplace : files.hasDirectory place = true) :
    files'.hasDirectory place = true := by
  simp only [hasDirectory, Bool.or_eq_true, List.contains_iff_mem] at hplace ⊢
  exact hplace.imp_right fun hmem => h hmem

theorem walk_congr (h : files.SameNames files') (place : Path) (parts : List Text) :
    files'.walk place parts = files.walk place parts := by
  induction parts generalizing place with
  | nil => rfl
  | cons part rest ih => simp only [walk, hasDirectory_congr h.directories, h.hasFile, ih]

/-- A path leads to the same place. -/
theorem place_congr (h : files.SameNames files') (p : Path) : files'.place p = files.place p := by
  rw [place, place, walk_congr h]

/-- Where one part of a path leads to from a place. -/
def next (start : Path) (part : Text) : Path := if part = (".." : Text) then start.parent else start.inside part

/-- The last part of a path may lead anywhere, every other one leads into a directory. -/
theorem walk_cons_eq_ok_iff {start : Path} {part : Text} {rest : List Text} :
    files.walk start (part :: rest) = .ok place ↔ part.nameSize ≤ Path.longestName ∧
      (rest = [] ∧ place = next start part ∨
        rest ≠ [] ∧ files.hasDirectory (next start part) = true ∧ files.walk (next start part) rest = .ok place) := by
  show (if Path.longestName < part.nameSize then .error .tooLong
    else if rest.isEmpty then .ok (next start part)
    else if files.hasDirectory (next start part) then files.walk (next start part) rest
    else .error _) = Except.ok place ↔ _
  by_cases hlong : Path.longestName < part.nameSize
  · rw [if_pos hlong]
    simp only [reduceCtorEq, false_iff, not_and]
    omega
  · rw [if_neg hlong]
    have hsize := Nat.le_of_not_lt hlong
    cases rest with
    | nil => simp only [hsize, true_and, List.isEmpty_nil, if_true, Except.ok.injEq, not_true_eq_false, ne_eq,
        false_and, or_false, eq_comm]
    | cons other more =>
      by_cases hdirectory : files.hasDirectory (next start part) = true
      · simp only [hsize, hdirectory, List.isEmpty_cons, Bool.false_eq_true, if_false, if_true, reduceCtorEq, ne_eq,
          not_false_eq_true, false_and, false_or, true_and]
      · simp only [hdirectory, List.isEmpty_cons, Bool.false_eq_true, if_false, reduceCtorEq, false_and, and_false,
          or_false]

/-- Whatever a walk comes to, it does so when there are more directories. -/
theorem walk_eq_ok_of_subset (h : files.directories ⊆ files'.directories) {parts : List Text} {start : Path}
    (hwalk : files.walk start parts = .ok place) : files'.walk start parts = .ok place := by
  induction parts generalizing start with
  | nil => exact hwalk
  | cons part rest ih =>
    obtain ⟨hsize, hlast | ⟨hmore, hdirectory, hrest⟩⟩ := walk_cons_eq_ok_iff.1 hwalk
    · exact walk_cons_eq_ok_iff.2 ⟨hsize, .inl hlast⟩
    · exact walk_cons_eq_ok_iff.2 ⟨hsize, .inr ⟨hmore, hasDirectory_of_subset h hdirectory, ih hrest⟩⟩

theorem place_eq_ok_iff :
    files.place p = .ok place ↔ p.fault? = none ∧ files.walk ⟨p.root, []⟩ p.parts = .ok place := by
  unfold Files.place
  cases p.fault? with
  | some fault => simp
  | none => simp [Except.mapError_eq_ok_iff]

theorem place_eq_ok_of_subset (h : files.directories ⊆ files'.directories) (hplace : files.place p = .ok place) :
    files'.place p = .ok place := by
  obtain ⟨hfault, hwalk⟩ := place_eq_ok_iff.1 hplace
  exact place_eq_ok_iff.2 ⟨hfault, walk_eq_ok_of_subset h hwalk⟩

theorem place_eq_ok_of_directories (h : files'.directories = files.directories) (hplace : files.place p = .ok place) :
    files'.place p = .ok place :=
  place_eq_ok_of_subset (h ▸ List.Subset.refl _) hplace

/-- The bytes at a path only depend on the names and on what is at the place that it leads to. -/
theorem bytes_congr (h : files.SameNames files') (hsame : ∀ place, files.place p = .ok place →
    files'.contents.lookup? (key place) = files.contents.lookup? (key place)) : files'.bytes p = files.bytes p := by
  unfold bytes
  rw [place_congr h]
  cases hplace : files.place p with
  | error e => rfl
  | ok place =>
    simp only [bind, Except.bind, hsame place hplace, hasDirectory_congr h.directories]

theorem read_congr (h : files'.bytes p = files.bytes p) : files'.read p = files.read p := by
  rw [read, read, h]

/-- A file that is read is at the place that its path leads to, with the bytes of its text. -/
theorem exists_of_read (h : files.read p = .ok text) : ∃ place bytes, files.place p = .ok place ∧
    files.hasFile place = true ∧ files.bytes p = .ok bytes ∧ Text.Utf8.encode? text = some bytes := by
  obtain ⟨bytes, hbytes, h⟩ := Except.bind_eq_ok_iff.1 h
  split at h
  · next decoded hdecode =>
    cases h
    have hplace := hbytes
    obtain ⟨place, hplace, hlookup⟩ := Except.bind_eq_ok_iff.1 hplace
    split at hlookup
    · next found hfound =>
      exact ⟨place, bytes, hplace, by rw [hasFile, hfound]; rfl, hbytes, Text.Utf8.decode?_eq_some_iff.1 hdecode⟩
    · cases hlookup
  · cases h

/-- Two paths lead to the same file, or would do so if there were one. -/
def SameFile (files : Files) (p q : Path) : Prop :=
  ∃ place place', files.place p = .ok place ∧ files.place q = .ok place' ∧ key place = key place'

instance (files : Files) (p q : Path) : Decidable (files.SameFile p q) :=
  decidable_of_iff ((files.place p).toOption.any fun place =>
      (files.place q).toOption.any fun place' => key place = key place') (by
    unfold SameFile
    cases files.place p <;> cases files.place q <;> simp [Except.toOption])

theorem SameFile.symm (h : files.SameFile p q) : files.SameFile q p := by
  obtain ⟨place, place', hplace, hplace', hkey⟩ := h
  exact ⟨place', place, hplace', hplace, hkey.symm⟩

theorem sameFile_congr (h : files.SameNames files') (p q : Path) : files'.SameFile p q ↔ files.SameFile p q := by
  simp only [SameFile, place_congr h]

/-! ## One file with new bytes -/

@[simp] theorem directories_withFile (files : Files) (place : Path) (bytes : List UInt8) :
    (files.withFile place bytes).directories = files.directories := rfl

theorem sameNames_withFile (h : files.hasFile place = true) (bytes : List UInt8) :
    files.SameNames (files.withFile place bytes) := by
  refine ⟨rfl, fun other => ?_⟩
  unfold hasFile withFile
  rw [OrderedMap.lookup?_put]
  split_ifs with hkey
  · rw [hasFile, hkey] at h
    rw [h]
    rfl
  · rfl

/-- The new bytes are there. -/
theorem bytes_withFile (hplace : files.place p = .ok place) (bytes : List UInt8) :
    (files.withFile place bytes).bytes p = .ok bytes := by
  have hagain : (files.withFile place bytes).place p = .ok place :=
    place_eq_ok_of_directories (directories_withFile files place bytes) hplace
  have hlookup : (files.withFile place bytes).contents.lookup? (key place) = some bytes :=
    OrderedMap.lookup?_put_self files.contents (key place) bytes
  unfold Files.bytes
  simp only [hagain, bind, Except.bind, hlookup]
  rfl

/-- Every other file is as it was. -/
theorem bytes_withFile_of_not_sameFile (hplace : files.place p = .ok place) (hfile : files.hasFile place = true)
    (hne : ¬ files.SameFile p q) (bytes : List UInt8) : (files.withFile place bytes).bytes q = files.bytes q := by
  refine bytes_congr (sameNames_withFile hfile bytes) fun place' hplace' => ?_
  have hkey : key place ≠ key place' := fun hkey => hne ⟨place, place', hplace, hplace', hkey⟩
  exact OrderedMap.lookup?_put_of_ne _ _ hkey

end Files

end Bilingual

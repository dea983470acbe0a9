import Bilingual.Proofs.Json.Token
import Bilingual.Proofs.Project.Files
import Mathlib.Data.List.Perm.Subperm

set_option autoImplicit false

/-! # Files that are written

A text is written by way of a part, a file of its own beside the one that is written. Whatever goes wrong can be told
before (`Files.replaceError?`), and then the part is gone again; otherwise the file has the bytes of the text, and the
part is gone too (`Files.writeThrough_eq`, for any part that was not there before). So writing makes directories at most
(`Files.kept_of_write_error`), or besides them one file (`Files.exists_of_write_ok`). Writing at a path where something
can be looked up makes no directory (`Files.write_of_place`). -/

namespace Bilingual

namespace Files

variable {files files' : Files} {p q : Path} {place : Path} {text : Text}

/-! ## Files that stay when directories are made -/

/-- All files are as they were; directories may have been made. -/
structure Kept (files files' : Files) : Prop where
  contents : files'.contents = files.contents
  directories : files.directories ⊆ files'.directories

theorem Kept.refl (files : Files) : files.Kept files := ⟨rfl, List.Subset.refl _⟩

theorem Kept.trans {files'' : Files} (h : files.Kept files') (h' : files'.Kept files'') : files.Kept files'' :=
  ⟨h'.contents.trans h.contents, fun _ hmem => h'.directories (h.directories hmem)⟩

/-- The bytes of every file are read as before. -/
theorem Kept.bytes (h : files.Kept files') {bytes : List UInt8} (hbytes : files.bytes q = .ok bytes) :
    files'.bytes q = .ok bytes := by
  obtain ⟨place, hplace, hlookup⟩ := Except.bind_eq_ok_iff.1 hbytes
  refine Except.bind_eq_ok_iff.2 ⟨place, place_eq_ok_of_subset h.directories hplace, ?_⟩
  rw [h.contents]
  split at hlookup
  · exact hlookup
  · cases hlookup

/-- A directory that is made is one that its path leads to. -/
theorem makeDirectory_ok (h : files.makeDirectory p = .ok files') :
    files.Kept files' ∧ ∃ place, files'.place p = .ok place ∧ files'.hasDirectory place = true := by
  obtain ⟨place, hplace, h⟩ := Except.bind_eq_ok_iff.1 h
  split_ifs at h with hdirectory hfile
  · cases h
    exact ⟨Kept.refl files, place, hplace, hdirectory⟩
  · cases h
    have hkept : files.Kept { files with directories := files.directories ++ [place] } :=
      ⟨rfl, List.subset_append_left _ _⟩
    refine ⟨hkept, place, place_eq_ok_of_subset hkept.directories hplace, ?_⟩
    simp [Files.hasDirectory]

theorem kept_makeDirectories (files : Files) (root : Text) (parts : List Text) :
    files.Kept (files.makeDirectories root parts).1 := by
  induction parts with
  | nil => exact Kept.refl files
  | cons part before ih =>
    unfold makeDirectories
    dsimp only
    split
    · next made hmade => exact (makeDirectory_ok hmade).1
    · rcases hbefore : files.makeDirectories root before with ⟨made, _ | _⟩
      · rw [hbefore] at ih
        exact ih
      · rw [hbefore] at ih
        dsimp only
        split
        · next made' hmade' => exact ih.trans (makeDirectory_ok hmade').1
        · exact ih
    · exact Kept.refl files

/-- Directories that have been made lead into each other. -/
theorem exists_directory_of_makeDirectories {root : Text} {parts : List Text}
    (hfault : (⟨root, parts.reverse⟩ : Path).fault? = none)
    (h : files.makeDirectories root parts = (files', .ok ())) :
    ∃ place, files'.place ⟨root, parts.reverse⟩ = .ok place ∧ files'.hasDirectory place = true := by
  cases parts with
  | nil => exact ⟨⟨root, []⟩, place_eq_ok_iff.2 ⟨hfault, rfl⟩, rfl⟩
  | cons part before =>
    unfold makeDirectories at h
    dsimp only at h
    split at h
    · next made hmade =>
      cases h
      exact (makeDirectory_ok hmade).2
    · rcases hbefore : files.makeDirectories root before with ⟨made, _ | _⟩
      · rw [hbefore] at h
        cases h
      · rw [hbefore] at h
        dsimp only at h
        split at h
        · next made' hmade' =>
          cases h
          exact (makeDirectory_ok hmade').2
        · cases h
    · cases h

/-- In a directory, a path may go on with one part more. -/
theorem walk_concat {parts : List Text} {start : Path} {last : Text} (h : files.walk start parts = .ok place)
    (hdirectory : files.hasDirectory place = true) (hsize : last.nameSize ≤ Path.longestName) :
    files.walk start (parts ++ [last]) = .ok (next place last) := by
  induction parts generalizing start with
  | nil =>
    cases h
    exact walk_cons_eq_ok_iff.2 ⟨hsize, .inl ⟨rfl, rfl⟩⟩
  | cons part rest ih =>
    obtain ⟨hpart, ⟨rfl, rfl⟩ | ⟨-, hnext, hrest⟩⟩ := walk_cons_eq_ok_iff.1 h
    · exact walk_cons_eq_ok_iff.2 ⟨hpart, .inr ⟨by simp, hdirectory, ih rfl⟩⟩
    · exact walk_cons_eq_ok_iff.2 ⟨hpart, .inr ⟨by simp, hnext, ih hrest⟩⟩

/-- A path leads somewhere if it leads into a directory up to its last part. -/
theorem exists_place_of_parent (hfault : p.fault? = none) (hparent : files.place p.parent = .ok place)
    (hdirectory : files.hasDirectory place = true) (hsize : (p.parts.getLastD []).nameSize ≤ Path.longestName) :
    ∃ place', files.place p = .ok place' := by
  obtain ⟨-, hwalk⟩ := place_eq_ok_iff.1 hparent
  rcases List.eq_nil_or_concat p.parts with hparts | ⟨before, last, hparts⟩
  · exact ⟨⟨p.root, []⟩, place_eq_ok_iff.2 ⟨hfault, by rw [hparts]; rfl⟩⟩
  · have hbefore : p.parent.parts = before := by simp [Path.parent, hparts]
    have hlast : p.parts.getLastD [] = last := by simp [hparts]
    rw [hbefore] at hwalk
    rw [hlast] at hsize
    refine ⟨next place last, place_eq_ok_iff.2 ⟨hfault, ?_⟩⟩
    rw [hparts, List.concat_eq_append]
    exact walk_concat hwalk hdirectory hsize

/-! ## Free places -/

theorem exists_joinWith_concat (separator : Text) (pieces : List Text) :
    ∃ before : Text, ∀ last, Text.joinWith separator (pieces ++ [last]) = before ++ last := by
  induction pieces with
  | nil => exact ⟨[], fun last => rfl⟩
  | cons piece rest ih =>
    obtain ⟨before, hbefore⟩ := ih
    refine ⟨piece ++ separator ++ before, fun last => ?_⟩
    rw [List.append_assoc _ before, ← hbefore last]
    cases rest <;> rfl

/-- Places in one directory are told apart by their last parts. -/
theorem key_inside_injective (directory : Path) : Function.Injective fun part => key (directory.inside part) := by
  obtain ⟨before, hbefore⟩ := exists_joinWith_concat "/" directory.parts
  have hkey : ∀ part, key (directory.inside part) = directory.root ++ (before ++ part) := by
    intro part
    rw [← hbefore part]
    exact if_neg (by simp [Path.inside])
  intro part part' h
  simp only [hkey] at h
  exact List.append_cancel_left (List.append_cancel_left h)

theorem partName_injective (name : Text) : Function.Injective (partName name) := by
  intro m n h
  have hdigits : Text.ofNat (10000000 + m) = Text.ofNat (10000000 + n) :=
    List.append_cancel_left (List.append_cancel_right h)
  have hnumbers := congrArg Text.decimalNumber? hdigits
  rw [Text.decimalNumber?_ofNat, Text.decimalNumber?_ofNat] at hnumbers
  have := Option.some.inj hnumbers
  omega

theorem hasFile_iff : files.hasFile place = true ↔ key place ∈ OrderedMap.keys files.contents := by
  rw [hasFile, Option.isSome_iff_ne_none, ne_eq, OrderedMap.lookup?_eq_none_iff, not_not]

/-- There is nothing yet at the place of a part. -/
theorem isFree_freePart (files : Files) (directory : Path) (name : Text) :
    files.isFree (files.freePart directory name) = true := by
  let part (number : Nat) : Path := directory.inside (partName name number)
  let numbers := List.range (files.contents.length + files.directories.length + 1)
  show files.isFree (((numbers.map part).find? files.isFree).getD directory) = true
  cases hfind : (numbers.map part).find? files.isFree with
  | some place => exact List.find?_some hfind
  | none =>
    -- otherwise there would be more names than there are files and directories
    exfalso
    let taken : List Text := OrderedMap.keys files.contents ++ files.directories.map key
    have hnodup : (numbers.map fun number => key (part number)).Nodup :=
      List.Nodup.map ((key_inside_injective directory).comp (partName_injective name)) List.nodup_range
    have htaken : numbers.map (fun number => key (part number)) ⊆ taken := by
      intro name' hname
      obtain ⟨number, hnumber, rfl⟩ := List.mem_map.1 hname
      have hfull := List.find?_eq_none.1 hfind (part number) (List.mem_map_of_mem hnumber)
      rw [isFree, Bool.and_eq_true, not_and_or, Bool.not_eq_true', Bool.not_eq_true', Bool.not_eq_false,
        Bool.not_eq_false] at hfull
      obtain hfile | hdirectory := hfull
      · exact List.mem_append_left _ (hasFile_iff.1 hfile)
      · rw [hasDirectory, Bool.or_eq_true, List.contains_iff_mem] at hdirectory
        obtain hempty | hmem := hdirectory
        · simp [part, Path.inside] at hempty
        · exact List.mem_append_right _ (List.mem_map_of_mem hmem)
    have hlength := (List.Nodup.subperm hnodup htaken).length_le
    simp only [numbers, taken, List.length_map, List.length_range, List.length_append, OrderedMap.keys] at hlength
    omega

/-! ## What can go wrong -/

/-- What goes wrong when a text is put beside the file at a path, and then in its place. -/
def replaceError? (files : Files) (p : Path) (text : Text) : Option FileError :=
  let name := p.parts.getLastD []
  match p.fault? with
  | some fault => some fault
  | none =>
    if Path.longestName < name.nameSize + partSuffixSize then some (.path .tooLong p)
    else if (Text.Utf8.encode? text).isNone then some (.unencodable p)
    else if name = (".." : Text) then some (.path .isParent p)
    else match files.place p with
      | .error e => some e
      | .ok place => if files.hasDirectory place then some (.path .isDirectory p) else none

/-- What is put in the place of a file has bytes, and there is no directory at that place. -/
theorem exists_of_replaceError? (h : files.replaceError? p text = none) :
    ∃ bytes place, Text.Utf8.encode? text = some bytes ∧ files.place p = .ok place ∧
      files.hasDirectory place = false := by
  unfold replaceError? at h
  dsimp only at h
  split at h
  · cases h
  · split_ifs at h with hlong hencode hparent
    split at h
    · cases h
    · next place hplace =>
      split_ifs at h with hdirectory
      cases hbytes : Text.Utf8.encode? text with
      | none => simp [hbytes] at hencode
      | some bytes => exact ⟨bytes, place, rfl, hplace, by simpa using hdirectory⟩

/-- Whether a text can be put in the place of a file only depends on the names. -/
theorem replaceError?_congr (h : files.SameNames files') (p : Path) (text : Text) :
    files'.replaceError? p text = files.replaceError? p text := by
  simp only [replaceError?, place_congr h, hasDirectory_congr h.directories]

/-- What can be put in the place of a file stays so for any text that has bytes, while the directories are the same. -/
theorem replaceError?_of_directories (hreplace : files.replaceError? p text = none)
    (h : files'.directories = files.directories) {text' : Text} (htext : text'.hasSurrogate = false) :
    files'.replaceError? p text' = none := by
  have hencode : (Text.Utf8.encode? text').isNone = false := by
    rw [← Option.not_isSome, Text.Utf8.isSome_encode?, htext]
    rfl
  obtain ⟨-, place, -, hplace, hdirectory⟩ := exists_of_replaceError? hreplace
  have hplace' : files'.place p = .ok place := place_eq_ok_of_directories h hplace
  unfold replaceError? at hreplace ⊢
  dsimp only at hreplace ⊢
  cases hfault : p.fault? with
  | some fault => simp [hfault] at hreplace
  | none =>
    simp only [hfault] at hreplace
    split_ifs at hreplace with hlong hencoded hparent
    simp only [if_neg hlong, hencode, Bool.false_eq_true, if_false, if_neg hparent, hplace',
      hasDirectory_congr h, hdirectory]

/-! ## Writing by way of a part -/

/-- A part that was not there before leaves nothing behind. -/
theorem withoutFile_withFile {part : Path} (hfree : files.hasFile part = false) (bytes : List UInt8) :
    (files.withFile part bytes).withoutFile part = files := by
  have hkeys : key part ∉ OrderedMap.keys files.contents := fun hmem => by
    rw [hasFile_iff.2 hmem] at hfree
    cases hfree
  have hfilter : files.contents.filter (fun file => file.1 ≠ key part) = files.contents :=
    List.filter_eq_self.2 fun file hfile => decide_eq_true fun hkey =>
      hkeys (hkey ▸ OrderedMap.mem_keys_of_mem hfile)
  rw [withFile, withoutFile, OrderedMap.filter_put, hfilter]

/-- Putting a full part into the place of a file, if nothing is wrong with that place. -/
theorem replace_withFile {part : Path} (hfree : files.hasFile part = false) (hplace : files.place p = .ok place)
    (bytes : List UInt8) : (files.withFile part bytes).replace part p =
      if p.parts.getLastD [] = (".." : Text) then .error (.path .isParent p)
      else if files.hasDirectory place then .error (.path .isDirectory p)
      else .ok (files.withFile place bytes) := by
  have hbytes : ((files.withFile part bytes).contents.lookup? (key part)).getD [] = bytes := by
    rw [show (files.withFile part bytes).contents.lookup? (key part) = some bytes from OrderedMap.lookup?_put_self ..]
    rfl
  have hplace' : (files.withFile part bytes).place p = .ok place :=
    place_eq_ok_of_directories (directories_withFile files part bytes) hplace
  unfold Files.replace
  split_ifs with hparent hdirectory
  · rfl
  · rw [hplace']
    exact if_pos hdirectory
  · rw [hplace']
    show (if files.hasDirectory place then _ else Except.ok (((files.withFile part bytes).withoutFile part).withFile
      place (((files.withFile part bytes).contents.lookup? (key part)).getD []))) = _
    rw [if_neg hdirectory, withoutFile_withFile hfree, hbytes]

/-- A part that is made empty and then filled is a part that is made with its bytes. -/
theorem withFile_withFile (files : Files) (part : Path) (bytes bytes' : List UInt8) :
    (files.withFile part bytes).withFile part bytes' = files.withFile part bytes' := by
  rw [withFile, withFile, withFile, OrderedMap.put_put]

/-- Writing by way of any part that was not there before has the same outcome: all that can go wrong leaves the files as
they were, and otherwise the file has new bytes. -/
theorem writeThrough_eq {part : Path} (hfree : files.hasFile part = false) (hfault : p.fault? = none)
    (hsize : ¬ Path.longestName < (p.parts.getLastD []).nameSize + partSuffixSize) (hplace : files.place p = .ok place)
    (text : Text) : files.writeThrough part p text =
      match files.replaceError? p text with
      | some e => (files, .error e)
      | none => (files.withFile place ((Text.Utf8.encode? text).getD []), .ok ()) := by
  have hgone : ∀ bytes, (files.withFile part bytes).withoutFile part = files := withoutFile_withFile hfree
  unfold replaceError? writeThrough fillPart
  simp only [hfault, if_neg hsize, hplace]
  cases hencode : Text.Utf8.encode? text with
  | none => simp only [Option.isNone_none, if_true, hgone]
  | some bytes =>
    simp only [Option.isNone_some, Bool.false_eq_true, if_false, Option.getD_some, withFile_withFile,
      replace_withFile hfree hplace]
    by_cases hparent : p.parts.getLastD [] = (".." : Text)
    · simp only [if_pos hparent, hgone]
    · by_cases hdirectory : files.hasDirectory place = true
      · simp only [if_neg hparent, if_pos hdirectory, hgone]
      · simp only [if_neg hparent, if_neg hdirectory]

/-- Where the directories cannot be made, nothing is written. -/
theorem write_of_unmade {made : Files} {e : FileError}
    (hmake : files.makeDirectories p.root p.parts.reverse.tail = (made, .error e)) (text : Text) :
    files.write p text = (made, .error e) := by
  unfold write
  rw [hmake]

/-- Where they can, nothing more is done when something goes wrong. Otherwise the file has new bytes. -/
theorem write_of_made {made : Files} (hmake : files.makeDirectories p.root p.parts.reverse.tail = (made, .ok ()))
    (text : Text) : files.write p text =
      match made.replaceError? p text, made.place p with
      | some e, _ => (made, .error e)
      | none, .ok place => (made.withFile place ((Text.Utf8.encode? text).getD []), .ok ())
      | none, .error e => (made, .error e) := by
  unfold write
  rw [hmake]
  dsimp only
  cases hfault : p.fault? with
  | some fault =>
    have hpart : made.partPlace p = .error fault := by rw [partPlace, hfault]
    have herror : made.replaceError? p text = some fault := by rw [replaceError?, hfault]
    rw [hpart, herror]
  | none =>
    by_cases hsize : Path.longestName < (p.parts.getLastD []).nameSize + partSuffixSize
    · have hpart : made.partPlace p = .error (.path .tooLong p) := by
        rw [partPlace, hfault]
        exact if_pos hsize
      have herror : made.replaceError? p text = some (.path .tooLong p) := by
        rw [replaceError?, hfault]
        exact if_pos hsize
      rw [hpart, herror]
    · have hparts : p.parts.reverse.tail.reverse = p.parts.dropLast := by rw [List.tail_reverse, List.reverse_reverse]
      obtain ⟨directory, hparent, hdirectory⟩ := exists_directory_of_makeDirectories
        (by rw [hparts]; exact Path.fault?_parent hfault) hmake
      rw [hparts] at hparent
      obtain ⟨place, hplace⟩ := exists_place_of_parent hfault hparent hdirectory (by omega)
      have hpart : made.partPlace p = .ok (made.freePart directory (p.parts.getLastD [])) := by
        rw [partPlace, hfault]
        show (if Path.longestName < (p.parts.getLastD []).nameSize + partSuffixSize then _ else
          (made.place p.parent).bind fun place => .ok (made.freePart place (p.parts.getLastD []))) = _
        rw [if_neg hsize, show made.place p.parent = .ok directory from hparent]
        rfl
      have hfree := isFree_freePart made directory (p.parts.getLastD [])
      rw [isFree, Bool.and_eq_true, Bool.not_eq_true'] at hfree
      rw [hpart, hplace]
      dsimp only
      rw [writeThrough_eq hfree.1 hfault hsize hplace]
      cases made.replaceError? p text <;> rfl

/-! ## Files that are written -/

/-- Up to its last part, a path that is looked up goes through directories. -/
theorem exists_walk_dropLast {parts : List Text} {start : Path} {last : Text}
    (h : files.walk start (parts ++ [last]) = .ok place) (hparts : parts ≠ []) :
    ∃ directory, files.walk start parts = .ok directory ∧ files.hasDirectory directory = true := by
  induction parts generalizing start with
  | nil => exact absurd rfl hparts
  | cons part rest ih =>
    obtain ⟨hsize, ⟨hnil, -⟩ | ⟨-, hdirectory, hrest⟩⟩ := walk_cons_eq_ok_iff.1 h
    · simp at hnil
    · by_cases hmore : rest = []
      · exact ⟨next start part, walk_cons_eq_ok_iff.2 ⟨hsize, .inl ⟨hmore, rfl⟩⟩, hdirectory⟩
      · obtain ⟨directory, hwalk, hdirectory'⟩ := ih hrest hmore
        exact ⟨directory, walk_cons_eq_ok_iff.2 ⟨hsize, .inr ⟨hmore, hdirectory, hwalk⟩⟩, hdirectory'⟩

/-- Where a path can be looked up, there is no directory to make. -/
theorem makeDirectories_of_place (h : files.place p = .ok place) :
    files.makeDirectories p.root p.parts.reverse.tail = (files, .ok ()) := by
  obtain ⟨hfault, hwalk⟩ := place_eq_ok_iff.1 h
  rw [List.tail_reverse]
  cases hparts : p.parts.dropLast.reverse with
  | nil => rfl
  | cons last before =>
    have hdropLast : p.parts.dropLast = (last :: before).reverse := by rw [← hparts, List.reverse_reverse]
    have hne : p.parts.dropLast ≠ [] := by simp [hdropLast]
    have hsplit : p.parts = p.parts.dropLast ++ [p.parts.getLast fun hnil => hne (by simp [hnil])] :=
      (List.dropLast_append_getLast _).symm
    rw [hsplit] at hwalk
    obtain ⟨directory, hwalk, hdirectory⟩ := exists_walk_dropLast hwalk hne
    have hplace : files.place p.parent = .ok directory := place_eq_ok_iff.2 ⟨Path.fault?_parent hfault, hwalk⟩
    have hmake : files.makeDirectory ⟨p.root, (last :: before).reverse⟩ = .ok files := by
      rw [← hdropLast]
      exact Except.bind_eq_ok_iff.2 ⟨directory, hplace, if_pos hdirectory⟩
    rw [makeDirectories, hmake]

/-- Writing at a path that can be looked up changes nothing, or puts the bytes of the text there. -/
theorem write_of_place (hplace : files.place p = .ok place) (text : Text) : files.write p text =
    match files.replaceError? p text with
    | some e => (files, .error e)
    | none => (files.withFile place ((Text.Utf8.encode? text).getD []), .ok ()) := by
  rw [write_of_made (makeDirectories_of_place hplace), hplace]
  cases files.replaceError? p text <;> rfl

/-- A text is written when its directories can be made and nothing goes wrong then. -/
theorem write_ok_iff : (files.write p text).2 = .ok () ↔ ∃ made,
    files.makeDirectories p.root p.parts.reverse.tail = (made, .ok ()) ∧ made.replaceError? p text = none := by
  rcases hmake : files.makeDirectories p.root p.parts.reverse.tail with ⟨made, _ | ⟨⟩⟩
  · rw [write_of_unmade hmake]
    simp
  · rw [write_of_made hmake]
    cases hreplace : made.replaceError? p text with
    | some e => simp [hreplace]
    | none =>
      obtain ⟨-, place, -, hplace, -⟩ := exists_of_replaceError? hreplace
      simp [hreplace, hplace]

/-- Where one text can be written, any text that has bytes can be: the directories are made, and the bytes put in their
place. -/
theorem exists_of_write (h : (files.write p text).2 = .ok ()) : ∃ (made : Files) (place : Path),
    made.place p = .ok place ∧ made.replaceError? p text = none ∧
      ∀ {text' : Text} {bytes : List UInt8}, Text.Utf8.encode? text' = some bytes →
        files.write p text' = (made.withFile place bytes, .ok ()) := by
  obtain ⟨made, hmake, hreplace⟩ := write_ok_iff.1 h
  obtain ⟨-, place, -, hplace, -⟩ := exists_of_replaceError? hreplace
  refine ⟨made, place, hplace, hreplace, fun {text' bytes} hbytes => ?_⟩
  have hreplace' := replaceError?_of_directories hreplace rfl (Text.Utf8.hasSurrogate_of_encode? hbytes)
  rw [write_of_made hmake, hreplace', hplace, hbytes]
  rfl

/-- When writing fails, all files are as they were. -/
theorem kept_of_write_error {e : FileError} (h : (files.write p text).2 = .error e) :
    files.Kept (files.write p text).1 := by
  have hkept := kept_makeDirectories files p.root p.parts.reverse.tail
  rcases hmake : files.makeDirectories p.root p.parts.reverse.tail with ⟨made, _ | ⟨⟩⟩
  · rw [hmake] at hkept
    rw [write_of_unmade hmake]
    exact hkept
  · rw [hmake] at hkept
    rw [write_of_made hmake] at h ⊢
    cases hreplace : made.replaceError? p text with
    | some e => exact hkept
    | none =>
      obtain ⟨-, place, -, hplace, -⟩ := exists_of_replaceError? hreplace
      rw [hreplace, hplace] at h
      cases h

/-- When it does not fail, one file has new bytes, and all others are as they were. -/
theorem exists_of_write_ok (h : (files.write p text).2 = .ok ()) : ∃ made place bytes, files.Kept made ∧
    made.place p = .ok place ∧ Text.Utf8.encode? text = some bytes ∧
      (files.write p text).1 = made.withFile place bytes := by
  obtain ⟨made, hmake, hreplace⟩ := write_ok_iff.1 h
  obtain ⟨bytes, place, hbytes, hplace, -⟩ := exists_of_replaceError? hreplace
  have hkept := kept_makeDirectories files p.root p.parts.reverse.tail
  rw [hmake] at hkept
  refine ⟨made, place, bytes, hkept, hplace, hbytes, ?_⟩
  rw [write_of_made hmake, hreplace, hplace, hbytes]
  rfl

/-- A text that has bytes is found where it was written. -/
theorem write_bytes (h : (files.write p text).2 = .ok ()) {text' : Text} {bytes : List UInt8}
    (hbytes : Text.Utf8.encode? text' = some bytes) :
    (files.write p text').2 = .ok () ∧ (files.write p text').1.bytes p = .ok bytes := by
  obtain ⟨made, place, hplace, -, hwrite⟩ := exists_of_write h
  rw [hwrite hbytes]
  exact ⟨rfl, bytes_withFile hplace bytes⟩

/-- Where a text has been written, it can be written again. -/
theorem write_again (h : (files.write p text).2 = .ok ()) : ((files.write p text).1.write p text).2 = .ok () := by
  obtain ⟨made, place, hplace, hreplace, hwrite⟩ := exists_of_write h
  obtain ⟨bytes, -, hbytes, -⟩ := exists_of_replaceError? hreplace
  have hsame := directories_withFile made place bytes
  rw [hwrite hbytes, write_of_place (place_eq_ok_of_directories hsame hplace),
    replaceError?_of_directories hreplace hsame (Text.Utf8.hasSurrogate_of_encode? hbytes)]

end Files

end Bilingual

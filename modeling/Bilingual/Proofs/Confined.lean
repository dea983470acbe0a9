import Bilingual.Proofs.Block.Locate
import Bilingual.Proofs.Planned
import Bilingual.Proofs.Rewrite

set_option autoImplicit false

/-! # What a region confines

The sites of a category are searched for in its window only, each kind in its own way: occurrences and labelled
literals are read at cursors of the window, and a block starts behind its anchors and ends before the window does. So
all edits of a plan lie in the window (`PatchInput.confined_plan`), and patching a category leaves the text around its
window as it is (`PatchInput.patchCategory_confined`). -/

namespace Bilingual

open Logged

/-! ## Windows -/

theorem Text.find?_ge {t needle : Text} {start stop found : Nat} (h : t.find? needle start stop = some found) :
    start ≤ found := by
  obtain ⟨-, n, -, rfl⟩ := find?_eq_some_iff.1 h
  exact Nat.le_add_right _ _

theorem Text.findEnd?_le {t needle : Text} {start stop behind : Nat} (h : t.findEnd? needle start stop = some behind) :
    start ≤ behind ∧ behind ≤ t.length := by
  obtain ⟨found, hfound, rfl⟩ := Option.map_eq_some_iff.1 h
  obtain ⟨hstart, n, hn, rfl⟩ := find?_eq_some_iff.1 hfound
  have hle := add_length_le_of_indexOf? hn
  rw [slice, List.length_drop, List.length_take] at hle
  omega

theorem Text.findAllEnd?_ge {t : Text} {start stop behind : Nat} {needles : List Text}
    (h : t.findAllEnd? start stop needles = some behind) : start ≤ behind := by
  induction needles generalizing start with
  | nil =>
    cases h
    exact Nat.le_refl _
  | cons needle rest ih =>
    obtain ⟨between, hbetween, hrest⟩ := Option.bind_eq_some_iff.1 h
    exact Nat.le_trans (findEnd?_le hbetween).1 (ih hrest)

/-- A window does not end before it starts, and it ends in the text. -/
theorem Region.window?_le {region : Region} {text : Text} {window : Window} (h : region.window? text = some window) :
    window.start ≤ window.stop ∧ window.stop ≤ text.length := by
  obtain ⟨_ | before, _ | behind⟩ := region
  · cases h
    exact ⟨Nat.zero_le _, Nat.le_refl _⟩
  · obtain ⟨stop, hstop, h⟩ := Option.bind_eq_some_iff.1 h
    cases h
    exact ⟨Nat.zero_le _, Text.le_length_of_find? hstop⟩
  · obtain ⟨start, hstart, h⟩ := Option.bind_eq_some_iff.1 h
    cases h
    exact ⟨(Text.findEnd?_le hstart).2, Nat.le_refl _⟩
  · obtain ⟨start, hstart, h⟩ := Option.bind_eq_some_iff.1 h
    obtain ⟨stop, hstop, h⟩ := Option.bind_eq_some_iff.1 h
    cases h
    exact ⟨Text.find?_ge hstop, Text.le_length_of_find? hstop⟩

theorem Category.window?_le {c : Category} {text : Text} {window : Window} (h : c.window? text = some window) :
    window.start ≤ window.stop ∧ window.stop ≤ text.length := by
  unfold Category.window? at h
  split at h
  · cases h
    exact ⟨Nat.zero_le _, Nat.le_refl _⟩
  · exact Region.window?_le h

/-- Edits between two offsets of a text leave what is in front of the first and behind the second. -/
theorem Edit.exists_inside_of_within {text patched : Text} {edits : List Edit} {start stop : Nat} (hle : start ≤ stop)
    (hstop : stop ≤ text.length) (hwithin : ∀ e ∈ edits, e.Within start stop)
    (h : applyAll text edits = .ok patched) :
    ∃ inside, patched = text.take start ++ inside ++ text.drop stop := by
  obtain ⟨⟨⟩, hcheck, h⟩ := Except.bind_eq_ok_iff.1 h
  cases h
  have horder : InOrder stop start (sort edits) := by
    refine inOrder_of_pairwise hle (fun e he => ?_) (pairwise_of_check hcheck).2
    have hin := hwithin e ((sort_perm edits).mem_iff.1 he)
    exact ⟨hin.start_le, hin.start_le_stop, hin.stop_le⟩
  have hwhole : InOrder text.length start (sort edits) := by
    refine inOrder_of_pairwise (by omega) (fun e he => ?_) (pairwise_of_check hcheck).2
    have hin := hwithin e ((sort_perm edits).mem_iff.1 he)
    exact ⟨hin.start_le, hin.start_le_stop, by have := hin.stop_le; omega⟩
  refine ⟨splice (text.take stop) start (sort edits), ?_⟩
  have hbehind : InOrder text.length stop [] := hstop
  have hsplit := splice_append horder hbehind
  rw [List.append_nil] at hsplit
  rw [foldr_apply_eq hwhole, hsplit, List.append_assoc]
  rfl

/-! ## Sites -/

/-- The scan for a closing bracket does not look behind the end of the window. -/
theorem Bracket.lt_of_closing? {text : Text} {start stop found : Nat} {singleLine : Bool}
    (h : closing? text start (some stop) singleLine = some found) : found < stop := by
  obtain ⟨before, behind, c, htext, rfl, -⟩ := exists_of_closingFrom? h
  have hlength := congrArg List.length htext
  rw [Option.getD_some, Text.slice, List.length_drop, List.length_take, List.length_append, List.length_cons] at hlength
  omega

/-- The body of a block starts behind the start of the window and ends before the window does. -/
theorem BlockSpan.within_of_locate {text written : Text} {anchors : List Text} {start stop : Nat} {block : BlockSpan}
    (h : locate text anchors written start stop = .ok (some block)) (body : Text) :
    Edit.Within ⟨block.bodyStart, block.bodyEnd, body⟩ start stop := by
  obtain ⟨behind, row, hanchors, hopener, hfind, -⟩ := locate_eq_ok_iff.1 h
  obtain ⟨-, rfl⟩ := opener_eq_ok_iff.1 hopener
  obtain ⟨hopens, first, last, hfirst, hoffset, hlast, hrun⟩ :=
    Recogniser.read_of_mem_all (Recogniser.mem_all_of_find? hfind)
  obtain ⟨-, hforward⟩ := (forward_wordsInRow _).atWordStart _ _ first hfirst _ last hrun
  have hbehind := Text.findAllEnd?_ge hanchors
  have hbody : behind ≤ block.bodyStart := by
    rw [← show last.offset = block.bodyStart from hlast]
    exact Nat.le_trans (hoffset ▸ hopens) hforward
  obtain ⟨more, hmore, hend, -⟩ := exists_behind h
  have hlength := congrArg List.length hmore
  rw [Text.slice, List.length_drop, List.length_take, List.length_append, List.length_cons] at hlength
  constructor
  · show (start : Int) ≤ block.bodyStart
    omega
  · show (block.bodyStart : Int) ≤ block.bodyEnd
    omega
  · show (block.bodyEnd : Int) ≤ stop
    omega

namespace Category

variable {c : Category} {text locale : Text}

theorem occurrences_inside {pattern : Pattern} {occurrences : List Occurrence}
    (h : c.occurrences text pattern = .ok occurrences) {o : Occurrence} (ho : o ∈ occurrences) :
    ∃ window ∈ c.window? text, o.secondary.Inside text window.start window.stop := by
  unfold Category.occurrences mapOccurrences at h
  split at h
  · cases h
    cases ho
  · next window hwindow =>
    obtain ⟨hin, hstart, hstop⟩ := Pattern.in_of_mem_occurrences h o ho
    exact ⟨window, hwindow, hin.inside.secondary.mono hstart hstop⟩

theorem scalarLiterals?_inside {literals : OrderedMap LiteralSpan} (h : c.scalarLiterals? text locale = some literals) :
    ∀ pair ∈ literals, ∃ window ∈ c.window? text, pair.2.Inside text window.start window.stop := by
  obtain ⟨window, start, anchors, hwindow, hstart, hinside⟩ := inside_of_mem_scalarLiterals? h
  have hle := Text.findAllEnd?_ge hstart
  have hstop : (Bracket.closing? text start (some window.stop) false).getD window.stop ≤ window.stop := by
    cases hclosing : Bracket.closing? text start (some window.stop) false with
    | none => exact Nat.le_refl _
    | some found => exact Nat.le_of_lt (Bracket.lt_of_closing? hclosing)
  exact fun pair hpair => ⟨window, hwindow, (hinside pair hpair).mono hle hstop⟩

/-- The body of the block of a category lies in its window. -/
theorem parsedBlock_within {parsed : ParsedBlock} (h : c.parsedBlock text locale = .ok (some parsed)) (body : Text) :
    ∃ window ∈ c.window? text,
      Edit.Within ⟨parsed.block.bodyStart, parsed.block.bodyEnd, body⟩ window.start window.stop := by
  obtain ⟨place, window, kind, block, -, hwindow, -, hlocate, hparse⟩ := exists_of_parsedBlock h
  obtain ⟨rfl, -⟩ := ParsedBlock.parse_eq_ok_iff.1 hparse
  exact ⟨window, hwindow, BlockSpan.within_of_locate hlocate body⟩

end Category

/-! ## Plans -/

namespace Plan

variable {c : Category} {text locale : Text} {window? : Option Window}

/-- All edits of the plan lie in the window; without a window there are none. -/
def Confined (window? : Option Window) (plan : Plan) : Prop :=
  ∀ e ∈ plan.edits, ∃ window ∈ window?, e.Within window.start window.stop

theorem confined_of_edits_eq_nil {plan : Plan} (h : plan.edits = []) : plan.Confined window? := by
  intro e he
  rw [h] at he
  cases he

theorem ensures_confined_notFound (entry : PatchEntry) : Ensures (Confined window?) (notFound entry) := by
  rintro _ ⟨⟩
  exact confined_of_edits_eq_nil rfl

theorem ensures_confined_forEach {α : Type} {things : List α} {plan : α → Logged Failure Plan}
    (h : ∀ a ∈ things, Ensures (Confined window?) (plan a)) : Ensures (Confined window?) (forEach things plan) := by
  refine ensures_bind fun plans hplans => ensures_pure fun e he => ?_
  obtain ⟨p, hp, he⟩ := List.mem_flatMap.1 he
  exact ensures_mapM h plans hplans p hp e he

/-- The edit of a literal in the window lies there. -/
theorem within_of_editTo? {l : LiteralSpan} {value : Text} {e : Edit}
    (hl : ∃ window ∈ window?, l.Inside text window.start window.stop) (h : l.editTo? value = .ok (some e)) :
    ∃ window ∈ window?, e.Within window.start window.stop := by
  obtain ⟨window, hwindow, hinside⟩ := hl
  obtain ⟨current, -, h⟩ := Except.bind_eq_ok_iff.1 h
  split at h
  · cases h
  · cases h
    exact ⟨window, hwindow, hinside.within _⟩

theorem ensures_confined_literal (text : Text) {entry : PatchEntry} {site : Option LiteralSpan} (value : Option Text)
    (hsite : ∀ l ∈ site, ∃ window ∈ window?, l.Inside text window.start window.stop) :
    Ensures (Confined window?) (literal entry site value) := by
  unfold literal
  match value, site with
  | none, _ => exact ensures_pure (confined_of_edits_eq_nil rfl)
  | some _, none => exact ensures_confined_notFound _
  | some value, some l =>
    refine ensures_bind fun edit hedit => ensures_pure fun e he => ?_
    rw [Option.mem_toList.1 he] at hedit
    exact within_of_editTo? (hsite l rfl) hedit

theorem ensures_confined_pairs (locales : Locales) (fields : List PairField) (records : List (Option FlatMap)) :
    Ensures (Confined (c.window? text)) (pairs c text locales fields records) := by
  refine ensures_confined_forEach fun field _ => ensures_bind fun occurrences hoccurrences => ?_
  refine ensures_confined_forEach fun row _ => ensures_confined_literal text _ fun l hl => ?_
  obtain ⟨o, ho, rfl⟩ := Option.map_eq_some_iff.1 hl
  exact Category.occurrences_inside hoccurrences (List.mem_of_getElem? ho)

theorem ensures_confined_keyed (pattern : Pattern) (texts : FlatMap) :
    Ensures (Confined (c.window? text)) (keyed c text pattern texts) := by
  refine ensures_bind fun occurrences hoccurrences => ensures_confined_forEach fun pair _ => ?_
  obtain ⟨key, value⟩ := pair
  cases value with
  | none => exact ensures_pure (confined_of_edits_eq_nil rfl)
  | some value =>
    refine ensures_bind fun matching hmatching => ?_
    obtain ⟨-, hfilter⟩ := occurrencesOf_eq_ok_iff.1 hmatching
    split
    · exact ensures_confined_notFound _
    · refine ensures_bind fun edits hedits => ensures_pure fun e he => ?_
      rw [result_mapM] at hedits
      obtain ⟨edit, hedit, rfl⟩ := List.mem_filterMap.1 he
      obtain ⟨o, ho, hstep⟩ := List.Forall₂.exists_of_mem_right (Except.mapM_eq_ok_iff.1 hedits) hedit
      exact within_of_editTo? (Category.occurrences_inside hoccurrences (List.mem_of_mem_filter (hfilter ▸ ho))) hstep

theorem ensures_confined_scalarFields (texts : FlatMap) :
    Ensures (Confined (c.window? text)) (scalarFields c text locale texts) := by
  unfold scalarFields
  cases hliterals : c.scalarLiterals? text locale with
  | none => exact ensures_confined_notFound _
  | some literals =>
    refine ensures_confined_forEach fun pair _ => ensures_confined_literal text _ fun l hl => ?_
    exact Category.scalarLiterals?_inside hliterals _ (OrderedMap.mem_of_lookup? hl)

/-- The plan of a block has no edit but the one of its body. -/
theorem span_of_mem_ofChanges {parsed : ParsedBlock} {changes : List ItemChange} {entries : List PatchEntry}
    {plan : Plan} (h : ofChanges parsed text changes entries = .ok plan) {e : Edit} (he : e ∈ plan.edits) :
    e = ⟨parsed.block.bodyStart, parsed.block.bodyEnd, e.replacement⟩ := by
  unfold ofChanges at h
  split at h
  · cases h
    cases he
  · obtain ⟨body, -, h⟩ := Except.bind_eq_ok_iff.1 h
    cases h
    rw [List.mem_singleton.1 he]

theorem ensures_confined_ofChanges {parsed : ParsedBlock} (hblock : c.parsedBlock text locale = .ok (some parsed))
    (changes : List ItemChange) (entries : List PatchEntry) :
    Ensures (Confined (c.window? text)) (liftM (ofChanges parsed text changes entries) : Logged Failure Plan) := by
  intro plan hplan e he
  rw [span_of_mem_ofChanges hplan he]
  exact Category.parsedBlock_within hblock _

theorem ensures_confined_dictBlock (given : FlatMap) (merged : List FlatMap) :
    Ensures (Confined (c.window? text)) (dictBlock c text locale given merged) := by
  rw [dictBlock_eq]
  refine ensures_bind fun found hfound => ?_
  cases found with
  | none => exact ensures_confined_notFound _
  | some parsed => exact ensures_bind fun replaced _ => ensures_confined_ofChanges hfound _ _

theorem ensures_confined_recordBlock (names : List Text) (records : List (Option FlatMap)) :
    Ensures (Confined (c.window? text)) (recordBlock c text locale names records) := by
  refine ensures_bind fun found hfound => ?_
  cases found with
  | none => exact ensures_confined_notFound _
  | some parsed => exact ensures_bind fun planned _ => ensures_confined_ofChanges hfound _ _

theorem ensures_confined_keyedRecordBlock (names : List Text) (records : OrderedMap (Option FlatMap)) :
    Ensures (Confined (c.window? text)) (keyedRecordBlock c text locale names records) := by
  refine ensures_bind fun found hfound => ?_
  cases found with
  | none => exact ensures_confined_notFound _
  | some parsed => exact ensures_bind fun planned _ => ensures_confined_ofChanges hfound _ _

end Plan

namespace PatchInput

variable {input : PatchInput} {c : Category} {text : Text}

/-- Whatever contents are planned for a category that does not hold documents, the edits lie in its window. -/
theorem confined_plan (hkind : ∀ keyField bodyField defaults, c.placement ≠ .documents keyField bodyField defaults)
    (content : Content) (merged : List FlatMap) :
    Ensures (Plan.Confined (c.window? text)) (input.plan c text content merged) := by
  have hnothing : Ensures (Plan.Confined (c.window? text)) (pure {} : Logged Failure Plan) :=
    ensures_pure (Plan.confined_of_edits_eq_nil rfl)
  unfold plan
  dsimp only
  split
  · exact Plan.ensures_confined_pairs _ _ _
  · next hplacement => exact absurd hplacement (hkind _ _ _)
  · exact Plan.ensures_confined_scalarFields _
  · exact Plan.ensures_confined_dictBlock _ _
  · exact Plan.ensures_confined_recordBlock _ _
  · exact Plan.ensures_confined_recordBlock _ _
  · exact Plan.ensures_confined_keyedRecordBlock _ _
  · split
    · exact Plan.ensures_confined_keyed _ _
    · exact hnothing
  · exact hnothing

theorem confined_planned (hkind : ∀ keyField bodyField defaults, c.placement ≠ .documents keyField bodyField defaults)
    {plan : Plan} (h : input.planned c text = .ok plan) : plan.Confined (c.window? text) := by
  rcases planned_cases h with ⟨hedits, -⟩ | ⟨content, -, -, hplan⟩
  · exact Plan.confined_of_edits_eq_nil hedits
  · exact confined_plan hkind content _ plan hplan

/-- A text patched in a window keeps what is in front of the window and what is behind it. Without a window it stays as
it is, and no update is reported. -/
def KeepsAround (text : Text) (window? : Option Window) (patched : Text) (entries : List PatchEntry) : Prop :=
  match window? with
  | some window => ∃ inside, patched = text.take window.start ++ inside ++ text.drop window.stop
  | none => patched = text ∧ ∀ entry ∈ entries, entry.status ≠ .updated

/-- A region confines its category: patching changes nothing outside of the window, and nothing at all without one. -/
theorem patchCategory_confined {patched : Text} {entries : List PatchEntry}
    (hkind : ∀ keyField bodyField defaults, c.placement ≠ .documents keyField bodyField defaults)
    (h : (input.patchCategory c text).result = .ok (patched, entries)) :
    KeepsAround text (c.window? text) patched entries := by
  obtain ⟨plan, hplan, hpatched, rfl⟩ := patchCategory_eq_ok_iff.1 h
  have hconfined := confined_planned hkind hplan
  unfold KeepsAround
  split
  · next window hwindow =>
    obtain ⟨hle, hstop⟩ := Category.window?_le hwindow
    refine Edit.exists_inside_of_within hle hstop (fun e he => ?_) hpatched
    obtain ⟨found, hfound, hwithin⟩ := hconfined e he
    cases hwindow.symm.trans hfound
    exact hwithin
  · next hwindow =>
    have hedits : plan.edits = [] := by
      refine List.eq_nil_iff_forall_not_mem.2 fun e he => ?_
      obtain ⟨window, hfound, -⟩ := hconfined e he
      cases hwindow.symm.trans hfound
    rw [hedits, Edit.applyAll_nil] at hpatched
    cases hpatched
    exact ⟨rfl, (honest_planned hplan).1 hedits⟩

/-- A list in a region. -/
def tagsSample : Category :=
  { name := "tags", region := some ⟨some "start", some "stop"⟩
    placement := .listBlock ⟨[], "\x7blocale\x7d: [", []⟩ "value" [] }

/-- A file of it, with a block of the same form in front of the region. -/
def tagsText (tag : Text) : Text := "ar: ['a']\nstart ar: ['" ++ tag ++ "'] stop\n"

/-- The manifest and the contents. -/
def tagsInput : PatchInput where
  manifest := { artifacts := [{ path := "page.ts", categories := [tagsSample] }] }
  snapshot := { categories := [("tags", (Content.records [some [("value", some "c")]]).toJson)] }

theorem patchCategory_confined_tags :
    tagsSample.window? (tagsText "b") = some ⟨15, 26⟩ ∧
      KeepsAround (tagsText "b") (tagsSample.window? (tagsText "b")) (tagsText "c")
        [{ category := "tags", status := .updated, index := some 0, field := some "value" }] := by
  have hpatched : (tagsInput.patchCategory tagsSample (tagsText "b")).result = .ok (tagsText "c",
      [{ category := "tags", status := .updated, index := some 0, field := some "value" }]) := by decide +kernel
  exact ⟨by decide +kernel, patchCategory_confined (by simp [tagsSample]) hpatched⟩

end PatchInput

end Bilingual

import Bilingual.Proofs.Block.Diverge
import Bilingual.Proofs.Planned
import Bilingual.Proofs.Rewrite

set_option autoImplicit false

/-! # Plans of blocks that show

Whatever a plan does to a block can be seen in the text (`Plan.ensures_shows_ofChanges`): an item gets a new source only
for a literal that stands for another text, and a new item is never empty. -/

namespace Bilingual

open Logged ParsedBlock

/-- The change shows in the text: the new source of an item goes apart from the one it had, and a new item is not
empty. -/
def ItemChange.Shows (text : Text) (items : List BlockItem) : ItemChange → Prop
  | .keep => True
  | .replace i source => ∃ item, items[i]? = some item ∧ Text.Diverge source (item.source text)
  | .append source => source ≠ []

/-- The block of a category is laid out, and its body lies in the text. -/
theorem Category.exists_laid {c : Category} {text locale : Text} {parsed : ParsedBlock}
    (h : c.parsedBlock text locale = .ok (some parsed)) : ∃ kind parts last, parsed.Laid text kind parts last ∧
      parsed.block.bodyStart ≤ parsed.block.bodyEnd ∧ parsed.block.bodyEnd ≤ text.length := by
  obtain ⟨place, window, kind, block, -, -, -, hlocate, hparse⟩ := c.exists_of_parsedBlock h
  obtain ⟨parts, last, hlaid, -⟩ := ParsedBlock.exists_laid hlocate hparse
  obtain ⟨-, -, hend, hlt, -⟩ := BlockSpan.exists_behind hlocate
  obtain ⟨rfl, -⟩ := ParsedBlock.parse_eq_ok_iff.1 hparse
  exact ⟨kind, parts, last, hlaid, by omega, by omega⟩

namespace Plan

variable {c : Category} {text locale : Text} {parsed : ParsedBlock}

/-- If the plan has edits, carrying them out gives another text. -/
def Shows (text : Text) (plan : Plan) : Prop :=
  plan.edits ≠ [] → ∀ patched, Edit.applyAll text plan.edits = .ok patched → patched ≠ text

theorem shows_of_edits_eq_nil {plan : Plan} (h : plan.edits = []) : plan.Shows text := fun hne => absurd h hne

theorem ensures_shows_notFound (entry : PatchEntry) : Ensures (Shows text) (notFound entry) := by
  rintro _ ⟨⟩
  exact shows_of_edits_eq_nil rfl

/-! ## The new body -/

section Changes

variable {changes : List ItemChange}

/-- The sources that changes give the items of a block: a source is kept, or it goes apart from the one it was. -/
theorem forall₂_sources (h : ∀ change ∈ changes, change.Shows text parsed.items) :
    List.Forall₂ (fun item source => source = item.source text ∨ Text.Diverge source (item.source text)) parsed.items
      (parsed.items.zipIdx.map fun (item, i) =>
        (changes.findSome? (ItemChange.replaced? i)).getD (item.source text)) := by
  conv => arg 2; rw [← List.zipIdx_map_fst 0 parsed.items]
  rw [List.forall₂_map_left_iff, List.forall₂_map_right_iff, List.forall₂_same]
  rintro ⟨item, i⟩ hitem
  dsimp only
  cases hfound : changes.findSome? (ItemChange.replaced? i) with
  | none => exact .inl rfl
  | some source =>
    obtain ⟨other, hother, hdiverge⟩ := h _ (replace_mem_of_findSome? hfound)
    cases (List.mem_zipIdx_iff_getElem?.1 hitem).symm.trans hother
    exact .inr hdiverge

/-- An item is replaced or a new one is there, unless all changes keep what is there. -/
theorem changes_cases (h : ∀ change ∈ changes, change.Shows text parsed.items)
    (hchange : ¬ ∀ change ∈ changes, change = .keep) :
    (parsed.items.zipIdx.map fun (item, i) => (changes.findSome? (ItemChange.replaced? i)).getD (item.source text)) ≠
        parsed.items.map (fun item => item.source text) ∨
      changes.filterMap ItemChange.appended? ≠ [] := by
  obtain ⟨change, hmem, hne⟩ : ∃ change ∈ changes, change ≠ .keep := by simpa using hchange
  cases change with
  | keep => exact absurd rfl hne
  | append source => exact .inr (List.ne_nil_of_mem (List.mem_filterMap.2 ⟨_, hmem, rfl⟩))
  | replace i source =>
    refine .inl fun heq => ?_
    obtain ⟨item, hitem, -⟩ := h _ hmem
    -- the first replacement of the item counts, and it goes apart from the source of the item too
    obtain ⟨found, hfound⟩ : ∃ found, changes.findSome? (ItemChange.replaced? i) = some found := by
      rw [← Option.isSome_iff_exists, List.findSome?_isSome_iff]
      exact ⟨_, hmem, by simp [ItemChange.replaced?]⟩
    obtain ⟨other, hother, hdiverge⟩ := h _ (replace_mem_of_findSome? hfound)
    cases hitem.symm.trans hother
    have hsource := congrArg (fun sources : List Text => sources[i]?) heq
    simp only [List.getElem?_map, List.getElem?_zipIdx, hitem, Option.map_some, Nat.zero_add, hfound,
      Option.getD_some, Option.some.injEq] at hsource
    exact hdiverge.ne hsource

/-- A block whose changes show is another one in the patched text. -/
theorem ensures_shows_ofChanges (hblock : c.parsedBlock text locale = .ok (some parsed))
    (h : ∀ change ∈ changes, change.Shows text parsed.items) (entries : List PatchEntry) :
    Ensures (Shows text) (liftM (ofChanges parsed text changes entries) : Logged Failure Plan) := by
  obtain ⟨kind, parts, last, hlaid, hspan, hend⟩ := Category.exists_laid hblock
  intro plan hplan hne patched hpatched heq
  have hplan : ofChanges parsed text changes entries = .ok plan := hplan
  unfold ofChanges at hplan
  split at hplan
  · cases hplan
    exact hne rfl
  · next hkeep =>
    obtain ⟨body, hbody, hplan⟩ := Except.bind_eq_ok_iff.1 hplan
    cases hplan
    have hchange : ¬ ∀ change ∈ changes, change = .keep := by simpa using hkeep
    refine hlaid.renderBody_ne hspan (forall₂_sources h) (changes_cases h hchange) (fun source hsource => ?_) hbody ?_
    · obtain ⟨change, hmem, happended⟩ := List.mem_filterMap.1 hsource
      cases change with
      | append other =>
        cases happended
        exact h _ hmem
      | keep => cases happended
      | replace i other => cases happended
    · cases (applyAll_body hspan hend body).symm.trans hpatched
      have hsame : parsed.block.replaceBody text body = parsed.block.replaceBody text (parsed.block.body text) := by
        rw [heq, BlockSpan.replaceBody, BlockSpan.body, Edit.take_append_slice hspan, List.take_append_drop]
      exact List.append_cancel_left (List.append_cancel_right hsame)

end Changes

/-! ## Entries -/

/-- An item of a laid out block with other texts in some of its literals shows. -/
theorem diverge_of_withLiterals {kind : ItemKind} {parts : List BlockPart} {last source : Text}
    (hlaid : parsed.Laid text kind parts last) {item : BlockItem} (hitem : item ∈ parsed.items)
    {pairs : List (LiteralSpan × Text)} (hreplaces : Replaces item pairs)
    (hdiffers : ∀ pair ∈ pairs, Differs pair = true) (hne : pairs ≠ [])
    (hsource : item.withLiterals text pairs = .ok source) : Text.Diverge source (item.source text) := by
  obtain ⟨hin, hspan, hstop⟩ := hlaid.literalsIn hitem
  exact hreplaces.diverge hin hspan hstop hdiffers hne hsource

theorem diverge_of_replaceEntry? {kind : ItemKind} {parts : List BlockPart} {last source : Text}
    (hlaid : parsed.Laid text kind parts last) {item : BlockItem} (hitem : item ∈ parsed.items) {texts : FlatMap}
    (h : replaceEntry? text item texts = .ok (some source)) : Text.Diverge source (item.source text) := by
  obtain ⟨found, hfound⟩ := hlaid.exists_withLiterals hitem (replaces_entryTexts texts item)
  have hdecodes := decodes_of_replaceEntry? h
  have hentry := replaceEntry?_of_decodes hdecodes hfound
  rw [h] at hentry
  split at hentry
  · cases hentry
  · next hne =>
    cases hentry
    exact diverge_of_withLiterals hlaid hitem (replaces_entryTexts texts item)
      (fun pair hpair => (List.mem_filter.1 hpair).2) hne hfound

theorem ensures_shows_dictBlock (given : FlatMap) (merged : List FlatMap) :
    Ensures (Shows text) (dictBlock c text locale given merged) := by
  rw [dictBlock_eq]
  refine ensures_bind fun found hfound => ?_
  cases found with
  | none => exact ensures_shows_notFound _
  | some parsed =>
    obtain ⟨kind, parts, last, hlaid, -⟩ := Category.exists_laid hfound
    refine ensures_bind fun replaced hreplaced => ensures_shows_ofChanges hfound (fun change hchange => ?_) _
    rw [result_mapM] at hreplaced
    cases change with
    | keep => trivial
    | replace i source =>
      obtain ⟨item, hitem, hstep⟩ := List.Forall₂.exists_of_getElem? (Except.mapM_eq_ok_iff.1 hreplaced).flip
        (replace_mem_entryChanges_iff.1 hchange)
      exact ⟨item, hitem, diverge_of_replaceEntry? hlaid (List.mem_of_getElem? hitem) hstep⟩
    | append source =>
      rcases List.mem_append.1 hchange with hchange | hchange
      · obtain ⟨⟨found, index⟩, -, heq⟩ := List.mem_filterMap.1 hchange
        cases found <;> cases heq
      · obtain ⟨⟨key, value⟩, -, heq⟩ := List.mem_filterMap.1 hchange
        dsimp only at heq
        split at heq
        · cases heq
        · obtain ⟨t, -, heq⟩ := Option.map_eq_some_iff.1 heq
          cases heq
          simp [ItemChange.Shows, renderEntry, Quote.render]

/-! ## Records -/

variable {names : List Text}

theorem renderRecord_ne_nil (values : List (Text × Text)) : parsed.renderRecord values ≠ [] :=
  List.append_ne_nil_of_right_ne_nil _ (by decide)

theorem renderKeyedRecord_ne_nil (text key : Text) (values : List (Text × Text)) :
    parsed.renderKeyedRecord text key values ≠ [] := by
  have hbrace : ("\x7d" : Text) ≠ [] ∧ (" \x7d" : Text) ≠ [] := by decide
  unfold renderKeyedRecord
  dsimp only
  split
  · split
    · exact List.append_ne_nil_of_right_ne_nil _ hbrace.1
    · exact List.append_ne_nil_of_right_ne_nil _ hbrace.2
  · exact List.append_ne_nil_of_right_ne_nil _ hbrace.2

theorem ensures_shows_existingRecord {kind : ItemKind} {parts : List BlockPart} {last : Text}
    (hlaid : parsed.Laid text kind parts last) {i : Nat} {item : BlockItem} (hitem : parsed.items[i]? = some item)
    (entry : PatchEntry) (record : FlatMap) :
    Ensures (fun planned => planned.1.Shows text parsed.items)
      (existingRecord c text entry names record i item) := by
  intro planned hplanned
  have hmem := List.mem_of_getElem? hitem
  have hreplaces := replaces_changedTexts c names (some record) item
  obtain ⟨source, hsource⟩ := hlaid.exists_withLiterals hmem hreplaces
  obtain ⟨entries, hresult⟩ : ∃ entries, (existingRecord c text entry names record i item).result = .ok (_, entries) :=
    existingRecord_of_decodes (decodes_of_existingRecord hplanned) hsource
  cases hplanned.symm.trans hresult
  dsimp only
  split
  · trivial
  · next hne =>
    refine ⟨item, hitem, diverge_of_withLiterals hlaid hmem hreplaces (fun pair hpair => ?_) hne hsource⟩
    obtain ⟨name, -, hbound⟩ := List.mem_filterMap.1 (mem_of_mem_distinctLiterals hpair)
    exact (Option.filter_eq_some_iff.1 hbound).2

theorem ensures_shows_record {kind : ItemKind} {parts : List BlockPart} {last : Text}
    (hlaid : parsed.Laid text kind parts last) (entry : PatchEntry) (given : Option FlatMap)
    {site : Option (Nat × BlockItem)} {render : List (Text × Text) → Text}
    (hsite : ∀ i item, site = some (i, item) → parsed.items[i]? = some item) (hrender : ∀ texts, render texts ≠ []) :
    Ensures (fun planned => planned.1.Shows text parsed.items) (record c text entry names given site render) := by
  unfold record
  match given, site with
  | none, _ => exact ensures_pure trivial
  | some texts, some (i, item) => exact ensures_shows_existingRecord hlaid (hsite i item rfl) entry texts
  | some texts, none =>
    refine ensures_pure ?_
    unfold newRecord
    split
    · trivial
    · exact hrender _

/-- Records in a row show, if each of them does. -/
theorem ensures_shows_rows {α : Type} {things : List α} {plan : α → Logged Failure (ItemChange × List PatchEntry)}
    (hblock : c.parsedBlock text locale = .ok (some parsed))
    (h : ∀ a ∈ things, Ensures (fun planned => planned.1.Shows text parsed.items) (plan a)) :
    Ensures (Shows text) (things.mapM plan >>= fun planned =>
      liftM (ofChanges parsed text (planned.map Prod.fst) (planned.flatMap Prod.snd))) := by
  refine ensures_bind fun planned hplanned => ensures_shows_ofChanges hblock (fun change hchange => ?_) _
  obtain ⟨p, hp, rfl⟩ := List.mem_map.1 hchange
  exact ensures_mapM h planned hplanned p hp

theorem ensures_shows_recordBlock (records : List (Option FlatMap)) :
    Ensures (Shows text) (recordBlock c text locale names records) := by
  refine ensures_bind fun found hfound => ?_
  cases found with
  | none => exact ensures_shows_notFound _
  | some parsed =>
    obtain ⟨kind, parts, last, hlaid, -⟩ := Category.exists_laid hfound
    refine ensures_shows_rows hfound fun row _ =>
      ensures_shows_record hlaid _ _ (fun i item hsite => ?_) fun texts => ?_
    · obtain ⟨found, hitem, heq⟩ := Option.map_eq_some_iff.1 hsite
      cases heq
      exact hitem
    · split
      · simp [Quote.render]
      · exact renderRecord_ne_nil texts

theorem ensures_shows_keyedRecordBlock (records : OrderedMap (Option FlatMap)) :
    Ensures (Shows text) (keyedRecordBlock c text locale names records) := by
  refine ensures_bind fun found hfound => ?_
  cases found with
  | none => exact ensures_shows_notFound _
  | some parsed =>
    obtain ⟨kind, parts, last, hlaid, -⟩ := Category.exists_laid hfound
    refine ensures_shows_rows hfound fun row _ => ensures_shows_record hlaid _ _
      (fun i item hsite => (itemOf?_eq_some hsite).1) (renderKeyedRecord_ne_nil text row.1)

end Plan

end Bilingual

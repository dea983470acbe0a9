import Bilingual.Proofs.Block.Locate
import Bilingual.Proofs.Block.Scan
import Bilingual.Proofs.Block.Written

set_option autoImplicit false

/-! # Appended items are read back

New items behind the items of a located block are read back, and the items in front of them are what they were
(`ParsedBlock.readsBack_iff`), with one exception: they are put in front of the first line break behind the last
item, and when that line break is inside a block comment the comment swallows them. -/

namespace Bilingual

open ParsedBlock

/-! ## The forms of new items -/

/-- The item with a comma behind it. -/
def ItemForm.withComma (form : ItemForm) : ItemForm where
  key := form.key
  value := form.value
  comma := some (form.comma.getD [])
  comma_blank := by
    rintro blanks ⟨⟩
    cases hcomma : form.comma with
    | none => exact List.forall_mem_nil _
    | some blanks => exact form.comma_blank blanks hcomma

theorem ItemForm.text_withComma (form : ItemForm) :
    form.withComma.text = form.text ++ if form.comma.isSome then [] else [(',' : CodePoint)] := by
  obtain ⟨key, value, _ | blanks, hcomma⟩ := form
  · simp [withComma, text, keyText, commaText]
  · simp [withComma, text, keyText, commaText]

/-- The part with a comma behind its item. -/
def BlockPart.withComma (part : BlockPart) : BlockPart := ⟨part.gap, part.form.withComma, part.isGap⟩

theorem partsText_withComma (init : List BlockPart) (part : BlockPart) : partsText (init ++ [part.withComma]) =
    partsText (init ++ [part]) ++ if part.form.comma.isSome then [] else [(',' : CodePoint)] := by
  simp only [partsText_append, partsText_cons, BlockPart.withComma, part.form.text_withComma, List.append_assoc]
  split_ifs <;> simp [partsText]

/-- The form is one of the new item, wherever it stands. -/
structure NewItem.HasForm (new : NewItem) (form : ItemForm) : Prop where
  kind_eq : form.kind = new.kind
  holds : ∀ offset, ∃ content, form.content offset = .ok content ∧ new.Holds content

theorem NewItem.HasForm.withComma {new : NewItem} {form : ItemForm} (h : new.HasForm form) :
    new.HasForm form.withComma := ⟨h.kind_eq, h.holds⟩

/-- New items with their commas have forms. -/
theorem NewItem.exists_forms {parsed : ParsedBlock} (text : Text) (trailingComma : Bool)
    (hindent : ∀ c ∈ parsed.itemIndent, c.isSpace = true) {news : List NewItem}
    (hnamed : ∀ new ∈ news, new.WellNamed) :
    ∃ forms : List ItemForm, List.Forall₂ HasForm news forms ∧
      forms.map ItemForm.text = withCommas trailingComma (news.map (render parsed text)) := by
  induction news with
  | nil => exact ⟨[], .nil, rfl⟩
  | cons new rest ih =>
    obtain ⟨hnew, hrest⟩ := List.forall_mem_cons.1 hnamed
    obtain ⟨form, hcomma, hkind, htext, hholds⟩ := new.exists_form parsed text hnew hindent
    have hform : new.HasForm form := ⟨hkind, hholds⟩
    have hwith : form.withComma.text = new.render parsed text ++ "," := by
      rw [form.text_withComma, hcomma, htext]
      rfl
    obtain ⟨forms, hforms, hmap⟩ := ih hrest
    cases rest with
    | nil =>
      cases trailingComma with
      | false => exact ⟨[form], .cons hform .nil, by rw [List.map_singleton, htext]; rfl⟩
      | true => exact ⟨[form.withComma], .cons hform.withComma .nil, by rw [List.map_singleton, hwith]; rfl⟩
    | cons other rest =>
      exact ⟨form.withComma :: forms, .cons hform.withComma hforms, by rw [List.map_cons, hmap, hwith]; rfl⟩

/-! ## The parts that new items are -/

/-- Items with one gap in front of the first and another in front of each of the others. -/
def newParts {first separator : Text} (hfirst : Gap first) (hseparator : Gap separator) :
    List ItemForm → List BlockPart
  | [] => []
  | form :: rest => ⟨first, form, hfirst⟩ :: newParts hseparator hseparator rest

section NewParts

variable {first separator : Text} (hfirst : Gap first) (hseparator : Gap separator)

theorem partsText_newParts (form : ItemForm) (rest : List ItemForm) :
    partsText (newParts hfirst hseparator (form :: rest)) =
      first ++ (form.text ++ (rest.map ItemForm.text).flatMap (separator ++ ·)) := by
  induction rest generalizing first form with
  | nil => simp [newParts, partsText, BlockPart.text]
  | cons other rest ih =>
    rw [newParts, partsText_cons, ih hseparator]
    simp

theorem kind_newParts {kind : ItemKind} {news : List NewItem} {forms : List ItemForm}
    (h : List.Forall₂ NewItem.HasForm news forms) (hkind : ∀ new ∈ news, new.kind = kind) :
    ∀ part ∈ newParts hfirst hseparator forms, part.form.kind = kind := by
  induction h generalizing first with
  | nil => exact List.forall_mem_nil _
  | cons hform _ ih =>
    obtain ⟨hnew, hrest⟩ := List.forall_mem_cons.1 hkind
    exact List.forall_mem_cons.2 ⟨hform.kind_eq.trans hnew, ih hseparator hrest⟩

/-- The items that new parts are hold what the new items are to hold. -/
theorem exists_partItems_newParts (text : Text) (offset : Nat) {news : List NewItem} {forms : List ItemForm}
    (h : List.Forall₂ NewItem.HasForm news forms) :
    ∃ items, partItems text offset (newParts hfirst hseparator forms) = .ok items ∧
      List.Forall₂ (fun new item => new.Holds item.content) news items := by
  induction h generalizing offset first with
  | nil => exact ⟨[], rfl, .nil⟩
  | cons hform _ ih =>
    obtain ⟨content, hcontent, hholds⟩ := hform.holds (offset + first.length)
    obtain ⟨items, hitems, hall⟩ := ih hseparator _
    exact ⟨_, partItems_cons_eq_ok_iff.2 ⟨content, items, hcontent, hitems, rfl⟩, .cons hholds hall⟩

/-- The same, when the first gap ends with the one between the others. -/
theorem partsText_newParts_append {before : Text} (hfirst : Gap (before ++ separator)) {forms : List ItemForm}
    (h : forms ≠ []) : partsText (newParts hfirst hseparator forms) =
      before ++ (forms.map ItemForm.text).flatMap (separator ++ ·) := by
  cases forms with
  | nil => exact absurd rfl h
  | cons form rest =>
    rw [partsText_newParts]
    simp

end NewParts

/-- New items in one row, as they are written without a line break. -/
theorem joinWith_eq_flatMap (t : Text) (rest : List Text) : " " ++ Text.joinWith ", " (t :: rest) =
    (withCommas false (t :: rest)).flatMap fun item => (" " ++ item : Text) := by
  induction rest generalizing t with
  | nil => simp [withCommas, Text.joinWith]
  | cons u rest ih =>
    have hcomma : (", " : Text) = "," ++ " " := rfl
    rw [withCommas, List.flatMap_cons, ← ih u, Text.joinWith, hcomma]
    · simp
    · simp
    · simp

/-! ## Bodies with new items -/

/-- A text with another body in place of the body of a block. -/
def BlockSpan.replaceBody (block : BlockSpan) (text body : Text) : Text :=
  text.take block.bodyStart ++ body ++ text.drop block.bodyEnd

/-- A block with another body. -/
def BlockSpan.withBody (block : BlockSpan) (body : Text) : BlockSpan :=
  { block with bodyEnd := block.bodyStart + body.length }

theorem BlockSpan.body_withBody {block : BlockSpan} {text : Text} (body : Text)
    (h : block.bodyStart ≤ text.length) : (block.withBody body).body (block.replaceBody text body) = body := by
  have hlength : (text.take block.bodyStart).length = block.bodyStart := List.length_take_of_le h
  show ((text.take block.bodyStart ++ body ++ text.drop block.bodyEnd).take
    (block.bodyStart + body.length)).drop block.bodyStart = body
  rw [List.take_left' (by rw [List.length_append, hlength]), List.drop_left' hlength]

namespace ParsedBlock

/-- A body with new items is rendered, and in the text with that body the block parses into the items it had,
which hold what they held, and behind them the new ones. The text in front of the last item it had is what it
was. -/
structure ReadBack (parsed : ParsedBlock) (text : Text) (kind : ItemKind) (news : List NewItem) (body : Text)
    (after : ParsedBlock) : Prop where
  rendered : parsed.renderBody (parsed.items.map fun item => item.source text)
    (news.map (NewItem.render parsed text)) = .ok body
  parses : parse (parsed.block.replaceBody text body) (parsed.block.withBody body) kind = .ok (some after)
  kept : (after.items.take parsed.items.length).map BlockItem.content = parsed.items.map BlockItem.content
  added : List.Forall₂ (fun new item => new.Holds item.content) news (after.items.drop parsed.items.length)
  before : ∀ last ∈ parsed.items.getLast?,
    (parsed.block.replaceBody text body).take last.start = text.take last.start

/-- New items for a block are read back. -/
def ReadsBack (parsed : ParsedBlock) (text : Text) (kind : ItemKind) (news : List NewItem) : Prop :=
  ∃ body after, parsed.ReadBack text kind news body after

/-- A block that is parsed, laid out in parts and a last gap, and starts within its text. -/
structure Laid (parsed : ParsedBlock) (text : Text) (kind : ItemKind) (parts : List BlockPart) (last : Text) :
    Prop where
  hasKind : ∀ part ∈ parts, part.form.kind = kind
  text_eq : text.drop parsed.block.bodyStart = partsText parts ++ (last ++ text.drop parsed.block.bodyEnd)
  gaps_eq : parsed.gaps = parts.map BlockPart.gap ++ [last]
  items_eq : partItems text parsed.block.bodyStart parts = .ok parsed.items
  isLast : EndGap last
  start_le : parsed.block.bodyStart ≤ text.length
  indent_eq : parsed.block.indent = text.indentAt parsed.block.openerStart

variable {parsed : ParsedBlock} {text : Text} {kind : ItemKind} {parts : List BlockPart} {last : Text}

/-- A body that is laid out in other parts parses, with the items of those parts. -/
theorem Laid.parse_parts (h : parsed.Laid text kind parts last) {parts' : List BlockPart} {last' : Text}
    (hkind : ∀ part ∈ parts', part.form.kind = kind) (hlast : EndGap last') {items : List BlockItem}
    (hitems : partItems (parsed.block.replaceBody text (partsText parts' ++ last')) parsed.block.bodyStart
      parts' = .ok items) :
    parse (parsed.block.replaceBody text (partsText parts' ++ last'))
      (parsed.block.withBody (partsText parts' ++ last')) kind =
        .ok (some ⟨parsed.block.withBody (partsText parts' ++ last'), items, parts'.map BlockPart.gap ++ [last']⟩) :=
  parse_eq_ok_iff.2 ⟨rfl, ⟨parts', last', hlast⟩, hkind, (BlockSpan.body_withBody _ h.start_le).symm, rfl, hitems⟩

/-- The text is what it was up to the end of the parts of its block, if the new body begins with them. -/
theorem Laid.take_replaceBody (h : parsed.Laid text kind parts last) (more : Text) {k : Nat}
    (hk : k ≤ parsed.block.bodyStart + (partsText parts).length) :
    (parsed.block.replaceBody text (partsText parts ++ more)).take k = text.take k := by
  have hlength : (text.take parsed.block.bodyStart ++ partsText parts).length =
      parsed.block.bodyStart + (partsText parts).length := by
    rw [List.length_append, List.length_take_of_le h.start_le]
  have htext : text = (text.take parsed.block.bodyStart ++ partsText parts) ++
      (last ++ text.drop parsed.block.bodyEnd) := by
    rw [List.append_assoc, ← h.text_eq, List.take_append_drop]
  have hreplaced : parsed.block.replaceBody text (partsText parts ++ more) =
      (text.take parsed.block.bodyStart ++ partsText parts) ++ (more ++ text.drop parsed.block.bodyEnd) := by
    simp only [BlockSpan.replaceBody, List.append_assoc]
  rw [← hlength] at hk
  conv_rhs => rw [htext]
  rw [hreplaced, List.take_append_of_le_length hk, List.take_append_of_le_length hk]

/-- What is put behind the parts of a block is read back, if the parts hold what they held. -/
theorem Laid.readsBack (h : parsed.Laid text kind parts last) {news : List NewItem}
    {old added : List BlockPart} {more last' : Text}
    (hrendered : parsed.renderBody (parsed.items.map fun item => item.source text)
      (news.map (NewItem.render parsed text)) = .ok (partsText (old ++ added) ++ last'))
    (hmore : partsText old = partsText parts ++ more) (hkind : ∀ part ∈ old ++ added, part.form.kind = kind)
    (hold : ∀ text', ∃ items, partItems text' parsed.block.bodyStart old = .ok items ∧
      items.map BlockItem.content = parsed.items.map BlockItem.content)
    (hadded : ∀ text' offset, ∃ items, partItems text' offset added = .ok items ∧
      List.Forall₂ (fun new item => new.Holds item.content) news items)
    (hlast : EndGap last') : parsed.ReadsBack text kind news := by
  obtain ⟨first, hfirst, hcontents⟩ := hold (parsed.block.replaceBody text (partsText (old ++ added) ++ last'))
  obtain ⟨second, hsecond, hholds⟩ := hadded (parsed.block.replaceBody text (partsText (old ++ added) ++ last'))
    (parsed.block.bodyStart + (partsText old).length)
  have hlength : first.length = parsed.items.length := by
    rw [← List.length_map BlockItem.content, hcontents, List.length_map]
  have hparses := h.parse_parts hkind hlast
    (partItems_append_eq_ok_iff.2 ⟨first, second, hfirst, hsecond, rfl⟩)
  refine ⟨_, _, hrendered, hparses, ?_, ?_, fun item hitem => ?_⟩
  · rw [List.take_left' hlength, hcontents]
  · rw [List.drop_left' hlength]
    exact hholds
  · have hbody : partsText (old ++ added) ++ last' = partsText parts ++ (more ++ (partsText added ++ last')) := by
      rw [partsText_append, hmore]
      simp only [List.append_assoc]
    obtain ⟨-, hspan, hstop⟩ := of_mem_partItems h.items_eq (List.mem_of_mem_getLast? hitem)
    rw [hbody]
    exact h.take_replaceBody _ (Nat.le_trans hspan hstop)

/-! ## Where new items are put -/

theorem Laid.sources (h : parsed.Laid text kind parts last) :
    parsed.items.map (fun item => item.source text) = parts.map fun part => part.form.text :=
  sources_of_partItems h.items_eq h.text_eq

theorem Laid.itemIndent_space (h : parsed.Laid text kind parts last) :
    ∀ c ∈ parsed.itemIndent, c.isSpace = true := by
  have hstep : ∀ c ∈ parsed.block.indent ++ indentStep, c.isSpace = true :=
    List.forall_mem_append.2 ⟨fun c hc => Text.isSpace_of_mem_indentAt (h.indent_eq ▸ hc), by decide⟩
  unfold itemIndent
  split
  · next item hitem =>
    split
    · exact hstep
    · rw [(of_mem_partItems h.items_eq (List.mem_of_mem_getLast? hitem)).1]
      exact fun c hc => Text.isSpace_of_mem_indentAt hc
  · exact hstep

/-- How new items are put behind the last item of a block. -/
def lines (parsed : ParsedBlock) (last : Text) (added : List Text) : Text :=
  if last.contains ('\n' : CodePoint) then
    insertLines last parsed.itemIndent (last.takeWhile (· ≠ ('\n' : CodePoint))).length added
  else (added.flatMap fun item => (" " ++ item : Text)) ++ last

theorem Laid.exists_last {init : List BlockPart} {part : BlockPart}
    (h : parsed.Laid text kind (init ++ [part]) last) :
    ∃ item, parsed.items.getLast? = some item ∧ item.hasComma = part.form.comma.isSome := by
  obtain ⟨items, others, -, hothers, hitems⟩ := partItems_append_eq_ok_iff.1 h.items_eq
  obtain ⟨content, rest, -, hrest, rfl⟩ := partItems_cons_eq_ok_iff.1 hothers
  cases hrest
  exact ⟨_, by rw [hitems, List.getLast?_concat], rfl⟩

theorem Laid.renderBody_eq {init : List BlockPart} {part : BlockPart}
    (h : parsed.Laid text kind (init ++ [part]) last) {appended : List Text} (happended : appended ≠ []) :
    parsed.renderBody (parsed.items.map fun item => item.source text) appended =
      .ok (partsText (init ++ [part.withComma]) ++
        parsed.lines last (withCommas part.form.comma.isSome appended)) := by
  obtain ⟨item, hitem, hcomma⟩ := h.exists_last
  rw [renderBody, if_neg (by simp), if_neg (by simp [happended]), hitem]
  dsimp only
  rw [renderAfter, h.gaps_eq, List.dropLast_concat, h.sources, interleave_parts, hcomma, List.getLastD_concat, partsText_withComma,
    lines]
  split_ifs <;> simp only [List.append_assoc] <;> rfl

/-- The parts keep what they hold when their last item gets a comma. -/
theorem Laid.exists_contents {init : List BlockPart} {part : BlockPart}
    (h : parsed.Laid text kind (init ++ [part]) last) (text' : Text) :
    ∃ items, partItems text' parsed.block.bodyStart (init ++ [part.withComma]) = .ok items ∧
      items.map BlockItem.content = parsed.items.map BlockItem.content := by
  obtain ⟨items, others, hfirst, hothers, hitems⟩ := partItems_append_eq_ok_iff.1 h.items_eq
  obtain ⟨content, rest, hcontent, hrest, rfl⟩ := partItems_cons_eq_ok_iff.1 hothers
  cases hrest
  obtain ⟨items', hitems', hmap⟩ := partItems_contents text' hfirst
  refine ⟨_, partItems_append_eq_ok_iff.2 ⟨items', _, hitems',
    partItems_cons_eq_ok_iff.2 ⟨content, [], hcontent, rfl, rfl⟩, rfl⟩, ?_⟩
  rw [hitems, List.map_append, List.map_append, hmap]
  rfl

theorem Laid.kind_withComma {init : List BlockPart} {part : BlockPart}
    (h : parsed.Laid text kind (init ++ [part]) last) :
    ∀ old ∈ init ++ [part.withComma], old.form.kind = kind := by
  obtain ⟨hinit, hpart⟩ := List.forall_mem_append.1 h.hasKind
  refine List.forall_mem_append.2 ⟨hinit, fun old hmem => ?_⟩
  rw [List.mem_singleton.1 hmem]
  exact hpart part (List.mem_singleton_self part)

/-- What comes in front of the first line break of a text, and what comes behind it. -/
theorem exists_firstLine {t : Text} (h : ('\n' : CodePoint) ∈ t) :
    ∃ head tail, t = head ++ ('\n' : CodePoint) :: tail ∧ t.takeWhile (· ≠ ('\n' : CodePoint)) = head := by
  obtain ⟨head, tail, rfl, hhead⟩ := List.eq_append_cons_of_mem h
  refine ⟨head, tail, rfl, ?_⟩
  rw [List.takeWhile_append_of_pos (forall_ne_line hhead), List.takeWhile_cons_of_neg (by simp), List.append_nil]

/-- New items behind the last item are parts of their own, if the first line of the last gap is closed with its
line. -/
theorem exists_newParts (parsed : ParsedBlock) (hindent : ∀ c ∈ parsed.itemIndent, c.isSpace = true)
    (hlast : EndGap last) (hfirst : EndGap (last.takeWhile (· ≠ ('\n' : CodePoint)))) {forms : List ItemForm}
    (hforms : forms ≠ []) : ∃ (first separator last' : Text) (hgap : Gap first) (hseparator : Gap separator),
      EndGap last' ∧ parsed.lines last (forms.map ItemForm.text) =
        partsText (newParts hgap hseparator forms) ++ last' := by
  rw [lines]
  by_cases hline : ('\n' : CodePoint) ∈ last
  · obtain ⟨head, tail, rfl, hhead⟩ := exists_firstLine hline
    rw [hhead] at hfirst
    rw [if_pos (by simp), hhead, insertLines, List.take_left, List.drop_left]
    have hindent' : Gap parsed.itemIndent := gap_of_spaces hindent
    have hseparator : Gap (('\n' : CodePoint) :: parsed.itemIndent) := .space (by decide) hindent'
    have hlast' : EndGap (('\n' : CodePoint) :: tail) :=
      (Gap.nil.endGap.line_iff tail).2 ((hfirst.line_iff tail).1 hlast)
    refine ⟨_, _, _, hfirst.gap_line hindent', hseparator, hlast', ?_⟩
    rw [partsText_newParts_append _ _ hforms]
    rfl
  · rw [if_neg (by simpa using hline)]
    have hblank : Gap " " := gap_of_spaces (by decide)
    refine ⟨_, _, _, hblank, hblank, hlast, ?_⟩
    have htext : partsText (newParts (show Gap (([] : Text) ++ " ") from hblank) hblank forms) = _ :=
      partsText_newParts_append hblank hblank hforms
    exact congrArg (· ++ last) htext.symm

/-- New items behind the last item are read back, if the first line of the last gap is closed with its line. -/
theorem Laid.readsBack_behind {init : List BlockPart} {part : BlockPart}
    (h : parsed.Laid text kind (init ++ [part]) last)
    (hfirst : EndGap (last.takeWhile (· ≠ ('\n' : CodePoint)))) {news : List NewItem} (hnews : news ≠ [])
    (hall : ∀ new ∈ news, new.kind = kind ∧ new.WellNamed) : parsed.ReadsBack text kind news := by
  obtain ⟨forms, hforms, hmap⟩ := NewItem.exists_forms text part.form.comma.isSome h.itemIndent_space
    fun new hnew => (hall new hnew).2
  have hne' : news.map (NewItem.render parsed text) ≠ [] := by simpa using hnews
  have hrendered := h.renderBody_eq hne'
  have hne : forms ≠ [] := by
    rintro rfl
    cases hforms
    exact hnews rfl
  obtain ⟨first, separator, last', hgap, hseparator, hlast', hlines⟩ :=
    exists_newParts parsed h.itemIndent_space h.isLast hfirst hne
  rw [← hmap, hlines, ← List.append_assoc, ← partsText_append] at hrendered
  refine h.readsBack hrendered (partsText_withComma init part) ?_ h.exists_contents
    (fun text' offset => exists_partItems_newParts hgap hseparator text' offset hforms) hlast'
  have hadded := kind_newParts hgap hseparator hforms fun new hnew => (hall new hnew).1
  exact List.forall_mem_append.2 ⟨h.kind_withComma, hadded⟩

/-! ## New items in a block without items -/

/-- In front of the indentation of the closing bracket, a gap is closed with its line. -/
theorem endGap_of_indent {before indent : Text} (h : EndGap (before ++ ('\n' : CodePoint) :: indent))
    (hindent : ∀ c ∈ indent, c.isSpace = true) : EndGap before := by
  rcases h.exists_comment with hbefore | ⟨gap, note, hgap, hnote, rfl⟩
  · exact hbefore
  · -- the comment would have to be closed in the indentation
    have hstar : ('*' : CodePoint) ∉ indent := fun hmem => absurd (hindent _ hmem) (by decide)
    rw [List.append_assoc, hgap.endGap_append_iff] at h
    obtain ⟨n, hn, -⟩ := (endGap_comment_iff hnote).1 h
    rw [Text.indexOf?_eq_none_of_not_mem (by decide) hstar] at hn
    cases hn

/-- The last line break of a gap is where the indentation behind it begins. -/
theorem length_lastLine {before indent : Text} (h : ('\n' : CodePoint) ∉ indent) :
    (before ++ ('\n' : CodePoint) :: indent).length - ((before ++ ('\n' : CodePoint) :: indent).reverse.takeWhile
      (· ≠ ('\n' : CodePoint))).length - 1 = before.length := by
  have hreverse : ('\n' : CodePoint) ∉ indent.reverse := fun hmem => h (List.mem_reverse.1 hmem)
  rw [List.reverse_append, List.reverse_cons, List.append_assoc, List.takeWhile_append_of_pos (forall_ne_line hreverse),
    List.singleton_append, List.takeWhile_cons_of_neg (by simp), List.append_nil, List.length_append,
    List.length_cons, List.length_reverse]
  omega

/-- New items in a block without items are parts of their own. -/
theorem exists_firstParts {window : Text} (h : parsed.Laid text kind [] last)
    (hends : parsed.block.EndsAt window last) (hwindow : ∃ behind, window = last ++ behind) :
    ∃ trailingComma, ∀ (form : ItemForm) (rest : List ItemForm) (t : Text) (others : List Text),
      (form :: rest).map ItemForm.text = withCommas trailingComma (t :: others) →
        ∃ (first separator last' : Text) (hgap : Gap first) (hseparator : Gap separator), EndGap last' ∧
          parsed.renderFirst last (t :: others) =
            partsText (newParts hgap hseparator (form :: rest)) ++ last' := by
  cases hends with
  | bracket hfound =>
    obtain ⟨behind, rfl⟩ := hwindow
    obtain ⟨hgap, hline⟩ := h.isLast.gap_of_closingFrom? (by rw [hfound]; exact Option.some_ne_none _)
    have hblank : Gap " " := gap_of_spaces (by decide)
    refine ⟨false, fun form rest t others hforms => ⟨_, _, [], hgap, hblank, Gap.nil.endGap, ?_⟩⟩
    have hjoin := joinWith_eq_flatMap t others
    rw [← hforms, List.map_cons, List.flatMap_cons, List.append_assoc] at hjoin
    rw [renderFirst, if_neg (by simpa using hline), List.append_cancel_left hjoin, partsText_newParts,
      List.append_nil]
  | line before hscan hbody hfirst =>
    subst hbody
    have hline : ('\n' : CodePoint) ∉ parsed.block.indent := h.indent_eq ▸ Text.line_not_mem_indentAt _ _
    have hspace : ∀ c ∈ parsed.block.indent, c.isSpace = true := fun c hc =>
      Text.isSpace_of_mem_indentAt (h.indent_eq ▸ hc)
    have hindent : Gap parsed.itemIndent := gap_of_spaces h.itemIndent_space
    have hseparator : Gap (('\n' : CodePoint) :: parsed.itemIndent) := .space (by decide) hindent
    have hlast : Gap (('\n' : CodePoint) :: parsed.block.indent) := .space (by decide) (gap_of_spaces hspace)
    have hbefore : EndGap before := endGap_of_indent h.isLast hspace
    refine ⟨true, fun form rest t others hforms =>
      ⟨_, _, _, hbefore.gap_line hindent, hseparator, hlast.endGap, ?_⟩⟩
    rw [renderFirst, if_pos (by simp)]
    dsimp only
    rw [length_lastLine hline, insertLines, List.take_left, List.drop_left,
      ← hforms, partsText_newParts_append _ _ (List.cons_ne_nil _ _)]
    rfl

/-- New items in a block without items are read back. -/
theorem Laid.readsBack_first {window : Text} (h : parsed.Laid text kind [] last)
    (hends : parsed.block.EndsAt window last) (hwindow : ∃ behind, window = last ++ behind)
    {news : List NewItem} (hnews : news ≠ []) (hall : ∀ new ∈ news, new.kind = kind ∧ new.WellNamed) :
    parsed.ReadsBack text kind news := by
  obtain ⟨trailingComma, hparts⟩ := exists_firstParts h hends hwindow
  obtain ⟨forms, hforms, hmap⟩ := NewItem.exists_forms text trailingComma h.itemIndent_space
    fun new hnew => (hall new hnew).2
  have hitems : parsed.items = [] := (Except.ok.inj h.items_eq).symm
  cases hforms with
  | nil => exact absurd rfl hnews
  | @cons new form news forms hform hforms =>
    obtain ⟨first, separator, last', hgap, hseparator, hlast', htext⟩ := hparts _ _ _ _ hmap
    have hrendered : parsed.renderBody (parsed.items.map fun item => item.source text)
        ((new :: news).map (NewItem.render parsed text)) =
          .ok (partsText ([] ++ newParts hgap hseparator (form :: forms)) ++ last') := by
      rw [renderBody, if_neg (by simp), if_neg (by simp), hitems, h.gaps_eq]
      exact congrArg _ htext
    refine h.readsBack hrendered (List.append_nil _).symm ?_ ?_ (fun text' offset =>
      exists_partItems_newParts hgap hseparator text' offset (.cons hform hforms)) hlast'
    · exact kind_newParts hgap hseparator (.cons hform hforms) fun new hnew => (hall new hnew).1
    · rw [hitems]
      exact fun text' => ⟨[], rfl, rfl⟩

/-! ## New items in a comment -/

theorem star_not_mem_render {parsed : ParsedBlock} : ('*' : CodePoint) ∉ parsed.quote.render [] := by
  cases parsed.quote <;> decide

theorem star_not_mem_renderKey {parsed : ParsedBlock} : ('*' : CodePoint) ∉ parsed.renderKey [] := by
  unfold renderKey
  split
  · exact star_not_mem_render
  · split
    · next quote _ => cases quote <;> decide
    · exact star_not_mem_render

/-- A record with one empty text. -/
def emptyRecord : List (Text × Text) := [(("a" : String), [])]

theorem star_not_mem_renderRecord {parsed : ParsedBlock} : ('*' : CodePoint) ∉ parsed.renderRecord emptyRecord := by
  unfold renderRecord renderMembers
  cases parsed.quote <;> decide

theorem star_not_mem_renderKeyedRecord {parsed : ParsedBlock} (text : Text)
    (hindent : ('*' : CodePoint) ∉ parsed.itemIndent) :
    ('*' : CodePoint) ∉ parsed.renderKeyedRecord text [] emptyRecord := by
  have hkey := @star_not_mem_renderKey parsed
  have hmember : ('*' : CodePoint) ∉ ("a" ++ ": " ++ parsed.quote.render [] : Text) := by
    cases parsed.quote <;> decide
  have hmembers : parsed.renderMembers emptyRecord = ["a" ++ ": " ++ parsed.quote.render []] := rfl
  unfold renderKeyedRecord
  rw [hmembers]
  dsimp only
  split_ifs
  · simp only [List.flatMap_singleton, List.mem_append, hkey, hindent, hmember, false_or, or_false]
    decide
  · simp only [Text.joinWith, List.mem_append, hkey, hmember, false_or, or_false]
    decide

/-- There are new items of every kind that close no comment. -/
theorem exists_starless (parsed : ParsedBlock) (text : Text) (kind : ItemKind)
    (hindent : ∀ c ∈ parsed.itemIndent, c.isSpace = true) :
    ∃ new : NewItem, new.kind = kind ∧ new.WellNamed ∧ ('*' : CodePoint) ∉ new.render parsed text := by
  have hempty : ∀ new : NewItem, new.fields = [] → new.WellNamed := by
    intro new hfields
    rw [NewItem.WellNamed, hfields]
    decide
  have hrecord : ∀ new : NewItem, new.fields = emptyRecord → new.WellNamed := by
    intro new hfields
    rw [NewItem.WellNamed, hfields]
    decide
  have hstar : ('*' : CodePoint) ∉ parsed.itemIndent := fun hmem => absurd (hindent _ hmem) (by decide)
  cases kind with
  | entry =>
    refine ⟨.entry [] [], rfl, hempty _ rfl, ?_⟩
    have hcolon : ('*' : CodePoint) ∉ (": " : Text) := by decide
    simp [NewItem.render, renderEntry, star_not_mem_renderKey, star_not_mem_render, hcolon]
  | record => exact ⟨.record emptyRecord, rfl, hrecord _ rfl, star_not_mem_renderRecord⟩
  | literal => exact ⟨.literal [], rfl, hempty _ rfl, star_not_mem_render⟩
  | keyedRecord =>
    exact ⟨.keyedRecord [] emptyRecord, rfl, hrecord _ rfl, star_not_mem_renderKeyedRecord text hstar⟩

/-- A new item in front of a line break inside a block comment is not read back. -/
theorem Laid.not_readsBack {init : List BlockPart} {part : BlockPart}
    (h : parsed.Laid text kind (init ++ [part]) last)
    (hopen : ¬ EndGap (last.takeWhile (· ≠ ('\n' : CodePoint)))) :
    ∃ new : NewItem, new.kind = kind ∧ new.WellNamed ∧ ¬ parsed.ReadsBack text kind [new] := by
  have hline : ('\n' : CodePoint) ∈ last := by
    by_contra hline
    refine hopen ?_
    rw [List.takeWhile_eq_self_iff.2 (forall_ne_line hline)]
    exact h.isLast
  obtain ⟨head, tail, rfl, hhead⟩ := exists_firstLine hline
  rw [hhead] at hopen
  obtain ⟨gap, note, hgap, hnote, rfl⟩ := h.isLast.exists_comment.resolve_left hopen
  obtain ⟨new, hkind, hnamed, hstar⟩ := exists_starless parsed text kind h.itemIndent_space
  refine ⟨new, hkind, hnamed, ?_⟩
  rintro ⟨body, after, hback⟩
  -- the last gap goes on through the new item
  obtain ⟨added, hadded, hlines⟩ : ∃ added : Text, ('*' : CodePoint) ∉ added ∧
      parsed.lines (gap ++ ('/' : CodePoint) :: '*' :: note ++ ('\n' : CodePoint) :: tail)
        (withCommas part.form.comma.isSome [new.render parsed text]) =
          gap ++ ('/' : CodePoint) :: '*' :: (note ++ ('\n' : CodePoint) :: (added ++ ('\n' : CodePoint) :: tail)) := by
    refine ⟨parsed.itemIndent ++ if part.form.comma.isSome then new.render parsed text ++ "," else
      new.render parsed text, ?_, ?_⟩
    · have hindent : ('*' : CodePoint) ∉ parsed.itemIndent := fun hmem =>
        absurd (h.itemIndent_space _ hmem) (by decide)
      have hcomma : ('*' : CodePoint) ∉ (("," : String) : Text) := by decide
      split_ifs <;> simp [hindent, hstar, hcomma]
    · rw [lines, if_pos (by simp), hhead, insertLines, List.take_left, List.drop_left, withCommas,
        List.flatMap_singleton]
      simp
      rfl
  have hlast := h.isLast
  rw [List.append_assoc] at hlast
  have hlast' := hlast.swallow hgap hnote hadded
  have hrendered := h.renderBody_eq (List.cons_ne_nil (new.render parsed text) [])
  rw [hlines] at hrendered
  cases hback.rendered.symm.trans hrendered
  obtain ⟨items, hitems, hcontents⟩ := h.exists_contents (parsed.block.replaceBody text (partsText
    (init ++ [part.withComma]) ++ (gap ++ ('/' : CodePoint) :: '*' :: (note ++ ('\n' : CodePoint) ::
      (added ++ ('\n' : CodePoint) :: tail)))))
  have hparses := h.parse_parts h.kind_withComma hlast' hitems
  cases hback.parses.symm.trans hparses
  have hlength : items.length = parsed.items.length := by
    rw [← List.length_map BlockItem.content, hcontents, List.length_map]
  have hnone := hback.added
  rw [← hlength, List.drop_length] at hnone
  cases hnone

/-! ## Located blocks -/

variable {anchors : List Text} {written : Text} {start stop : Nat} {block : BlockSpan}

theorem exists_laid (hlocate : BlockSpan.locate text anchors written start stop = .ok (some block))
    (hparse : parse text block kind = .ok (some parsed)) :
    ∃ parts last, parsed.Laid text kind parts last ∧
      ∃ window, parsed.block.EndsAt window (partsText parts ++ last) ∧
        ∃ behind, window = partsText parts ++ last ++ behind := by
  obtain ⟨rfl, layout, hkind, htext, hgaps, hitems⟩ := parse_eq_ok_iff.1 hparse
  obtain ⟨-, -, -, -, -, -, hindent, -⟩ := BlockSpan.locate_eq_ok_iff.1 hlocate
  obtain ⟨more, hwindow, hend, -, hends⟩ := BlockSpan.exists_behind hlocate
  have hstart := BlockSpan.bodyStart_le hlocate
  have hsplit : parsed.block.body text ++ text.drop parsed.block.bodyEnd = text.drop parsed.block.bodyStart :=
    Text.slice_append_drop (by omega)
  rw [List.length_take] at hstart
  rw [← htext, Layout.text] at hsplit hwindow hends
  rw [List.append_assoc] at hsplit
  exact ⟨layout.parts, layout.last, ⟨hkind, hsplit.symm, hgaps.symm, hitems, layout.isLast, by omega, hindent⟩,
    _, hends, _, hwindow⟩

/-- All new items for a located block are read back exactly if the block has no items or no block comment goes on
behind the first line break behind its last item. -/
theorem readsBack_iff (hlocate : BlockSpan.locate text anchors written start stop = .ok (some block))
    (hparse : parse text block kind = .ok (some parsed)) :
    (∀ news : List NewItem, news ≠ [] → (∀ new ∈ news, new.kind = kind ∧ new.WellNamed) →
      parsed.ReadsBack text kind news) ↔
      parsed.items = [] ∨ EndGap ((parsed.gaps.getLastD []).takeWhile (· ≠ ('\n' : CodePoint))) := by
  obtain ⟨parts, last, hlaid, window, hends, hwindow⟩ := exists_laid hlocate hparse
  rcases List.eq_nil_or_concat parts with rfl | ⟨init, part, hparts⟩
  · have hitems : parsed.items = [] := (Except.ok.inj hlaid.items_eq).symm
    exact iff_of_true (fun news => hlaid.readsBack_first hends hwindow) (.inl hitems)
  · rw [List.concat_eq_append] at hparts
    subst hparts
    obtain ⟨item, hitem, -⟩ := hlaid.exists_last
    have hitems : parsed.items ≠ [] := by
      intro hnil
      rw [hnil] at hitem
      cases hitem
    rw [hlaid.gaps_eq, List.getLastD_concat, or_iff_right hitems]
    constructor
    · intro hall
      by_contra hopen
      obtain ⟨new, hkind, hnamed, hnot⟩ := hlaid.not_readsBack hopen
      exact hnot (hall [new] (List.cons_ne_nil _ _) (List.forall_mem_singleton.2 ⟨hkind, hnamed⟩))
    · exact fun hfirst news => hlaid.readsBack_behind hfirst

/-- A file with a list of one literal, and a comment behind it. -/
def listText (comment : String) : Text := "ar: [\n  'x', " ++ comment ++ "\n]\n"

/-- The list. -/
def listBlock (comment : String) : ParsedBlock where
  block := ⟨0, 5, 14 + (comment : Text).length, [], ']'⟩
  items := [⟨8, 12, "  ", true, .literal ⟨9, 10, .single, "x"⟩⟩]
  gaps := ["\n  ", " " ++ comment ++ "\n"]

theorem readsBack_iff_note :
    BlockSpan.locate (listText "// one") [] "ar: [" 0 22 = .ok (some (listBlock "// one").block) ∧
      parse (listText "// one") (listBlock "// one").block .literal = .ok (some (listBlock "// one")) ∧
      ∀ news : List NewItem, news ≠ [] → (∀ new ∈ news, new.kind = .literal ∧ new.WellNamed) →
        (listBlock "// one").ReadsBack (listText "// one") .literal news := by
  have hlocate : BlockSpan.locate (listText "// one") [] "ar: [" 0 22 =
      .ok (some (listBlock "// one").block) := by decide +kernel
  have hparse : parse (listText "// one") (listBlock "// one").block .literal =
      .ok (some (listBlock "// one")) := by decide +kernel
  exact ⟨hlocate, hparse, (readsBack_iff hlocate hparse).2 (.inr (by unfold EndGap; decide +kernel))⟩

/-- Behind a comment that goes on in the next line, a new literal is put into the comment. -/
theorem not_readsBack_in_comment :
    BlockSpan.locate (listText "/* one\n  two */") [] "ar: [" 0 31 =
        .ok (some (listBlock "/* one\n  two */").block) ∧
      parse (listText "/* one\n  two */") (listBlock "/* one\n  two */").block .literal =
        .ok (some (listBlock "/* one\n  two */")) ∧
      ¬ (listBlock "/* one\n  two */").ReadsBack (listText "/* one\n  two */") .literal [.literal "y"] := by
  refine ⟨by decide +kernel, by decide +kernel, ?_⟩
  rintro ⟨body, after, hback⟩
  have hrendered : (listBlock "/* one\n  two */").renderBody ((listBlock "/* one\n  two */").items.map fun item =>
      item.source (listText "/* one\n  two */")) ["'y'"] =
        .ok ("\n  'x', /* one\n  'y',\n  two */\n" : Text) := by decide +kernel
  cases hback.rendered.symm.trans hrendered
  have hparses : parse (listText "/* one\n  'y',\n  two */") (listBlock "/* one\n  'y',\n  two */").block .literal =
      .ok (some (listBlock "/* one\n  'y',\n  two */")) := by decide +kernel
  cases hback.parses.symm.trans hparses
  have hnone : List.Forall₂ _ [NewItem.literal "y"] [] := hback.added
  cases hnone

end ParsedBlock

end Bilingual

import Bilingual.Block.Render
import Bilingual.Proofs.Block.Form
import Bilingual.Proofs.Step

set_option autoImplicit false

/-! # The layout of a block

A body that parses is laid out as gaps and items in turn (`Layout`), and every such body parses
(`ParsedBlock.parse_eq_ok_iff`). A layout says nothing about how the items are found, so that a body can be
put together piece by piece and be known to parse. -/

namespace Bilingual

open Recogniser ParsedBlock

/-! ## Items between gaps -/

namespace ItemForm

/-- The item that has this form at `offset` of a text. -/
def item (form : ItemForm) (text : Text) (offset : Nat) (content : ItemContent) : BlockItem where
  start := offset
  stop := offset + form.text.length
  indent := text.indentAt offset
  hasComma := form.comma.isSome
  content

/-- An item begins with a code point that begins no gap and no comma. -/
theorem exists_cons (form : ItemForm) : ∃ (c : CodePoint) (rest : Text), form.text = c :: rest ∧
    c.isSpace = false ∧ c ≠ '/' ∧ c ≠ ',' := by
  obtain ⟨key, value, comma, hcomma⟩ := form
  cases key with
  | none =>
    cases value with
    | literal quote body hbody =>
      exact ⟨quote.point, _, rfl, by cases quote <;> decide, by cases quote <;> decide,
        by cases quote <;> decide⟩
    | object body hbody => exact ⟨'{', _, rfl, by decide, by decide, by decide⟩
  | some key =>
    obtain ⟨raw, before, behind, hkey, hbefore, hbehind⟩ := key
    cases hkey with
    | @quoted quote body hbody =>
      exact ⟨quote.point, _, rfl, by cases quote <;> decide, by cases quote <;> decide,
        by cases quote <;> decide⟩
    | @bare c rest hc hrest =>
      refine ⟨c, _, rfl, CodePoint.isSpace_of_isIdentifierStart hc, ?_, ?_⟩
      · rintro rfl
        exact absurd hc (by decide)
      · rintro rfl
        exact absurd hc (by decide)

theorem text_length_pos (form : ItemForm) : 0 < form.text.length := by
  obtain ⟨c, rest, htext, -⟩ := form.exists_cons
  rw [htext]
  exact Nat.succ_pos _

/-- No gap is in front of an item. -/
theorem gapLength_text (form : ItemForm) (rest : Text) : gapLength 0 (form.text ++ rest) = 0 := by
  obtain ⟨c, more, htext, hspace, hslash, -⟩ := form.exists_cons
  rw [htext, List.cons_append]
  refine gapLength_cons_eq_zero_iff.2 ⟨hspace, ?_, fun hopen => absurd hopen ?_⟩
  · simp [Comment.startsLine, hslash]
  · simp [Comment.startsBlock, hslash]

end ItemForm

theorem noComma_cons {c : CodePoint} {rest : Text} (hblank : c.isBlank = false) (hcomma : c ≠ ',') :
    NoComma (c :: rest) := by
  rw [NoComma, List.dropWhile_cons_of_neg (by simp [hblank])]
  intro h
  exact hcomma (Option.some.inj h)

theorem CodePoint.isBlank_of_isSpace_eq_false {c : CodePoint} (h : c.isSpace = false) :
    c.isBlank = false := by
  cases hblank : c.isBlank with
  | false => rfl
  | true =>
    rw [isBlank, Bool.or_eq_true, beq_iff_eq, beq_iff_eq] at hblank
    rcases hblank with rfl | rfl <;> exact absurd h (by decide)

theorem ItemForm.noComma (form : ItemForm) (rest : Text) : NoComma (form.text ++ rest) := by
  obtain ⟨c, more, htext, hspace, -, hcomma⟩ := form.exists_cons
  rw [htext]
  exact noComma_cons (CodePoint.isBlank_of_isSpace_eq_false hspace) hcomma

theorem Gap.noComma {gap rest : Text} (h : Gap gap) (hrest : NoComma rest) : NoComma (gap ++ rest) := by
  induction h with
  | nil => exact hrest
  | @space c gap hc _ ih =>
    cases hblank : c.isBlank with
    | true =>
      rw [NoComma, List.cons_append, List.dropWhile_cons_of_pos hblank]
      exact ih
    | false =>
      refine noComma_cons hblank ?_
      rintro rfl
      exact absurd hc (by decide)
  | line => exact noComma_cons (by decide) (by decide)
  | block => exact noComma_cons (by decide) (by decide)

theorem EndGap.noComma {gap : Text} (h : EndGap gap) : NoComma gap := by
  rcases h.gap_or_note with hgap | ⟨gap, note, hgap, -, rfl⟩
  · have hnil : NoComma (gap ++ []) := hgap.noComma (by simp [NoComma])
    rwa [List.append_nil] at hnil
  · exact hgap.noComma (noComma_cons (by decide) (by decide))

/-! ## Layouts -/

/-- A gap and the item behind it. -/
structure BlockPart where
  gap : Text
  form : ItemForm
  isGap : Gap gap

/-- The text of a gap and the item behind it. -/
def BlockPart.text (part : BlockPart) : Text := part.gap ++ part.form.text

/-- The text of gaps and items in turn. -/
def partsText (parts : List BlockPart) : Text := parts.flatMap BlockPart.text

/-- The items of gaps and items in turn from an offset of a text on. -/
def partItems (text : Text) : Nat → List BlockPart → Except Failure (List BlockItem)
  | _, [] => .ok []
  | offset, part :: rest => do
    let start := offset + part.gap.length
    let content ← part.form.content start
    return part.form.item text start content :: (← partItems text (start + part.form.text.length) rest)

theorem partsText_append (parts others : List BlockPart) :
    partsText (parts ++ others) = partsText parts ++ partsText others := List.flatMap_append

theorem partsText_cons (part : BlockPart) (rest : List BlockPart) :
    partsText (part :: rest) = part.gap ++ (part.form.text ++ partsText rest) := by
  rw [partsText, List.flatMap_cons, BlockPart.text, List.append_assoc]
  rfl

/-- Behind the first gap stands the first item, and behind that the other parts. -/
theorem drop_partsText {text behind : Text} {offset : Nat} {part : BlockPart} {rest : List BlockPart}
    (h : text.drop offset = partsText (part :: rest) ++ behind) :
    text.drop (offset + part.gap.length) = part.form.text ++ (partsText rest ++ behind) ∧
      text.drop (offset + part.gap.length + part.form.text.length) = partsText rest ++ behind := by
  rw [partsText_cons, List.append_assoc, List.append_assoc] at h
  have hform : text.drop (offset + part.gap.length) = part.form.text ++ (partsText rest ++ behind) := by
    rw [← List.drop_drop, h, List.drop_left]
  exact ⟨hform, by rw [← List.drop_drop, hform, List.drop_left]⟩

theorem partItems_cons_eq_ok_iff {text : Text} {offset : Nat} {part : BlockPart} {rest : List BlockPart}
    {items : List BlockItem} : partItems text offset (part :: rest) = .ok items ↔
      ∃ content others, part.form.content (offset + part.gap.length) = .ok content ∧
        partItems text (offset + part.gap.length + part.form.text.length) rest = .ok others ∧
        items = part.form.item text (offset + part.gap.length) content :: others := by
  rw [partItems, Except.bind_eq_ok_iff]
  constructor
  · rintro ⟨content, hcontent, h⟩
    obtain ⟨others, hothers, h⟩ := Except.bind_eq_ok_iff.1 h
    exact ⟨content, others, hcontent, hothers, (Except.ok.inj h).symm⟩
  · rintro ⟨content, others, hcontent, hothers, rfl⟩
    exact ⟨content, hcontent, Except.bind_eq_ok_iff.2 ⟨others, hothers, rfl⟩⟩

theorem partItems_append_eq_ok_iff {text : Text} {offset : Nat} {parts others : List BlockPart}
    {items : List BlockItem} : partItems text offset (parts ++ others) = .ok items ↔
      ∃ first second, partItems text offset parts = .ok first ∧
        partItems text (offset + (partsText parts).length) others = .ok second ∧ items = first ++ second := by
  induction parts generalizing offset items with
  | nil => simp [partItems, partsText]
  | cons part parts ih =>
    have hlength : offset + (partsText (part :: parts)).length =
        offset + part.gap.length + part.form.text.length + (partsText parts).length := by
      rw [partsText_cons, List.length_append, List.length_append]
      omega
    rw [List.cons_append, partItems_cons_eq_ok_iff, hlength]
    constructor
    · rintro ⟨content, rest, hcontent, hrest, rfl⟩
      obtain ⟨first, second, hfirst, hsecond, rfl⟩ := ih.1 hrest
      exact ⟨_, second, partItems_cons_eq_ok_iff.2 ⟨content, first, hcontent, hfirst, rfl⟩, hsecond, rfl⟩
    · rintro ⟨first, second, hfirst, hsecond, rfl⟩
      obtain ⟨content, rest, hcontent, hrest, rfl⟩ := partItems_cons_eq_ok_iff.1 hfirst
      exact ⟨content, rest ++ second, hcontent, ih.2 ⟨rest, second, hrest, hsecond, rfl⟩, rfl⟩

/-- There is an item for every part. -/
theorem length_of_partItems {text : Text} {offset : Nat} {parts : List BlockPart} {items : List BlockItem}
    (h : partItems text offset parts = .ok items) : items.length = parts.length := by
  induction parts generalizing offset items with
  | nil =>
    cases h
    rfl
  | cons part parts ih =>
    obtain ⟨content, others, -, hothers, rfl⟩ := partItems_cons_eq_ok_iff.1 h
    rw [List.length_cons, List.length_cons, ih hothers]

/-! ## Rendering -/

theorem interleave_append {gaps items : List Text} (h : gaps.length = items.length) (more : List Text) :
    interleave (gaps ++ more) items = interleave gaps items ++ more.flatten := by
  induction gaps generalizing items with
  | nil =>
    cases items with
    | nil => cases more <;> rfl
    | cons item items => cases h
  | cons gap gaps ih =>
    cases items with
    | nil => cases h
    | cons item items =>
      rw [List.cons_append, interleave, interleave, ih (Nat.succ.inj h)]
      simp only [List.append_assoc]

theorem interleave_parts (parts : List BlockPart) :
    interleave (parts.map BlockPart.gap) (parts.map fun part => part.form.text) = partsText parts := by
  induction parts with
  | nil => rfl
  | cons part parts ih =>
    rw [List.map_cons, List.map_cons, interleave, ih, partsText_cons, List.append_assoc]

/-- The sources of the items are what the parts are written as. -/
theorem sources_of_partItems {text behind : Text} {offset : Nat} {parts : List BlockPart}
    {items : List BlockItem} (h : partItems text offset parts = .ok items)
    (htext : text.drop offset = partsText parts ++ behind) :
    items.map (fun item => item.source text) = parts.map fun part => part.form.text := by
  induction parts generalizing offset items with
  | nil =>
    cases h
    rfl
  | cons part parts ih =>
    obtain ⟨content, others, -, hothers, rfl⟩ := partItems_cons_eq_ok_iff.1 h
    obtain ⟨hform, hrest⟩ := drop_partsText htext
    rw [List.map_cons, List.map_cons, ih hothers hrest]
    refine congrArg (· :: _) ?_
    show text.slice _ _ = _
    rw [Text.slice, ItemForm.item, List.drop_take, Nat.add_sub_cancel_left, hform, List.take_left]

/-- What items hold does not depend on the text around them. -/
theorem partItems_contents {text : Text} (text' : Text) {offset : Nat} {parts : List BlockPart}
    {items : List BlockItem} (h : partItems text offset parts = .ok items) :
    ∃ items', partItems text' offset parts = .ok items' ∧
      items'.map BlockItem.content = items.map BlockItem.content := by
  induction parts generalizing offset items with
  | nil =>
    cases h
    exact ⟨[], rfl, rfl⟩
  | cons part parts ih =>
    obtain ⟨content, others, hcontent, hothers, rfl⟩ := partItems_cons_eq_ok_iff.1 h
    obtain ⟨others', hothers', hmap⟩ := ih hothers
    exact ⟨_, partItems_cons_eq_ok_iff.2 ⟨content, others', hcontent, hothers', rfl⟩, congrArg (_ :: ·) hmap⟩

/-- An item is indented as its line is, and its span lies within the parts. -/
theorem of_mem_partItems {text : Text} {offset : Nat} {parts : List BlockPart} {items : List BlockItem}
    (h : partItems text offset parts = .ok items) {item : BlockItem} (hitem : item ∈ items) :
    item.indent = text.indentAt item.start ∧ item.start ≤ item.stop ∧
      item.stop ≤ offset + (partsText parts).length := by
  induction parts generalizing offset items with
  | nil =>
    cases h
    cases hitem
  | cons part parts ih =>
    obtain ⟨content, others, -, hothers, rfl⟩ := partItems_cons_eq_ok_iff.1 h
    rw [partsText_cons, List.length_append, List.length_append]
    rcases List.mem_cons.1 hitem with rfl | hitem
    · refine ⟨rfl, Nat.le_add_right _ _, ?_⟩
      show offset + part.gap.length + part.form.text.length ≤ _
      omega
    · obtain ⟨hindent, hspan, hstop⟩ := ih hothers hitem
      exact ⟨hindent, hspan, by omega⟩

/-- How a body is written: gaps and items in turn, and the gap at the end. -/
structure Layout where
  parts : List BlockPart
  last : Text
  isLast : EndGap last

namespace Layout

/-- The body that is laid out. -/
def text (layout : Layout) : Text := partsText layout.parts ++ layout.last

/-- The gaps in front of, between and behind the items. -/
def gaps (layout : Layout) : List Text := layout.parts.map BlockPart.gap ++ [layout.last]

/-- The items are of one kind. -/
def HasKind (layout : Layout) (kind : ItemKind) : Prop := ∀ part ∈ layout.parts, part.form.kind = kind

/-- A comma in front of a body would not be its own. -/
theorem noComma (layout : Layout) : NoComma layout.text := by
  obtain ⟨parts, last, hlast⟩ := layout
  cases parts with
  | nil => exact hlast.noComma
  | cons part rest =>
    have hbehind : NoComma (part.form.text ++ (partsText rest ++ last)) := part.form.noComma _
    have hgap := part.isGap.noComma hbehind
    simpa only [text, partsText, List.flatMap_cons, BlockPart.text, List.append_assoc] using hgap

end Layout

/-! ## Parsing -/

namespace ParsedBlock

variable {text : Text} {kind : ItemKind}

theorem itemAt?_eq (form : ItemForm) {cursor : Cursor} {rest : Text} (h : cursor.rest = form.text ++ rest)
    (hrest : form.comma = none → NoComma rest) :
    itemAt? text form.kind cursor = (form.content cursor.offset).map fun content =>
      some (form.item text cursor.offset content, cursor.advance form.text.length) := by
  rw [itemAt?, form.first?_item h hrest]
  have hoffset := Cursor.offset_advance_append h
  cases form.content cursor.offset with
  | error e => rfl
  | ok content =>
    dsimp only [bind, Except.bind, Except.map, pure, Except.pure]
    rw [hoffset]
    rfl

theorem exists_of_itemAt? {cursor behind : Cursor} {item : BlockItem}
    (h : itemAt? text kind cursor = .ok (some (item, behind))) :
    ∃ (form : ItemForm) (rest : Text), form.kind = kind ∧ cursor.rest = form.text ++ rest ∧
      (form.comma = none → NoComma rest) := by
  rw [itemAt?] at h
  split at h
  · cases h
  · next hfirst => exact exists_of_first?_item hfirst

theorem partsFrom_last {fuel : Nat} {cursor : Cursor} (h : EndGap cursor.rest) :
    partsFrom text kind fuel cursor = .ok (some ([], [cursor.rest])) := by
  have htake : cursor.rest.take (gapLength 0 cursor.rest) = cursor.rest := by rw [h, List.take_length]
  have hempty : (cursor.advance cursor.rest.length).rest.isEmpty = true := by
    rw [Cursor.rest_advance, List.drop_length]
    rfl
  rw [partsFrom.eq_def]
  dsimp only
  rw [htake, if_pos hempty]
  rfl

theorem partsFrom_item {fuel : Nat} {cursor : Cursor} {gap rest : Text} {form : ItemForm}
    (hgap : Gap gap) (h : cursor.rest = gap ++ (form.text ++ rest))
    (hrest : form.comma = none → NoComma rest) :
    partsFrom text form.kind (fuel + 1) cursor = (do
      let content ← form.content (cursor.offset + gap.length)
      let parts ← partsFrom text form.kind fuel (cursor.advance (gap.length + form.text.length))
      return parts.map fun (items, gaps) =>
        (form.item text (cursor.offset + gap.length) content :: items, gap :: gaps)) := by
  have hlength : gapLength 0 cursor.rest = gap.length := by
    rw [h, hgap.length_append, form.gapLength_text, Nat.add_zero]
  have htake : cursor.rest.take (gapLength 0 cursor.rest) = gap := by rw [hlength, h, List.take_left]
  have hbehind := Cursor.rest_advance_append h
  have hoffset := Cursor.offset_advance_append h
  have hnonempty : ¬ (cursor.advance gap.length).rest.isEmpty = true := by
    obtain ⟨c, more, htext, -⟩ := form.exists_cons
    rw [hbehind, htext]
    exact Bool.false_ne_true
  rw [partsFrom.eq_def]
  dsimp only
  rw [htake, if_neg hnonempty, itemAt?_eq form hbehind hrest, hoffset, Cursor.advance_add]
  cases form.content (cursor.offset + gap.length) with
  | error e => rfl
  | ok content =>
    dsimp only [Except.map, bind, Except.bind]
    cases partsFrom text form.kind fuel ((cursor.advance gap.length).advance form.text.length) with
    | error e => rfl
    | ok parts => cases parts <;> rfl

/-- What does not parse as an item ends the parsing. -/
theorem exists_item_of_partsFrom {fuel : Nat} {cursor : Cursor} {parts : List BlockItem × List Text}
    (h : partsFrom text kind fuel cursor = .ok (some parts)) (hgap : ¬ EndGap cursor.rest) :
    ∃ (gap rest : Text) (form : ItemForm) (less : Nat), fuel = less + 1 ∧ Gap gap ∧ form.kind = kind ∧
      cursor.rest = gap ++ (form.text ++ rest) ∧ (form.comma = none → NoComma rest) := by
  have hlt : gapLength 0 cursor.rest < cursor.rest.length :=
    Nat.lt_of_le_of_ne (gapLength_le _ _) hgap
  obtain ⟨gap, c, behind, hrest, hgap, hzero⟩ := exists_gap_of_lt hlt
  have hlength : gapLength 0 cursor.rest = gap.length := by
    rw [hrest, hgap.length_append, hzero, Nat.add_zero]
  have htake : cursor.rest.take (gapLength 0 cursor.rest) = gap := by
    rw [hlength, hrest, List.take_left]
  have hbehind := Cursor.rest_advance_append hrest
  have hnonempty : ¬ (cursor.advance gap.length).rest.isEmpty = true := by
    rw [hbehind]
    exact Bool.false_ne_true
  rw [partsFrom.eq_def] at h
  dsimp only at h
  rw [htake, if_neg hnonempty] at h
  cases fuel with
  | zero => cases h
  | succ less =>
    obtain ⟨found, hfound, h⟩ := Except.bind_eq_ok_iff.1 h
    cases found with
    | none => cases h
    | some found =>
      obtain ⟨form, rest, hkind, hform, hcomma⟩ := exists_of_itemAt? hfound
      exact ⟨gap, rest, form, less, rfl, hgap, hkind, by rw [hrest, ← hbehind, hform], hcomma⟩

/-- Behind a gap and an item, the cursor is where the rest of the layout begins. -/
theorem advance_item {cursor : Cursor} {gap rest : Text} {form : ItemForm}
    (h : cursor.rest = gap ++ (form.text ++ rest)) :
    (cursor.advance (gap.length + form.text.length)).rest = rest ∧
      (cursor.advance (gap.length + form.text.length)).offset =
        cursor.offset + gap.length + form.text.length := by
  have hform := Cursor.rest_advance_append h
  rw [Cursor.advance_add]
  refine ⟨Cursor.rest_advance_append hform, ?_⟩
  rw [Cursor.offset_advance_append hform, Cursor.offset_advance_append h]

theorem exists_layout_of_partsFrom {fuel : Nat} {cursor : Cursor} {items : List BlockItem}
    {gaps : List Text} (h : partsFrom text kind fuel cursor = .ok (some (items, gaps))) :
    ∃ layout : Layout, layout.HasKind kind ∧ layout.text = cursor.rest ∧ layout.gaps = gaps ∧
      partItems text cursor.offset layout.parts = .ok items := by
  induction fuel using Nat.strong_induction_on generalizing cursor items gaps with
  | _ fuel ih =>
    by_cases hgap : EndGap cursor.rest
    · rw [partsFrom_last hgap] at h
      cases h
      exact ⟨⟨[], cursor.rest, hgap⟩, List.forall_mem_nil _, rfl, rfl, rfl⟩
    · obtain ⟨gap, rest, form, less, rfl, hgap, rfl, hrest, hcomma⟩ := exists_item_of_partsFrom h hgap
      obtain ⟨hbehind, hoffset⟩ := advance_item hrest
      rw [partsFrom_item hgap hrest hcomma] at h
      obtain ⟨content, hcontent, h⟩ := Except.bind_eq_ok_iff.1 h
      obtain ⟨parts, hparts, h⟩ := Except.bind_eq_ok_iff.1 h
      obtain ⟨⟨items, gaps⟩, rfl, heq⟩ := Option.map_eq_some_iff.1 (Except.ok.inj h)
      cases heq
      obtain ⟨⟨parts, last, hlast⟩, hkind, htext, rfl, hitems⟩ := ih less (Nat.lt_succ_self _) hparts
      rw [hoffset] at hitems
      refine ⟨⟨⟨gap, form, hgap⟩ :: parts, last, hlast⟩, List.forall_mem_cons.2 ⟨rfl, hkind⟩, ?_, rfl, ?_⟩
      · rw [hrest, ← hbehind, ← htext]
        simp only [Layout.text, partsText, List.flatMap_cons, BlockPart.text, List.append_assoc]
      · exact Except.bind_eq_ok_iff.2 ⟨content, hcontent, Except.bind_eq_ok_iff.2 ⟨_, hitems, rfl⟩⟩

theorem partsFrom_of_layout (layout : Layout) (hkind : layout.HasKind kind) {fuel : Nat} {cursor : Cursor}
    {items : List BlockItem} (hrest : cursor.rest = layout.text) (hfuel : layout.text.length ≤ fuel)
    (hitems : partItems text cursor.offset layout.parts = .ok items) :
    partsFrom text kind fuel cursor = .ok (some (items, layout.gaps)) := by
  obtain ⟨parts, last, hlast⟩ := layout
  induction parts generalizing fuel cursor items with
  | nil =>
    cases hitems
    have hlast' : cursor.rest = last := hrest
    subst hlast'
    exact partsFrom_last hlast
  | cons part parts ih =>
    obtain ⟨content, hcontent, h⟩ := Except.bind_eq_ok_iff.1 hitems
    obtain ⟨others, hothers, h⟩ := Except.bind_eq_ok_iff.1 h
    cases h
    obtain ⟨rfl, hkind⟩ := List.forall_mem_cons.1 hkind
    have hbody : cursor.rest = part.gap ++ (part.form.text ++ Layout.text ⟨parts, last, hlast⟩) := by
      rw [hrest]
      simp only [Layout.text, partsText, List.flatMap_cons, BlockPart.text, List.append_assoc]
    rw [← hrest, hbody, List.length_append, List.length_append] at hfuel
    have hpos := part.form.text_length_pos
    obtain ⟨less, rfl⟩ : ∃ less, fuel = less + 1 := ⟨fuel - 1, by omega⟩
    obtain ⟨hbehind, hoffset⟩ := advance_item hbody
    rw [← hoffset] at hothers
    rw [partsFrom_item part.isGap hbody fun _ => Layout.noComma _, hcontent,
      ih hkind hbehind (by omega) hothers]
    rfl

/-- A block parses exactly when its body is laid out as items and gaps. -/
theorem parse_eq_ok_iff {block : BlockSpan} {parsed : ParsedBlock} :
    parse text block kind = .ok (some parsed) ↔ parsed.block = block ∧
      ∃ layout : Layout, layout.HasKind kind ∧ layout.text = block.body text ∧
        layout.gaps = parsed.gaps ∧ partItems text block.bodyStart layout.parts = .ok parsed.items := by
  rw [parse]
  constructor
  · intro h
    obtain ⟨parts, hparts, h⟩ := Except.bind_eq_ok_iff.1 h
    cases parts with
    | none => cases h
    | some parts =>
      cases h
      exact ⟨rfl, exists_layout_of_partsFrom hparts⟩
  · rintro ⟨rfl, layout, hkind, htext, hgaps, hitems⟩
    have hparts : partsFrom text kind (parsed.block.body text).length
        (Cursor.ofWindow text parsed.block.bodyStart parsed.block.bodyEnd) = _ :=
      partsFrom_of_layout layout hkind htext.symm (Nat.le_of_eq (congrArg List.length htext)) hitems
    rw [hgaps] at hparts
    exact Except.bind_eq_ok_iff.2 ⟨_, hparts, rfl⟩

end ParsedBlock

end Bilingual

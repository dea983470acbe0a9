import Bilingual.Proofs.Block.Literals
import Bilingual.Proofs.Body

set_option autoImplicit false

/-! # Parsed blocks are cut into pieces

A block that parses is cut into gaps and items (`ParsedBlock.Cut`): each piece begins where the one before ends, so
that nothing of the body is lost and writing the pieces behind one another gives it back. What the gaps may hold and
where the literals of the items stand is told of each piece (`ParsedBlock.Partition`). -/

namespace Bilingual.ParsedBlock

variable {text : Text} {start stop : Nat} {gaps : List Text} {items : List BlockItem}

/-! ## Cuts -/

/-- From one offset of a text to another there are gaps and items in turn, beginning and ending with a gap. Each begins
where the one before ends, and no item is empty. -/
inductive Cut (text : Text) : Nat → Nat → List Text → List BlockItem → Prop
  | last {start stop : Nat} {gap : Text} (hle : start ≤ stop) (hgap : gap = text.slice start stop) :
      Cut text start stop [gap] []
  | item {start stop : Nat} {gap : Text} {gaps : List Text} {item : BlockItem} {items : List BlockItem}
      (hle : start ≤ item.start) (hgap : gap = text.slice start item.start) (hlt : item.start < item.stop)
      (hrest : Cut text item.stop stop gaps items) : Cut text start stop (gap :: gaps) (item :: items)

theorem Cut.length_gaps (h : Cut text start stop gaps items) : gaps.length = items.length + 1 := by
  induction h with
  | last => rfl
  | item _ _ _ _ ih => rw [List.length_cons, List.length_cons, ih]

theorem Cut.le (h : Cut text start stop gaps items) : start ≤ stop := by
  induction h with
  | last hle => exact hle
  | item hle _ hlt _ ih => omega

theorem Cut.within (h : Cut text start stop gaps items) :
    ∀ item ∈ items, start ≤ item.start ∧ item.start < item.stop ∧ item.stop ≤ stop := by
  induction h with
  | last => exact List.forall_mem_nil _
  | item hle _ hlt hrest ih =>
    refine List.forall_mem_cons.2 ⟨⟨hle, hlt, hrest.le⟩, fun other hother => ?_⟩
    obtain ⟨hstart, hlt', hstop⟩ := ih other hother
    exact ⟨by omega, hlt', hstop⟩

theorem Cut.ordered (h : Cut text start stop gaps items) :
    items.Pairwise fun first second => first.stop ≤ second.start := by
  induction h with
  | last => exact List.Pairwise.nil
  | item _ _ _ hrest ih => exact List.pairwise_cons.2 ⟨fun other hother => (hrest.within other hother).1, ih⟩

/-- The pieces of a text, one behind the other, are that text. -/
theorem Cut.interleave_eq (h : Cut text start stop gaps items) :
    interleave gaps (items.map fun item => item.source text) = text.slice start stop := by
  induction h with
  | last _ hgap => rw [hgap]; exact List.append_nil _
  | item hle hgap hlt hrest ih =>
    have hstop := hrest.le
    rw [List.map_cons, interleave, ih, hgap, BlockItem.source, Edit.slice_append_slice hle (by omega),
      Edit.slice_append_slice (by omega) hstop]

/-- Gaps and items that stand in a text one behind the other are cut from it. -/
theorem cut_of_partItems {offset : Nat} {parts : List BlockPart} {last behind : Text}
    (h : partItems text offset parts = .ok items) (htext : text.drop offset = partsText parts ++ (last ++ behind)) :
    Cut text offset (offset + (partsText parts ++ last).length) (parts.map BlockPart.gap ++ [last]) items := by
  induction parts generalizing offset items with
  | nil =>
    cases h
    have hlast : text.slice offset (offset + last.length) = last := Text.slice_of_drop htext
    exact .last (Nat.le_add_right _ _) hlast.symm
  | cons part parts ih =>
    obtain ⟨content, others, -, hothers, rfl⟩ := partItems_cons_eq_ok_iff.1 h
    obtain ⟨-, hrest⟩ := drop_partsText htext
    rw [partsText_cons, List.append_assoc] at htext
    have hlength : offset + (partsText (part :: parts) ++ last).length =
        offset + part.gap.length + part.form.text.length + (partsText parts ++ last).length := by
      rw [partsText_cons]
      simp only [List.length_append]
      omega
    rw [hlength]
    exact .item (Nat.le_add_right _ _) (Text.slice_of_drop htext).symm
      (Nat.lt_add_of_pos_right part.form.text_length_pos) (ih hothers hrest)

/-! ## Parsed blocks -/

/-- A parsed block is its body, cut into pieces. The gaps are whitespace and closed comments; a line comment without a
line break may end the last one. The literals of an item stand in it, in order, each between two of its quotes, with no
line break and no unescaped quote inside. -/
structure Partition (parsed : ParsedBlock) (text : Text) : Prop where
  cut : Cut text parsed.block.bodyStart (parsed.block.bodyStart + (parsed.block.body text).length) parsed.gaps
    parsed.items
  length_gaps : parsed.gaps.length = parsed.items.length + 1
  interleave_eq :
    interleave parsed.gaps (parsed.items.map fun item => item.source text) = parsed.block.body text
  renderBody_eq :
    parsed.renderBody (parsed.items.map fun item => item.source text) [] = .ok (parsed.block.body text)
  within : ∀ item ∈ parsed.items,
    parsed.block.bodyStart ≤ item.start ∧ item.start < item.stop ∧ item.stop ≤ parsed.block.bodyEnd
  ordered : parsed.items.Pairwise fun first second => first.stop ≤ second.start
  gaps : ∃ inner last, parsed.gaps = inner ++ [last] ∧ (∀ gap ∈ inner, Gap gap) ∧
    (Gap last ∨ ∃ gap note : Text, Gap gap ∧ ('\n' : CodePoint) ∉ note ∧
      last = gap ++ ('/' : CodePoint) :: ('/' : CodePoint) :: note)
  literals : ∀ item ∈ parsed.items, LiteralsIn text item.start item.stop item.content.literals
  closed : ∀ item ∈ parsed.items, ∀ l ∈ item.content.literals,
    ('\n' : CodePoint) ∉ l.raw ∧ Literal.closing? text l.quote.point l.start = some l.stop

variable {block : BlockSpan} {kind : ItemKind} {parsed : ParsedBlock}

theorem renderBody_nil {sources : List Text} (h : sources.length = parsed.items.length) :
    parsed.renderBody sources [] = .ok (interleave parsed.gaps sources) := by
  rw [renderBody, if_neg (Decidable.not_not.2 h)]
  rfl

/-- Whatever the items are, a block that parses is cut into pieces that are its body, one behind the other. -/
theorem partition_of_parse (h : parse text block kind = .ok (some parsed)) :
    parsed.block = block ∧ parsed.Partition text := by
  obtain ⟨rfl, layout, -, hlayout, hgaps, hitems⟩ := parse_eq_ok_iff.1 h
  refine ⟨rfl, ?_⟩
  obtain ⟨behind, hdrop⟩ := text.slice_prefix parsed.block.bodyStart parsed.block.bodyEnd
  have hbody : text.slice parsed.block.bodyStart parsed.block.bodyEnd = layout.text := hlayout.symm
  rw [hbody] at hdrop
  have hparts : text.drop parsed.block.bodyStart = partsText layout.parts ++ (layout.last ++ behind) := by
    rw [← List.append_assoc]
    exact hdrop.symm
  have hcut : Cut text parsed.block.bodyStart (parsed.block.bodyStart + layout.text.length) parsed.gaps parsed.items :=
    hgaps ▸ cut_of_partItems hitems hparts
  have hpieces : interleave parsed.gaps (parsed.items.map fun item => item.source text) = parsed.block.body text :=
    (hcut.interleave_eq.trans (Text.slice_of_drop hdrop.symm)).trans hlayout
  have hliterals := literalsIn_of_mem_partItems hitems hparts
  exact {
    cut := hlayout ▸ hcut
    length_gaps := hcut.length_gaps
    interleave_eq := hpieces
    renderBody_eq := (renderBody_nil (List.length_map _)).trans (congrArg Except.ok hpieces)
    within := fun item hitem => by
      obtain ⟨hstart, hlt, hstop⟩ := hcut.within item hitem
      rw [← hbody, Text.slice, List.length_drop, List.length_take] at hstop
      omega
    ordered := hcut.ordered
    gaps := ⟨layout.parts.map BlockPart.gap, layout.last, hgaps.symm,
      List.forall_mem_map.2 fun part _ => part.isGap, layout.isLast.gap_or_note⟩
    literals := hliterals
    closed := fun item hitem l hl => by
      have hinside := (hliterals item hitem).inside l hl
      exact ⟨hinside.enclosed.not_mem_line, hinside.in.body⟩ }

/-- A block of two records with a comment of each kind between them. -/
def recordsText : Text := "ar: \x7b\n  a: \x7b x: 'p', y: \"q\" \x7d, // one\n  /* two */ 'b': \x7b z: 'it\\'s' \x7d\n\x7d\n"

def recordsParsed : ParsedBlock where
  block := ⟨0, 5, 70, [], '}'⟩
  items := [
    ⟨8, 30, "  ", true, .keyedRecord ⟨"a", "a"⟩ [
      ⟨"x", "'p'", some ⟨17, 18, .single, "p"⟩⟩, ⟨"y", "\"q\"", some ⟨25, 26, .double, "q"⟩⟩]⟩,
    ⟨50, 69, "  ", false, .keyedRecord ⟨"'b'", "b"⟩ [⟨"z", "'it\\'s'", some ⟨61, 66, .single, "it\\'s"⟩⟩]⟩]
  gaps := ["\n  ", " // one\n  /* two */ ", "\n"]

/-- The comma of the first record is its own, and the comments are in the gap between the two. -/
theorem partition_recordsParsed :
    BlockSpan.locate recordsText [] "ar: \x7b" 0 72 = .ok (some recordsParsed.block) ∧
      parse recordsText recordsParsed.block .keyedRecord = .ok (some recordsParsed) ∧
      recordsParsed.Partition recordsText := by
  have hparse : parse recordsText recordsParsed.block .keyedRecord = .ok (some recordsParsed) := by decide +kernel
  exact ⟨by decide +kernel, hparse, (partition_of_parse hparse).2⟩

end Bilingual.ParsedBlock

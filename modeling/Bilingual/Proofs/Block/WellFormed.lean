import Bilingual.Proofs.Block.Opener
import Bilingual.Proofs.Block.ScanOptions

set_option autoImplicit false

/-! # Located blocks are well formed

The anchors of a located block stand one behind the other in front of its opener, each at the first place behind the one
before (`Text.Successive`). The opener ends with a bracket, and the body is what stands between that and the closing one
(`BlockSpan.WellFormed`). The body is no longer than it has to be: it ends at the matching bracket, on its first line, or
in front of the closing bracket on the first line behind it that begins with that and the indentation of the opener
(`BlockSpan.Ends`). -/

namespace Bilingual

namespace Text

/-! ## First places -/

theorem cons_prefix_drop_iff {t needle : Text} {c : CodePoint} {offset : Nat} :
    c :: needle <+: t.drop offset ↔ t[offset]? = some c ∧ needle <+: t.drop (offset + 1) := by
  constructor
  · rintro ⟨behind, h⟩
    have hc : t[offset]? = some c := by rw [← Nat.add_zero offset, ← List.getElem?_drop, ← h]; rfl
    rw [Bracket.drop_of_getElem? hc] at h
    exact ⟨hc, behind, (List.cons.inj h).2⟩
  · rintro ⟨hc, hstarts⟩
    rw [Bracket.drop_of_getElem? hc]
    exact List.cons_prefix_cons.2 ⟨rfl, hstarts⟩

/-- The first place of a text from `start` on where another one stands. -/
structure FirstAt (t needle : Text) (start found : Nat) : Prop where
  start_le : start ≤ found
  stands : needle <+: t.drop found
  first : ∀ offset, start ≤ offset → offset < found → ¬ needle <+: t.drop offset

/-- Texts that stand one behind the other from an offset on, each at the first place behind the one before, and the
offset behind the last one. -/
inductive Successive (t : Text) : Nat → List Text → Nat → Prop
  | nil {start : Nat} : Successive t start [] start
  | cons {needle : Text} {needles : List Text} {start found behind : Nat} (hfirst : t.FirstAt needle start found)
      (hrest : Successive t (found + needle.length) needles behind) : Successive t start (needle :: needles) behind

variable {t needle : Text} {start stop found behind : Nat}

theorem firstAt_of_indexOf? {n : Nat} (h : indexOf? needle (t.drop start) = some n) :
    t.FirstAt needle start (start + n) := by
  refine ⟨Nat.le_add_right _ _, ?_, fun offset hle hlt => ?_⟩
  · rw [← List.drop_drop]
    exact prefix_of_indexOf? h
  · obtain ⟨m, rfl⟩ := Nat.exists_eq_add_of_le hle
    rw [← List.drop_drop]
    exact not_prefix_of_indexOf? h (by omega)

/-- The first place in a window is the first one in the text. -/
theorem firstAt_of_slice {n : Nat} (h : indexOf? needle (t.slice start stop) = some n) :
    t.FirstAt needle start (start + n) := by
  rw [slice, List.drop_take, indexOf?_take] at h
  exact firstAt_of_indexOf? (Option.filter_eq_some_iff.1 h).1

theorem successive_of_findAllEnd? {needles : List Text} (h : t.findAllEnd? start stop needles = some behind) :
    t.Successive start needles behind := by
  induction needles generalizing start with
  | nil =>
    cases h
    exact .nil
  | cons needle needles ih =>
    obtain ⟨between, hbetween, hrest⟩ := Option.bind_eq_some_iff.1 h
    obtain ⟨found, hfound, rfl⟩ := Option.map_eq_some_iff.1 hbetween
    obtain ⟨-, n, hn, rfl⟩ := find?_eq_some_iff.1 hfound
    exact .cons (firstAt_of_slice hn) (ih hrest)

theorem Successive.start_le {needles : List Text} (h : t.Successive start needles behind) : start ≤ behind := by
  induction h with
  | nil => exact Nat.le_refl _
  | cons hfirst _ ih =>
    have := hfirst.start_le
    omega

/-! ## Lines -/

/-- The line of an offset begins at `lineStart`. -/
structure LineOf (t : Text) (offset lineStart : Nat) : Prop where
  le : lineStart ≤ offset
  begins : lineStart = 0 ∨ t[lineStart - 1]? = some '\n'
  line : ('\n' : CodePoint) ∉ t.slice lineStart offset

theorem exists_lineOf (t : Text) {offset : Nat} (h : offset ≤ t.length) :
    ∃ lineStart, t.LineOf offset lineStart ∧ t.drop lineStart = t.linePrefix offset ++ t.drop offset := by
  obtain ⟨front, htake, hbreak⟩ : ∃ front : Text, t.take offset = front ++ t.linePrefix offset ∧
      ∀ c ∈ front.getLast?, c = '\n' := by
    refine ⟨((t.take offset).reverse.dropWhile (· ≠ ('\n' : CodePoint))).reverse, ?_, fun c hc => ?_⟩
    · rw [linePrefix, ← List.reverse_append, List.takeWhile_append_dropWhile, List.reverse_reverse]
    · rw [List.getLast?_reverse, Option.mem_def, ← List.find?_not_eq_head?_dropWhile] at hc
      simpa using List.find?_some hc
  have hdrop : t.drop front.length = t.linePrefix offset ++ t.drop offset := by
    conv_lhs => rw [← List.take_append_drop offset t, htake, List.append_assoc]
    exact List.drop_left
  have hlength := congrArg List.length htake
  rw [List.length_append, List.length_take_of_le h] at hlength
  refine ⟨front.length, ⟨by omega, ?_, ?_⟩, hdrop⟩
  · rcases List.eq_nil_or_concat front with rfl | ⟨init, c, rfl⟩
    · exact .inl rfl
    · right
      have hlast : (init.concat c).length - 1 = init.length := by rw [List.length_concat, Nat.add_sub_cancel]
      rw [List.length_concat] at hlength
      rw [hlast, ← List.getElem?_take_of_lt (show init.length < offset by omega), htake, hbreak c (by simp)]
      simp
  · rw [hlength, slice_of_drop hdrop]
    intro hmem
    have hne := List.mem_takeWhile_imp (List.mem_reverse.1 hmem)
    simp at hne

/-- What a line begins with is whitespace as far as the indentation in front of an offset goes, if there is none at
that offset. -/
theorem indentAt_eq_leadingSpace {offset lineStart : Nat} {c : CodePoint} (hc : t[offset]? = some c)
    (hspace : c.isSpace = false) (h : t.drop lineStart = t.linePrefix offset ++ t.drop offset) :
    t.indentAt offset = leadingSpace (t.drop lineStart) := by
  have hnil : (t.drop offset).takeWhile CodePoint.isSpace = [] := by
    rw [Bracket.drop_of_getElem? hc, List.takeWhile_cons_of_neg (by simp [hspace])]
  rw [indentAt, h, leadingSpace, leadingSpace, List.takeWhile_append, hnil, List.append_nil]
  split
  · next hall => exact (List.takeWhile_prefix _).eq_of_length hall
  · rfl

end Text

namespace BlockSpan

/-! ## Openers -/

/-- The last code point of a text that is no whitespace is the one that it ends with without the whitespace at its
ends. -/
theorem getLast?_filter_isSpace (t : Text) : (t.filter fun c => !c.isSpace).getLast? = t.trim.getLast? := by
  rw [Text.getLast?_trim, List.getLast?_eq_head?_reverse, ← List.filter_reverse, List.head?_filter]

/-- A row of words begins with no whitespace. -/
theorem InRow.exists_cons {words : List Text} {t : Text} (hwords : AreWords words) (h : InRow words t) :
    ∃ c rest, t = c :: rest ∧ c.isSpace = false := by
  cases words with
  | nil => exact absurd rfl hwords.ne_nil
  | cons word others =>
    obtain ⟨hne, hspace⟩ := hwords.of_mem word List.mem_cons_self
    obtain ⟨c, word, rfl⟩ := List.exists_cons_of_ne_nil hne
    have hc := hspace c List.mem_cons_self
    cases others with
    | nil => exact ⟨c, word, h, hc⟩
    | cons other others =>
      obtain ⟨blanks, more, -, -, rfl⟩ := h
      exact ⟨c, word ++ (blanks ++ more), rfl, hc⟩

/-- An opener is found behind the start of the window. It begins with no whitespace and ends with the opening bracket that
the closing one belongs to. -/
theorem opener_at {text written : Text} {row : Recogniser Unit} {closer : CodePoint} {start stop first last : Nat}
    (hopener : opener written = .ok (row, closer)) (hfind : row.find? text start stop = some (first, (), last)) :
    start ≤ first ∧ first < last ∧ (∃ c, text[first]? = some c ∧ c.isSpace = false) ∧
      ∃ c, text[last - 1]? = some c ∧ Bracket.closerOf? c = some closer := by
  obtain ⟨hwritten, -⟩ := opener_eq_ok_iff.1 hopener
  obtain ⟨hwords, rfl⟩ := areWords_of_opener hopener
  obtain ⟨before, t, more, hrest, hrow, hfirst, rfl, -⟩ := findFrom?_openerOf hwords hfind
  obtain rfl : first = start + before.length := hfirst
  obtain ⟨behind, hdrop⟩ := Text.slice_prefix text start stop
  rw [show text.slice start stop = before ++ (t ++ more) from hrest] at hdrop
  obtain ⟨c, tail, htail, hc⟩ := hrow.exists_cons hwords
  obtain ⟨init, d, hinit, hd⟩ := hrow.exists_concat hwords
  have hbracket : Bracket.closerOf? d = some closer := by
    rw [← getLast?_filter_isSpace, ← Text.words_flatten, ← hrow.filter hwords, hinit, List.filter_append,
      List.filter_cons_of_pos (by simp [hd]), List.filter_nil, List.getLast?_append] at hwritten
    exact hwritten
  refine ⟨Nat.le_add_right _ _, ?_, ⟨c, ?_, hc⟩, d, ?_, hbracket⟩
  · rw [htail, List.length_cons]
    omega
  · rw [← List.getElem?_drop, ← hdrop, htail]
    simp
  · have hoffset : start + before.length + t.length - 1 = start + (before.length + init.length) := by
      rw [hinit, List.length_append, List.length_singleton]
      omega
    rw [hoffset, ← List.getElem?_drop, ← hdrop, hinit]
    simp

/-! ## Blocks -/

/-- Where a body ends, and that it does so nowhere before: at the bracket that matches the opening one, on its first
line, or with the first line break that the indentation of the opener and the closing bracket stand behind. -/
inductive Ends (block : BlockSpan) (text : Text) : Prop
  | bracket (hline : ('\n' : CodePoint) ∉ block.body text)
      (hscan : Bracket.closing? text block.bodyStart none false = some block.bodyEnd)
  | line (lineStart : Nat) (hline : ('\n' : CodePoint) ∈ block.body text) (hstart : block.bodyStart < lineStart)
      (hbreak : text[lineStart - 1]? = some '\n') (hend : block.bodyEnd = lineStart + block.indent.length)
      (hindent : text.slice lineStart block.bodyEnd = block.indent)
      (hfirst : ∀ earlier, block.bodyStart ≤ earlier → earlier < lineStart → text[earlier - 1]? = some '\n' →
        ¬ block.indent ++ [block.closer] <+: text.drop earlier)

/-- A block stands in a window of a text, behind its anchors. -/
structure WellFormed (block : BlockSpan) (text : Text) (anchors : List Text) (start stop : Nat) : Prop where
  anchored : ∃ behind, text.Successive start anchors behind ∧ behind ≤ block.openerStart
  start_le : start ≤ block.openerStart
  openerStart_lt : block.openerStart < block.bodyStart
  bodyStart_le : block.bodyStart ≤ block.bodyEnd
  bodyEnd_lt : block.bodyEnd < stop
  opens : ∃ c, text[block.bodyStart - 1]? = some c ∧ Bracket.closerOf? c = some block.closer
  closes : text[block.bodyEnd]? = some block.closer
  indented : ∃ lineStart, text.LineOf block.openerStart lineStart ∧
    block.indent = Text.leadingSpace (text.drop lineStart)
  ends : block.Ends text

variable {text : Text} {anchors : List Text} {written : Text} {start stop : Nat} {block : BlockSpan}

/-- What is told of the end of a body in a window holds in the text. -/
theorem EndsAt.ends {c : CodePoint} (h : EndsAt (text.slice block.bodyStart stop) (block.body text) block)
    (hend : block.bodyEnd = block.bodyStart + (block.body text).length) (hc : text[block.bodyStart - 1]? = some c)
    (hcloser : Bracket.closerOf? c = some block.closer) : block.Ends text := by
  cases h with
  | bracket hscan =>
    have hclosing : Bracket.closing? text block.bodyStart (some stop) true = some block.bodyEnd :=
      hscan.trans (congrArg some hend.symm)
    obtain ⟨hplain, hline⟩ := (Bracket.closing?_line text block.bodyStart (some stop) block.bodyEnd).1 hclosing
    exact .bracket hline ((Bracket.closing?_stop text block.bodyStart (some stop) block.bodyEnd).1 hplain).1
  | line before hscan hbody hindex =>
    have hfirst := Text.firstAt_of_slice hindex
    obtain ⟨hbreak, behind, hbehind⟩ := Text.cons_prefix_drop_iff.1 hfirst.stands
    rw [List.append_assoc] at hbehind
    have hstop : block.bodyEnd = block.bodyStart + before.length + 1 + block.indent.length := by
      rw [hend, hbody, List.length_append, List.length_cons]
      omega
    refine .line (block.bodyStart + before.length + 1) ?_ (by omega) hbreak hstop ?_ fun earlier hle hlt hearlier => ?_
    · rw [hbody]
      exact List.mem_append_right before List.mem_cons_self
    · rw [hstop]
      exact Text.slice_of_drop hbehind.symm
    · -- no line begins at the body itself, since it is the opening bracket that stands in front of it
      rcases Nat.eq_or_lt_of_le hle with rfl | hlt'
      · rw [Option.some.inj (hc.symm.trans hearlier)] at hcloser
        cases hcloser
      · obtain ⟨offset, rfl⟩ : ∃ offset, earlier = offset + 1 := ⟨earlier - 1, by omega⟩
        intro hstarts
        exact hfirst.first offset (by omega) (by omega) (Text.cons_prefix_drop_iff.2 ⟨hearlier, hstarts⟩)

/-- A located block is well formed: it stands in the window that it was searched in, and its anchors, brackets and
indentation are the first ones that fit. -/
theorem wellFormed_of_locate (h : locate text anchors written start stop = .ok (some block)) :
    block.WellFormed text anchors start stop := by
  obtain ⟨behind, row, hanchors, hopener, hfind, -, hindent, -⟩ := locate_eq_ok_iff.1 h
  obtain ⟨hbehind, hlt, ⟨d, hd, hspace⟩, c, hc, hcloser⟩ := opener_at hopener hfind
  obtain ⟨more, hwindow, hend, -, hends⟩ := exists_behind h
  have hsuccessive := Text.successive_of_findAllEnd? hanchors
  obtain ⟨lineStart, hlineOf, hdrop⟩ := text.exists_lineOf (List.getElem?_eq_some_iff.1 hd).1.le
  have hlength := congrArg List.length hwindow
  rw [Text.slice, List.length_drop, List.length_take, List.length_append, List.length_cons] at hlength
  have hclosing : text[block.bodyEnd]? = some block.closer := by
    obtain ⟨rest, hrest⟩ := text.slice_prefix block.bodyStart stop
    rw [hend, ← List.getElem?_drop, ← hrest, hwindow]
    simp
  exact {
    anchored := ⟨behind, hsuccessive, hbehind⟩
    start_le := hsuccessive.start_le.trans hbehind
    openerStart_lt := hlt
    bodyStart_le := by omega
    bodyEnd_lt := by omega
    opens := ⟨c, hc, hcloser⟩
    closes := hclosing
    indented := ⟨lineStart, hlineOf, hindent.trans (Text.indentAt_eq_leadingSpace hd hspace hdrop)⟩
    ends := hends.ends hend hc hcloser }

/-- A block of several lines whose opener is on two of them, behind two anchors and behind a block on one line. A quoted
bracket and a further line with a closing bracket stand in its body. -/
def nestedSample : Text := "ar: \x7b\x7d\nx: y:\n  ar:\n \x7b\n    b: '\x7d', c: \x7b\n    \x7d,\n  \x7d,\n"

/-- Behind its anchors the block of several lines is located; without them it is the one on one line. -/
theorem wellFormed_nestedSample :
    locate nestedSample ["x", "y"] "ar: \x7b" 0 51 = .ok (some ⟨15, 21, 48, "  ", '}'⟩) ∧
      WellFormed ⟨15, 21, 48, "  ", '}'⟩ nestedSample ["x", "y"] 0 51 ∧
      locate nestedSample [] "ar: \x7b" 0 51 = .ok (some ⟨0, 5, 5, [], '}'⟩) ∧
      WellFormed ⟨0, 5, 5, [], '}'⟩ nestedSample [] 0 51 := by
  have hlines : locate nestedSample ["x", "y"] "ar: \x7b" 0 51 = .ok (some ⟨15, 21, 48, "  ", '}'⟩) := by
    decide +kernel
  have hline : locate nestedSample [] "ar: \x7b" 0 51 = .ok (some ⟨0, 5, 5, [], '}'⟩) := by decide +kernel
  exact ⟨hlines, wellFormed_of_locate hlines, hline, wellFormed_of_locate hline⟩

end BlockSpan

end Bilingual

import Bilingual.Block.Span
import Bilingual.Proofs.Edit
import Bilingual.Proofs.Run
import Bilingual.Proofs.Search
import Bilingual.Proofs.Step

set_option autoImplicit false

/-! # Where blocks are

A located block has its body between its opener and its closing bracket (`BlockSpan.locate_eq_ok_iff`). Its body
ends on the line of the opener at the matching bracket, or with the line break and the indentation in front of the
closing bracket (`BlockSpan.EndsAt`). -/

namespace Bilingual

open Text Recogniser

/-! ## Searches in a window -/

theorem Text.find?_eq_some_iff {t needle : Text} {start stop found : Nat} :
    t.find? needle start stop = some found ↔ start ≤ min stop t.length ∧
      ∃ n, indexOf? needle (t.slice start stop) = some n ∧ found = start + n := by
  unfold find?
  split
  · next h => simp [h, Option.map_eq_some_iff, @eq_comm _ found]
  · next h => simp [h]

/-- What a window begins with is the text there. -/
theorem Text.slice_of_append {t before behind : Text} {start stop : Nat}
    (h : t.slice start stop = before ++ behind) (hbefore : 0 < before.length) :
    t.slice start (start + before.length) = before ∧ start + before.length ≤ t.length := by
  have hlength := congrArg List.length h
  rw [slice, List.length_drop, List.length_take, List.length_append] at hlength
  refine ⟨?_, by omega⟩
  calc t.slice start (start + before.length)
      = (t.slice start stop).take before.length := by
        rw [slice, slice, List.take_drop, List.take_take, Nat.min_eq_left (by omega)]
    _ = before := by rw [h, List.take_left]

theorem Text.isSpace_of_mem_indentAt {t : Text} {offset : Nat} {c : CodePoint} (h : c ∈ t.indentAt offset) :
    c.isSpace = true := List.mem_takeWhile_imp h

/-- The indentation of a line is on that line. -/
theorem Text.line_not_mem_indentAt (t : Text) (offset : Nat) : ('\n' : CodePoint) ∉ t.indentAt offset := by
  intro h
  have hline : ('\n' : CodePoint) ∈ t.linePrefix offset := (List.takeWhile_subset _) h
  have hne := List.mem_takeWhile_imp (List.mem_reverse.1 hline)
  simp at hne

theorem Text.getLast?_trim (t : Text) : t.trim.getLast? = t.reverse.find? (!·.isSpace) := by
  have hsplit : t.reverse = t.trimLeft.reverse ++ t.leadingSpace.reverse := by
    rw [← List.reverse_append, Text.leadingSpace, Text.trimLeft, List.takeWhile_append_dropWhile]
  have hblank : t.leadingSpace.reverse.find? (!·.isSpace) = none := by
    rw [List.find?_eq_none]
    intro c hc
    simpa using List.mem_takeWhile_imp (List.mem_reverse.1 hc)
  rw [hsplit, List.find?_append, hblank, Option.or_none, Text.trim, Text.trimRight, List.getLast?_reverse,
    List.find?_not_eq_head?_dropWhile]

/-! ## Brackets -/

namespace Bracket

/-- The scan ends at a closing bracket of the text. -/
theorem exists_of_closingFrom? {singleLine : Bool} {skip depth offset found : Nat} {t : Text}
    (h : closingFrom? singleLine skip depth offset t = some found) :
    ∃ (before behind : Text) (c : CodePoint), t = before ++ c :: behind ∧ found = offset + before.length ∧
      isClosing c = true := by
  fun_induction closingFrom? singleLine skip depth offset t with
  | case1 => cases h
  | case2 _ offset c _ _ ih | case5 _ offset c _ _ _ _ ih | case6 _ offset c _ _ _ _ ih
    | case8 offset c _ _ _ _ _ _ ih | case9 _ offset c _ _ _ _ _ ih =>
    obtain ⟨before, behind, d, rfl, rfl, hd⟩ := ih h
    refine ⟨c :: before, behind, d, rfl, ?_, hd⟩
    rw [List.length_cons]
    omega
  | case3 => cases h
  | case4 => cases h
  | case7 offset c rest _ _ _ hclosing =>
    cases h
    exact ⟨[], rest, c, rfl, rfl, hclosing⟩

end Bracket

/-! ## Located blocks -/

namespace BlockSpan

theorem forward_wordsInRow (words : List Text) : (wordsInRow words).Forward := by
  fun_induction wordsInRow words with
  | case1 => exact forward_pure _
  | case2 word => exact forward_exactly word
  | case3 word rest _ ih =>
    exact (forward_exactly word).bind fun _ => forward_spaces.bind fun _ => ih

variable {text : Text} {anchors : List Text} {written : Text} {start stop : Nat} {block : BlockSpan}

/-- A block is located exactly when its anchors, its opener and its closing bracket are found in turn. -/
theorem locate_eq_ok_iff : locate text anchors written start stop = .ok (some block) ↔
    ∃ behind row, text.findAllEnd? start stop anchors = some behind ∧ opener written = .ok (row, block.closer) ∧
      row.find? text behind stop = some (block.openerStart, (), block.bodyStart) ∧
      Bracket.leavesText text block.bodyStart stop true = false ∧
      block.indent = text.indentAt block.openerStart ∧
      bodyEnd? text block.bodyStart stop block.indent block.closer = some block.bodyEnd := by
  obtain ⟨openerStart, bodyStart, bodyEnd, indent, closer⟩ := block
  unfold locate
  constructor
  · intro h
    split at h
    · cases h
    · next behind hbehind =>
      obtain ⟨⟨row, closer'⟩, hopener, h⟩ := Except.bind_eq_ok_iff.1 h
      dsimp only at h
      split at h
      · cases h
      · next openerStart' _ bodyStart' hfind =>
        split at h
        · cases h
        · next hleaves =>
          obtain ⟨bodyEnd', hend, heq⟩ := Option.map_eq_some_iff.1 (Except.ok.inj h)
          cases heq
          exact ⟨behind, row, hbehind, hopener, hfind, Bool.eq_false_iff.2 hleaves, rfl, hend⟩
  · rintro ⟨behind, row, hbehind, hopener, hfind, hleaves, hindent, hend⟩
    dsimp only at hopener hfind hleaves hindent hend
    rw [hbehind]
    dsimp only
    rw [hopener]
    dsimp only [bind, Except.bind]
    rw [hfind]
    dsimp only
    rw [hleaves, ← hindent, hend]
    rfl

theorem opener_eq_ok_iff {row : Recogniser Unit} {closer : CodePoint} : opener written = .ok (row, closer) ↔
    written.trim.getLast?.bind Bracket.closerOf? = some closer ∧
      row = atWordStart (wordsInRow written.words) := by
  unfold opener
  split
  · next found hfound =>
    rw [hfound]
    constructor
    · rintro h
      cases h
      exact ⟨rfl, rfl⟩
    · rintro ⟨h, rfl⟩
      cases h
      rfl
  · next hnone =>
    rw [hnone]
    constructor
    · rintro h
      cases h
    · rintro ⟨h, -⟩
      cases h

/-- The body of a block starts in the window. -/
theorem bodyStart_le (h : locate text anchors written start stop = .ok (some block)) :
    block.bodyStart ≤ (text.take stop).length := by
  obtain ⟨behind, row, -, hopener, hfind, -⟩ := locate_eq_ok_iff.1 h
  obtain ⟨-, rfl⟩ := opener_eq_ok_iff.1 hopener
  obtain ⟨-, first, last, hfirst, -, hlast, hrun⟩ := read_of_mem_all (mem_all_of_find? hfind)
  obtain ⟨hin, -⟩ := (forward_wordsInRow _).atWordStart _ _ first hfirst _ last hrun
  rw [← show last.offset = block.bodyStart from hlast]
  exact hin.offset_le

/-- What the end of a body is found by: the bracket that the scan of the line finds, or a line break with the
indentation of the opener, which stands at the end of the body. -/
inductive EndsAt (window body : Text) (block : BlockSpan) : Prop
  | bracket (h : Bracket.closingFrom? true 0 0 block.bodyStart window = some (block.bodyStart + body.length))
  | line (before : Text) (hscan : Bracket.closingFrom? true 0 0 block.bodyStart window = none)
      (hbody : body = before ++ ('\n' :: block.indent : Text))
      (hfirst : indexOf? ('\n' :: (block.indent ++ [block.closer])) window = some before.length)

/-- Behind the body of a located block comes its closing bracket. -/
theorem exists_behind (h : locate text anchors written start stop = .ok (some block)) :
    ∃ more, text.slice block.bodyStart stop = block.body text ++ block.closer :: more ∧
      block.bodyEnd = block.bodyStart + (block.body text).length ∧ block.bodyEnd < text.length ∧
      EndsAt (text.slice block.bodyStart stop) (block.body text) block := by
  obtain ⟨-, -, -, -, -, -, -, hend⟩ := locate_eq_ok_iff.1 h
  -- what is found in the window is the body, and the text is not over behind it
  have hbody : ∀ (body more : Text) (c : CodePoint), text.slice block.bodyStart stop = body ++ c :: more →
      block.bodyEnd = block.bodyStart + body.length →
        block.body text = body ∧ block.bodyEnd < text.length ∧ text[block.bodyEnd]? = some c := by
    intro body more c hwindow hend
    have hsplit : text.slice block.bodyStart stop = (body ++ [c]) ++ more := by
      rw [hwindow, List.append_assoc]
      rfl
    obtain ⟨hslice, hlt⟩ := slice_of_append hsplit (by simp)
    rw [List.length_append, List.length_singleton, ← Nat.add_assoc, ← hend] at hslice hlt
    have hsucc : text.take (block.bodyEnd + 1) = text.take block.bodyEnd ++ [text[block.bodyEnd]] :=
      List.take_succ_eq_append_getElem _
    rw [slice, hsucc, List.drop_append_of_le_length (by rw [List.length_take]; omega)] at hslice
    obtain ⟨hbody, hc⟩ := List.append_inj' hslice rfl
    refine ⟨hbody, hlt, ?_⟩
    rw [List.getElem?_eq_getElem hlt, List.singleton_inj.1 hc]
  unfold bodyEnd? at hend
  split at hend
  · next found hfound =>
    split at hend
    · next hcloser =>
      cases hend
      obtain ⟨body, more, c, hwindow, hend, -⟩ := Bracket.exists_of_closingFrom? hfound
      obtain ⟨rfl, hlt, hc⟩ := hbody body more c hwindow hend
      rw [hcloser] at hc
      cases hc
      exact ⟨more, hwindow, hend, hlt, .bracket (hfound.trans (congrArg some hend))⟩
    · cases hend
  · next hscan =>
    obtain ⟨found, hfound, hend⟩ := Option.map_eq_some_iff.1 hend
    obtain ⟨-, n, hn, rfl⟩ := find?_eq_some_iff.1 hfound
    obtain ⟨more, hmore⟩ := prefix_of_indexOf? hn
    have hn' := add_length_le_of_indexOf? hn
    have hlength : ((text.slice block.bodyStart stop).take n).length = n :=
      List.length_take_of_le (by omega)
    have hwindow : text.slice block.bodyStart stop =
        ((text.slice block.bodyStart stop).take n ++ ('\n' :: block.indent : Text)) ++ block.closer :: more := by
      conv_lhs => rw [← List.take_append_drop n (text.slice block.bodyStart stop), ← hmore]
      simp
      rfl
    obtain ⟨hbody, hlt, -⟩ := hbody _ more block.closer hwindow (by
      rw [← hend, List.length_append, hlength, List.length_cons]
      omega)
    rw [hbody]
    refine ⟨more, hwindow, ?_, hlt, .line _ hscan rfl (hn.trans (congrArg some hlength.symm))⟩
    rw [← hend, List.length_append, hlength, List.length_cons]
    omega

end BlockSpan

end Bilingual

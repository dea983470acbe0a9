import Bilingual.Proofs.Block.Append
import Bilingual.Proofs.Block.Opener
import Bilingual.Proofs.Block.Requote

set_option autoImplicit false

/-! # A block is found again

A block whose literals have got other bodies is located in the same place, and its body ends where it is expected to
(`ParsedBlock.Laid.locate_again`): anchors and opener stand in front of the body, and what the body ends with is found
behind the last item, whatever the new bodies hold. -/

namespace Bilingual

open ParsedBlock Text Bilingual.Bracket BlockSpan

/-! ## The text around a body -/

namespace BlockSpan

variable {block : BlockSpan} {text : Text}

theorem take_replaceBody (body : Text) (h : block.bodyStart ≤ text.length) :
    (block.replaceBody text body).take block.bodyStart = text.take block.bodyStart := by
  rw [replaceBody, List.append_assoc, List.take_left' (List.length_take_of_le h)]

theorem drop_replaceBody (body : Text) (h : block.bodyStart ≤ text.length) :
    (block.replaceBody text body).drop block.bodyStart = body ++ text.drop block.bodyEnd := by
  rw [replaceBody, List.append_assoc, List.drop_left' (List.length_take_of_le h)]

theorem le_length_replaceBody (body : Text) (h : block.bodyStart ≤ text.length) :
    block.bodyStart ≤ (block.replaceBody text body).length := by
  rw [replaceBody, List.length_append, List.length_append, List.length_take_of_le h]
  omega

end BlockSpan

theorem Text.slice_length {t : Text} (start : Nat) : t.slice start t.length = t.drop start := by
  rw [slice, List.take_length]

theorem Text.indentAt_of_take_eq {t t' : Text} {offset k : Nat} (h : t.take k = t'.take k) (hk : offset ≤ k) :
    t.indentAt offset = t'.indentAt offset := by
  have htake : ∀ t : Text, t.take offset = (t.take k).take offset := fun t => by
    rw [List.take_take, Nat.min_eq_left hk]
  rw [indentAt, indentAt, linePrefix, linePrefix, htake t, htake t', h]

/-- Neither brackets nor whitespace are quotes or commas. -/
theorem isLineNeedle_closing {indent written : Text} {row : Recogniser Unit} {closer : CodePoint}
    (hopener : opener written = .ok (row, closer)) (hindent : ∀ c ∈ indent, c.isSpace = true) :
    IsLineNeedle ('\n' :: (indent ++ [closer])) := by
  obtain ⟨hlast, -⟩ := opener_eq_ok_iff.1 hopener
  obtain ⟨c, -, hc⟩ := Option.bind_eq_some_iff.1 hlast
  have hcloser : closer = '}' ∨ closer = ']' := by
    unfold closerOf? at hc
    split_ifs at hc
    · exact .inl (Option.some.inj hc).symm
    · exact .inr (Option.some.inj hc).symm
  have hnot : ∀ d : CodePoint, d ≠ '\n' → d.isSpace = false → d ≠ '}' → d ≠ ']' →
      d ∉ ('\n' :: (indent ++ [closer]) : Text) := by
    intro d hline hspace hbrace hbracket hmem
    rcases List.mem_cons.1 hmem with hd | hmem
    · exact hline hd
    rcases List.mem_append.1 hmem with hd | hd
    · rw [hindent d hd] at hspace
      cases hspace
    · rcases hcloser with rfl | rfl
      · exact hbrace (List.mem_singleton.1 hd)
      · exact hbracket (List.mem_singleton.1 hd)
  refine ⟨List.mem_cons_self, fun quote => ?_, hnot _ (by decide) (by decide) (by decide) (by decide)⟩
  cases quote
  · exact hnot _ (by decide) (by decide) (by decide) (by decide)
  · exact hnot _ (by decide) (by decide) (by decide) (by decide)

namespace ParsedBlock

variable {parsed : ParsedBlock} {text : Text} {kind : ItemKind} {parts parts' : List BlockPart} {last : Text}

/-- The body of a laid out block. -/
theorem Laid.body_eq (h : parsed.Laid text kind parts last) (hend : parsed.block.bodyStart ≤ parsed.block.bodyEnd) :
    parsed.block.body text = partsText parts ++ last := by
  have hsplit : parsed.block.body text ++ text.drop parsed.block.bodyEnd = text.drop parsed.block.bodyStart :=
    Text.slice_append_drop hend
  rw [h.text_eq, ← List.append_assoc] at hsplit
  exact List.append_cancel_right hsplit

end ParsedBlock

/-! ## The end of the body -/

/-- The end of a body is found behind its last item again. -/
theorem bodyEnd?_again {text text' more last : Text} {parts parts' : List BlockPart} {block : BlockSpan}
    (hparts : List.Forall₂ BlockPart.Requoted parts parts')
    (hneedle : IsLineNeedle ('\n' :: (block.indent ++ [block.closer])))
    (htext : text.drop block.bodyStart = partsText parts ++ (last ++ block.closer :: more))
    (htext' : text'.drop block.bodyStart = partsText parts' ++ (last ++ block.closer :: more))
    (hstart : block.bodyStart ≤ text'.length)
    (hends : block.EndsAt (text.drop block.bodyStart) (partsText parts ++ last)) :
    bodyEnd? text' block.bodyStart text'.length block.indent block.closer =
      some (block.bodyStart + (partsText parts' ++ last).length) := by
  have hliteral : ∀ part ∈ parts, part.form.kind = .entry ∨ part.form.kind = .literal := by
    intro part hpart
    obtain ⟨part', -, hrequoted⟩ := List.Forall₂.exists_of_mem_left hparts hpart
    exact hrequoted.form.symm.isLiteral
  have hliteral' : ∀ part ∈ parts', part.form.kind = .entry ∨ part.form.kind = .literal := by
    intro part' hpart'
    obtain ⟨part, -, hrequoted⟩ := List.Forall₂.exists_of_mem_right hparts hpart'
    exact hrequoted.form.isLiteral
  have hscan' : closing? text' block.bodyStart (some text'.length) true =
      if ('\n' : CodePoint) ∈ partsText parts' then none else
        (closingFrom? true 0 0 0 (last ++ block.closer :: more)).map
          (block.bodyStart + (partsText parts').length + ·) := by
    rw [← closingFrom?_partsText hliteral', ← htext', ← Text.slice_length]
    rfl
  cases hends with
  | bracket hfound =>
    rw [htext, closingFrom?_partsText hliteral] at hfound
    split at hfound
    · cases hfound
    · next hline =>
      obtain ⟨j, hj, hlength⟩ := Option.map_eq_some_iff.1 hfound
      have hline' : ('\n' : CodePoint) ∉ partsText parts' := fun hmem =>
        hline (line_mem_partsText (forall₂_requoted_symm hparts) hmem)
      have hend : block.bodyStart + (partsText parts').length + j =
          block.bodyStart + (partsText parts' ++ last).length := by
        rw [List.length_append] at hlength ⊢
        omega
      have hcloser : text'[block.bodyStart + (partsText parts' ++ last).length]? = some block.closer := by
        rw [← List.getElem?_drop, htext', ← List.append_assoc, List.getElem?_append_right (Nat.le_refl _), Nat.sub_self]
        rfl
      unfold bodyEnd?
      rw [hscan', if_neg hline', hj, Option.map_some, hend]
      dsimp only
      rw [if_pos hcloser]
  | line before hscan hbody hfirst =>
    have hnone : closing? text' block.bodyStart (some text'.length) true = none := by
      rw [htext, closingFrom?_partsText hliteral] at hscan
      rw [hscan']
      split at hscan
      · next hline => rw [if_pos (line_mem_partsText hparts hline)]
      · rw [Option.map_eq_none_iff.1 hscan, Option.map_none, ite_self]
    have hlength := congrArg List.length hbody
    rw [List.length_append, List.length_append, List.length_cons] at hlength
    rw [htext] at hfirst
    obtain ⟨m, hm, hagain⟩ := indexOf?_requoted hneedle hparts hfirst (by
      rw [List.length_cons, List.length_append, List.length_singleton]
      omega)
    have hfind : text'.find? ("\n" ++ block.indent ++ [block.closer]) block.bodyStart text'.length =
        some (block.bodyStart + ((partsText parts').length + m)) := by
      refine find?_eq_some_iff.2 ⟨by omega, _, ?_, rfl⟩
      rw [Text.slice_length, htext']
      exact hagain
    unfold bodyEnd?
    rw [hnone]
    dsimp only
    rw [hfind, Option.map_some, List.length_append]
    congr 1
    omega

/-- A block is located behind the start of the window. -/
theorem BlockSpan.start_le_bodyStart {text written : Text} {anchors : List Text} {start : Nat} {block : BlockSpan}
    (hlocate : locate text anchors written start text.length = .ok (some block)) : start ≤ block.bodyStart := by
  obtain ⟨behind, row, hanchors, hopener, hfind, -⟩ := locate_eq_ok_iff.1 hlocate
  obtain ⟨hwords, rfl⟩ := areWords_of_opener hopener
  obtain ⟨-, hopens, hbody⟩ := find?_openerOf_again hwords hfind rfl
  have hlength := bodyStart_le hlocate
  rw [List.take_length] at hlength
  obtain ⟨-, hbehind⟩ := findAllEnd?_again hanchors rfl (by omega) hlength
  omega

namespace ParsedBlock

variable {parsed : ParsedBlock} {text : Text} {kind : ItemKind} {parts parts' : List BlockPart} {last : Text}

/-- A block whose literals have got other bodies is located again. -/
theorem Laid.locate_again {anchors : List Text} {written : Text} {start : Nat}
    (h : parsed.Laid text kind parts last)
    (hlocate : locate text anchors written start text.length = .ok (some parsed.block))
    (hparts : List.Forall₂ BlockPart.Requoted parts parts') :
    locate (parsed.block.replaceBody text (partsText parts' ++ last)) anchors written start
      (parsed.block.replaceBody text (partsText parts' ++ last)).length =
        .ok (some (parsed.block.withBody (partsText parts' ++ last))) := by
  obtain ⟨more, hwindow, hend, hlt, hends⟩ := exists_behind hlocate
  obtain ⟨behind, row, hanchors, hopener, hfind, -, hindent, -⟩ := locate_eq_ok_iff.1 hlocate
  obtain ⟨hwords, rfl⟩ := areWords_of_opener hopener
  have hstart := h.start_le
  have hbody := h.body_eq (by omega)
  have htake := BlockSpan.take_replaceBody (partsText parts' ++ last) hstart
  have hmore : text.drop parsed.block.bodyEnd = parsed.block.closer :: more := by
    rw [Text.slice_length, h.text_eq, hbody, List.append_assoc, List.append_cancel_left_eq,
      List.append_cancel_left_eq] at hwindow
    exact hwindow
  obtain ⟨hfind', hbehind, hopens⟩ := find?_openerOf_again hwords hfind htake.symm
  have hlength := le_length_replaceBody (partsText parts' ++ last) hstart
  obtain ⟨hanchors', -⟩ := findAllEnd?_again hanchors htake.symm (by omega) hlength
  refine locate_eq_ok_iff.2 ⟨behind, _, hanchors', hopener, hfind', ?_, ?_, ?_⟩
  · simp [leavesText]
  · show parsed.block.indent = _
    rw [hindent, indentAt_of_take_eq htake.symm hopens]
    rfl
  · have hspace : ∀ c ∈ parsed.block.indent, c.isSpace = true := fun c hc => isSpace_of_mem_indentAt (hindent ▸ hc)
    have hneedle := isLineNeedle_closing hopener hspace
    rw [Text.slice_length] at hends
    rw [hbody] at hends
    have htext := h.text_eq
    rw [hmore] at htext
    have htext' := drop_replaceBody (partsText parts' ++ last) hstart
    rw [hmore, List.append_assoc] at htext'
    have hagain := bodyEnd?_again hparts hneedle htext htext' hlength hends
    exact hagain

end ParsedBlock

end Bilingual

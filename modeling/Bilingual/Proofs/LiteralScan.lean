import Bilingual.Proofs.Body
import Bilingual.Proofs.Forward

set_option autoImplicit false

/-! # Literals are read as they are scanned

Sites are found by reading literals code point by code point; blocks are skipped over by the scan for the closing quote,
which counts the backslashes in front of it. Both pass over the same text: a literal can be read in a window exactly
when the scan ends in that window, on the line on which it began, and its body is then what the scan has passed over
(`Recogniser.run_literal_eq_closing?`). In particular the window hides the text behind it from both in the same way. -/

namespace Bilingual.Recogniser

/-! ## Bodies -/

/-- The first `n` code points of a text and what follows the code point behind them, if they are on one line. -/
def lineBody? (t : Text) (n : Nat) : Option (Text × Text) :=
  if ('\n' : CodePoint) ∈ t.take n then none else some (t.take n, t.drop (n + 1))

theorem lineBody?_line (t : Text) (n : Nat) : lineBody? ('\n' :: t) (n + 1) = none :=
  if_pos (by rw [List.take_succ_cons]; exact List.mem_cons_self)

theorem lineBody?_cons {c : CodePoint} (h : c ≠ '\n') (t : Text) (n : Nat) :
    lineBody? (c :: t) (n + 1) = (lineBody? t n).map fun (body, behind) => (c :: body, behind) := by
  rw [lineBody?, lineBody?, List.take_succ_cons, List.drop_succ_cons]
  by_cases hmem : ('\n' : CodePoint) ∈ t.take n
  · rw [if_pos (List.mem_cons_of_mem c hmem), if_pos hmem]
    rfl
  · rw [if_neg (by simp [hmem, h.symm]), if_neg hmem]
    rfl

/-- A body ends at the first delimiter that a scan from the left meets, if no line break stands in front of that. -/
theorem literalBody?_eq_firstUnescaped? {quote : CodePoint} (hquote : quote ≠ '\\') (t : Text) :
    literalBody? quote t = (Literal.firstUnescaped? '\\' quote t).bind (lineBody? t) := by
  fun_induction literalBody? quote t with
  | case1 => rfl
  | case2 =>
    rw [Literal.firstUnescaped?_delimiter hquote]
    rfl
  | case3 c hc =>
    -- an escape at the end of the text has nothing to escape
    rw [Literal.firstUnescaped?.eq_def]
    dsimp only
    rw [if_neg hc]
    split <;> rfl
  | case4 d rest =>
    rw [Literal.firstUnescaped?_delimiter hquote]
    rfl
  | case5 d rest hc =>
    rw [Literal.firstUnescaped?_plain (by decide) hc, Option.bind_map]
    exact (Option.bind_eq_none_iff.2 fun n _ => lineBody?_line (d :: rest) n).symm
  | case6 rest hc hbackslash =>
    rw [Literal.firstUnescaped?_escape, Option.bind_map]
    refine (Option.bind_eq_none_iff.2 fun n _ => ?_).symm
    rw [Function.comp_apply, lineBody?_cons (by decide), lineBody?_line]
    rfl
  | case7 d rest hd hc hbackslash ih =>
    rw [Literal.firstUnescaped?_escape, Option.bind_map, ih, Option.map_bind]
    refine congrArg _ (funext fun n => ?_)
    rw [Function.comp_apply, Function.comp_apply, lineBody?_cons (by decide), lineBody?_cons hd, Option.map_map]
    rfl
  | case8 c d rest hc hline hbackslash ih =>
    rw [Literal.firstUnescaped?_plain hbackslash hc, Option.bind_map, ih, Option.map_bind]
    exact congrArg _ (funext fun n => (lineBody?_cons hline _ n).symm)

/-- In the beginning of a text a body is read that the scan of the text ends in there. -/
theorem literalBody?_take (quote : Quote) (t : Text) (k : Nat) : literalBody? quote.point (t.take k) =
    ((Literal.closingIn? ['\\'] quote.point [] t).filter (· < k)).bind (lineBody? (t.take k)) := by
  have hquote : quote.point ≠ '\\' := Ne.symm quote.point_ne_backslash
  rw [literalBody?_eq_firstUnescaped? hquote, ← Literal.closingIn?_window,
    (Literal.closingIn?_eq_firstUnescaped? hquote [] _).1 rfl]

/-! ## Literals -/

theorem run_literal_of_quote {quote : Quote} {cursor : Cursor} {rest : Text} (h : cursor.rest = quote.point :: rest) :
    literal.run cursor = (literalBody? quote.point rest).toList.map fun (raw, behind) =>
      (⟨cursor.offset + 1, cursor.offset + 1 + raw.length, quote, raw⟩,
        ⟨cursor.offset + 1 + raw.length + 1, some quote.point, behind⟩) := by
  unfold literal
  simp only [h, Quote.ofPoint?_point]
  cases literalBody? quote.point rest <;> rfl

section Window

variable {text : Text} {offset stop last : Nat} {quote : Quote}

theorem slice_of_getElem? {c : CodePoint} (h : text[offset]? = some c) (hstop : offset < stop) :
    text.slice offset stop = c :: (text.drop (offset + 1)).take (stop - (offset + 1)) := by
  obtain ⟨hlt, rfl⟩ := List.getElem?_eq_some_iff.1 h
  rw [Text.slice, List.drop_take, List.drop_eq_getElem_cons hlt, show stop - offset = stop - (offset + 1) + 1 by omega,
    List.take_succ_cons]

/-- Nothing is read when the scan does not end in the window. -/
theorem run_literal_eq_nil (hquote : text[offset]? = some quote.point)
    (h : ∀ last, Literal.closing? text quote.point (offset + 1) = some last → stop ≤ last) :
    literal.run (Cursor.ofWindow text offset stop) = [] := by
  by_cases hstop : offset < stop
  · have hnone : (Literal.closingIn? ['\\'] quote.point [] (text.drop (offset + 1))).filter
        (· < stop - (offset + 1)) = none := by
      rw [Option.filter_eq_none_iff]
      intro n hn
      have hle := h _ (Option.map_eq_some_iff.2 ⟨n, hn, rfl⟩)
      simp only [decide_eq_true_eq]
      omega
    rw [run_literal_of_quote (slice_of_getElem? hquote hstop), literalBody?_take, hnone]
    rfl
  · have hnil : text.slice offset stop = [] := by
      rw [Text.slice, List.drop_take, Nat.sub_eq_zero_of_le (Nat.le_of_not_lt hstop), List.take_zero]
    exact run_literal_of_not fun c hc => by simp [Cursor.ofWindow, hnil] at hc

/-- When the scan ends in the window the literal ends there, unless a line break stands in it. -/
theorem run_literal_of_closing? (hquote : text[offset]? = some quote.point)
    (h : Literal.closing? text quote.point (offset + 1) = some last) (hlast : last < stop) :
    literal.run (Cursor.ofWindow text offset stop) =
      if ('\n' : CodePoint) ∈ text.slice offset last then []
      else [(⟨offset + 1, last, quote, text.slice (offset + 1) last⟩, Cursor.ofWindow text (last + 1) stop)] := by
  obtain ⟨n, hn, rfl⟩ := Option.map_eq_some_iff.1 h
  have hclosing : text[offset + 1 + n]? = some quote.point := by
    rw [← List.getElem?_drop, Literal.getElem?_of_closingIn? hn]
  have hlength := Literal.lt_length_of_closingIn? hn
  have hbody : text.slice (offset + 1) (offset + 1 + n) = (text.drop (offset + 1)).take n := by
    rw [Text.slice, List.drop_take, Nat.add_sub_cancel_left]
  have hline : ('\n' : CodePoint) ∈ text.slice offset (offset + 1 + n) ↔
      ('\n' : CodePoint) ∈ (text.drop (offset + 1)).take n := by
    rw [slice_of_getElem? hquote (by omega), Nat.add_sub_cancel_left, List.mem_cons]
    exact or_iff_right (Ne.symm quote.point_ne_line)
  have hfits : n < stop - (offset + 1) := by omega
  have hbehind : ((text.drop (offset + 1)).take (stop - (offset + 1))).drop (n + 1) =
      text.slice (offset + 1 + n + 1) stop := by
    rw [Text.slice, List.drop_take, List.drop_take, List.drop_drop,
      show offset + 1 + (n + 1) = offset + 1 + n + 1 by omega, show stop - (offset + 1) - (n + 1) = stop - (offset + 1 + n + 1) by omega]
  rw [run_literal_of_quote (slice_of_getElem? hquote (by omega)), literalBody?_take, hn, Option.filter_some,
    if_pos (decide_eq_true hfits), Option.bind_some, lineBody?, List.take_take, Nat.min_eq_left (Nat.le_of_lt hfits)]
  by_cases hmem : ('\n' : CodePoint) ∈ (text.drop (offset + 1)).take n
  · rw [if_pos hmem, if_pos (hline.2 hmem)]
    rfl
  · rw [if_neg hmem, if_neg fun h => hmem (hline.1 h), hbehind]
    simp [Cursor.ofWindow, hbody, hclosing, List.length_take_of_le (Nat.le_of_lt hlength)]

/-- From a quote on, a literal can be read in a window in at most one way: when the scan for that quote ends in front of
the end of the window, with no line break on the way, the literal ends there, and its value is what the text in between
decodes to. -/
theorem run_literal_eq_closing? (hquote : text[offset]? = some quote.point) (stop : Nat) :
    literal.run (Cursor.ofWindow text offset stop) =
        (match Literal.closing? text quote.point (offset + 1) with
          | some last =>
            if last < stop ∧ ('\n' : CodePoint) ∉ text.slice offset last then
              [(⟨offset + 1, last, quote, text.slice (offset + 1) last⟩, Cursor.ofWindow text (last + 1) stop)]
            else []
          | none => []) ∧
      ∀ l behind, (l, behind) ∈ literal.run (Cursor.ofWindow text offset stop) →
        behind.offset = l.stop + 1 ∧ l.value = Literal.decode (text.slice (offset + 1) l.stop) := by
  cases hclosing : Literal.closing? text quote.point (offset + 1) with
  | none =>
    have hrun : literal.run (Cursor.ofWindow text offset stop) = [] :=
      run_literal_eq_nil hquote fun last hlast => by simp [hclosing] at hlast
    exact ⟨hrun, fun l behind h => by simp [hrun] at h⟩
  | some last =>
    dsimp only
    by_cases hread : last < stop ∧ ('\n' : CodePoint) ∉ text.slice offset last
    · have hrun := run_literal_of_closing? hquote hclosing hread.1
      rw [if_neg hread.2] at hrun
      rw [if_pos hread]
      refine ⟨hrun, fun l behind h => ?_⟩
      obtain ⟨rfl, rfl⟩ := Prod.mk.inj (List.mem_singleton.1 (hrun ▸ h))
      exact ⟨rfl, rfl⟩
    · have hrun : literal.run (Cursor.ofWindow text offset stop) = [] := by
        by_cases hlast : last < stop
        · rw [run_literal_of_closing? hquote hclosing hlast,
            if_pos (Decidable.not_not.1 fun hmem => hread ⟨hlast, hmem⟩)]
        · refine run_literal_eq_nil hquote fun last' hlast' => ?_
          rw [hclosing] at hlast'
          cases hlast'
          exact Nat.le_of_not_lt hlast
      rw [if_neg hread]
      exact ⟨hrun, fun l behind h => by simp [hrun] at h⟩

/-- A literal with an escaped quote and the other quote in it, behind two backslashes, and one with an escaped line
break. -/
def scanSample : Text := "\\\\'a\\'\"\\\\' \"b\\\nc\""

/-- The first literal is read in the whole text and not in a window that ends in front of its quote. The second one is
not read, although the scan for its quote ends. -/
theorem run_literal_scanSample :
    scanSample[2]? = some Quote.single.point ∧ scanSample[11]? = some Quote.double.point ∧
      literal.run (Cursor.ofWindow scanSample 2 17) =
        [(⟨3, 9, .single, "a\\'\"\\\\"⟩, Cursor.ofWindow scanSample 10 17)] ∧
      literal.run (Cursor.ofWindow scanSample 2 9) = [] ∧
      Literal.closing? scanSample Quote.double.point 12 = some 16 ∧
      literal.run (Cursor.ofWindow scanSample 11 17) = [] := by
  have hsingle : scanSample[2]? = some Quote.single.point := by decide +kernel
  have hdouble : scanSample[11]? = some Quote.double.point := by decide +kernel
  have hfirst : Literal.closing? scanSample Quote.single.point 3 = some 9 := by decide +kernel
  have hsecond : Literal.closing? scanSample Quote.double.point 12 = some 16 := by decide +kernel
  obtain ⟨hread, -⟩ := run_literal_eq_closing? hsingle 17
  obtain ⟨hcut, -⟩ := run_literal_eq_closing? hsingle 9
  obtain ⟨hline, -⟩ := run_literal_eq_closing? hdouble 17
  rw [hfirst] at hread hcut
  rw [hsecond] at hline
  refine ⟨hsingle, hdouble, hread.trans ?_, hcut.trans ?_, hsecond, hline.trans ?_⟩
  · decide +kernel
  · decide +kernel
  · decide +kernel

end Window

end Bilingual.Recogniser

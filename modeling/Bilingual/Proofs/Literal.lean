import Bilingual.Pattern.Literal
import Bilingual.Proofs.Step

set_option autoImplicit false

/-! # Escaped bodies are read back

A text that is escaped for a quote is what the body decodes to (`Literal.decode_escape`), whatever the text
is: the escapes that are written are read one by one, and nothing else in the body begins with a backslash.
Between its quotes such a body is also read as a whole: it neither ends the literal nor breaks its line
(`Quote.encloses_escape`). -/

namespace Bilingual

namespace Literal

/-- Decoding goes on behind an escape of one code point. -/
theorem decodeFrom_escaped {c d : CodePoint} {rest : Text} (h : decodeEscape c rest = .ok ([d], 0)) :
    decodeFrom 0 (('\\' : CodePoint) :: c :: rest) = (decodeFrom 0 rest).map (d :: ·) := by
  rw [decodeFrom.eq_def]
  dsimp only
  rw [if_pos rfl, h]
  show (decodeFrom 1 (c :: rest) >>= fun behind => pure ([d] ++ behind)) = _
  have hskip : decodeFrom 1 (c :: rest) = decodeFrom 0 rest := by rw [decodeFrom.eq_def]
  rw [hskip]
  cases decodeFrom 0 rest <;> rfl

theorem decodeFrom_plain {c : CodePoint} {rest : Text} (h : c ≠ '\\') :
    decodeFrom 0 (c :: rest) = (decodeFrom 0 rest).map (c :: ·) := by
  rw [decodeFrom.eq_def]
  dsimp only
  rw [if_neg h]
  cases decodeFrom 0 rest <;> rfl

/-- An escaped code point is read back, whatever comes behind it. -/
theorem decodeFrom_escapePoint (q : Quote) (c : CodePoint) (rest : Text) :
    decodeFrom 0 (q.escapePoint c ++ rest) = (decodeFrom 0 rest).map (c :: ·) := by
  unfold Quote.escapePoint
  by_cases hbackslash : c = '\\'
  · rw [if_pos hbackslash, hbackslash]
    exact decodeFrom_escaped (by rfl)
  · rw [if_neg hbackslash]
    by_cases hquote : c = q.point
    · rw [if_pos hquote]
      refine decodeFrom_escaped ?_
      rw [hquote]
      cases q <;> rfl
    · rw [if_neg hquote]
      by_cases hreturn : c = '\r'
      · rw [if_pos hreturn, hreturn]
        exact decodeFrom_escaped (by rfl)
      · rw [if_neg hreturn]
        by_cases hline : c = '\n'
        · rw [if_pos hline, hline]
          exact decodeFrom_escaped (by rfl)
        · rw [if_neg hline]
          exact decodeFrom_plain hbackslash

/-- An escaped text is read back, whatever comes behind it. -/
theorem decodeFrom_escape (q : Quote) (value rest : Text) :
    decodeFrom 0 (q.escape value ++ rest) = (decodeFrom 0 rest).map (value ++ ·) := by
  unfold Quote.escape
  induction value with
  | nil => cases h : decodeFrom 0 rest <;> simp [h, Except.map]
  | cons c value ih =>
    rw [List.flatMap_cons, List.append_assoc, decodeFrom_escapePoint, ih]
    cases decodeFrom 0 rest <;> rfl

/-- An escaped text is read back. -/
theorem decode_escape (q : Quote) (value : Text) : decode (q.escape value) = .ok value := by
  have hread := decodeFrom_escape q value []
  rw [List.append_nil] at hread
  rw [decode, hread]
  exact congrArg Except.ok (List.append_nil value)

end Literal

/-! ## Bodies between quotes -/

/-- In front of its closing quote a body is read as a whole, whatever comes behind. -/
def Quote.Encloses (q : Quote) (body : Text) : Prop :=
  ∀ behind, Recogniser.literalBody? q.point (body ++ q.point :: behind) = some (body, behind)

namespace Recogniser

theorem literalBody?_quote (quote : CodePoint) (behind : Text) :
    literalBody? quote (quote :: behind) = some ([], behind) := by
  cases behind <;> rw [literalBody?, if_pos rfl]

theorem literalBody?_plain {quote c : CodePoint} {rest : Text} (hquote : c ≠ quote) (hline : c ≠ '\n')
    (hbackslash : c ≠ '\\') :
    literalBody? quote (c :: rest) = (literalBody? quote rest).map fun found => (c :: found.1, found.2) := by
  cases rest with
  | nil =>
    unfold literalBody?
    rw [if_neg hquote]
    rfl
  | cons d rest => rw [literalBody?, if_neg hquote, if_neg hline, if_neg hbackslash]

theorem literalBody?_escaped {quote c : CodePoint} {rest : Text} (hquote : ('\\' : CodePoint) ≠ quote)
    (hline : c ≠ '\n') : literalBody? quote (('\\' : CodePoint) :: c :: rest) =
      (literalBody? quote rest).map fun found => (('\\' : CodePoint) :: c :: found.1, found.2) := by
  rw [literalBody?, if_neg hquote, if_neg (by decide), if_pos rfl, if_neg hline]

/-- The body of a literal is read again in front of any text. -/
theorem literalBody?_again {quote : CodePoint} {t body behind : Text}
    (h : literalBody? quote t = some (body, behind)) (behind' : Text) :
    literalBody? quote (body ++ quote :: behind') = some (body, behind') := by
  -- the body ends at the closing quote (2, 4) or goes on behind an escape (7) or a plain code point (8);
  -- in the other cases none is read
  fun_induction literalBody? quote t generalizing body behind with
  | case1 => cases h
  | case2 =>
    cases h
    exact literalBody?_quote quote behind'
  | case3 => cases h
  | case4 =>
    cases h
    exact literalBody?_quote quote behind'
  | case5 => cases h
  | case6 => cases h
  | case7 d rest hescaped hquote hline ih =>
    obtain ⟨⟨body', behind''⟩, hfound, heq⟩ := Option.map_eq_some_iff.1 h
    cases heq
    rw [List.cons_append, List.cons_append, literalBody?_escaped hquote hescaped, ih hfound]
    rfl
  | case8 c d rest hquote hline hbackslash ih =>
    obtain ⟨⟨body', behind''⟩, hfound, heq⟩ := Option.map_eq_some_iff.1 h
    cases heq
    rw [List.cons_append, literalBody?_plain hquote hline hbackslash, ih hfound]
    rfl

end Recogniser

theorem Quote.point_ne_backslash (q : Quote) : ('\\' : CodePoint) ≠ q.point := by cases q <;> decide

theorem Quote.point_ne_line (q : Quote) : q.point ≠ '\n' := by cases q <;> decide

/-- Reading an escaped code point goes on behind it. -/
theorem Quote.literalBody?_escapePoint (q : Quote) (c : CodePoint) (rest : Text) :
    Recogniser.literalBody? q.point (q.escapePoint c ++ rest) =
      (Recogniser.literalBody? q.point rest).map fun found => (q.escapePoint c ++ found.1, found.2) := by
  unfold Quote.escapePoint
  by_cases hbackslash : c = '\\'
  · rw [if_pos hbackslash]
    exact Recogniser.literalBody?_escaped q.point_ne_backslash (by decide)
  · rw [if_neg hbackslash]
    by_cases hquote : c = q.point
    · rw [if_pos hquote]
      exact Recogniser.literalBody?_escaped q.point_ne_backslash (hquote ▸ q.point_ne_line)
    · rw [if_neg hquote]
      by_cases hreturn : c = '\r'
      · rw [if_pos hreturn]
        exact Recogniser.literalBody?_escaped q.point_ne_backslash (by decide)
      · rw [if_neg hreturn]
        by_cases hline : c = '\n'
        · rw [if_pos hline]
          exact Recogniser.literalBody?_escaped q.point_ne_backslash (by decide)
        · rw [if_neg hline]
          exact Recogniser.literalBody?_plain hquote hline hbackslash

/-- An escaped text is read as a whole between its quotes. -/
theorem Quote.encloses_escape (q : Quote) (value : Text) : q.Encloses (q.escape value) := by
  intro behind
  unfold Quote.escape
  induction value with
  | nil => exact Recogniser.literalBody?_quote q.point behind
  | cons c rest ih =>
    rw [List.flatMap_cons, List.append_assoc, literalBody?_escapePoint, ih]
    rfl

end Bilingual

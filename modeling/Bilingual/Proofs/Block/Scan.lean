import Bilingual.Block.Bracket
import Bilingual.Proofs.Block.Layout
import Bilingual.Proofs.Closing

set_option autoImplicit false

/-! # The scan of one line and the items on it

The scan for the closing bracket and the parser of items read quotes and comments by themselves. They agree on
what they pass over: in single-line mode the scan passes over gaps and over items of keys and literals, and stops
where such a text holds a line break (`Scans`). -/

namespace Bilingual

open Bilingual.Bracket Literal

namespace Bracket

theorem closingFrom?_skip {singleLine : Bool} {n : Nat} (depth offset : Nat) {t : Text} (h : n ≤ t.length) :
    closingFrom? singleLine n depth offset t = closingFrom? singleLine 0 depth (offset + n) (t.drop n) := by
  induction n generalizing offset t with
  | zero => rw [Nat.add_zero, List.drop_zero]
  | succ n ih =>
    cases t with
    | nil => cases h
    | cons c rest =>
      rw [closingFrom?, ih _ (Nat.le_of_succ_le_succ h), List.drop_succ_cons,
        show offset + 1 + n = offset + (n + 1) by omega]

/-- In single-line mode the scan stops in a text with a line break and passes over any other, whatever comes
behind. -/
def Scans (t : Text) : Prop :=
  ∀ (depth offset : Nat) (rest : Text), closingFrom? true 0 depth offset (t ++ rest) =
    if ('\n' : CodePoint) ∈ t then none else closingFrom? true 0 depth (offset + t.length) rest

theorem scans_nil : Scans [] := by
  intro depth offset rest
  rw [if_neg List.not_mem_nil]
  rfl

theorem Scans.append {t other : Text} (h : Scans t) (hother : Scans other) : Scans (t ++ other) := by
  intro depth offset rest
  rw [List.append_assoc, h, hother, List.length_append, Nat.add_assoc]
  simp only [List.mem_append]
  split_ifs <;> simp_all

/-- The scan passes over a code point that begins nothing, and stops at a line break. -/
theorem scans_cons {c : CodePoint} {t : Text} (hskipped : ∀ rest, skipped? true c rest = some none)
    (hopening : isOpening c = false) (hclosing : isClosing c = false) (h : Scans t) : Scans (c :: t) := by
  intro depth offset rest
  rw [List.cons_append, closingFrom?.eq_def]
  dsimp only
  rw [hskipped, hopening, hclosing]
  by_cases hline : c = '\n'
  · rw [if_pos ⟨rfl, hline⟩, if_pos (hline ▸ List.mem_cons_self ..)]
  · rw [if_neg fun hc => hline hc.2]
    dsimp only
    rw [if_neg Bool.false_ne_true, if_neg Bool.false_ne_true, h, List.length_cons, Nat.add_assoc,
      Nat.add_comm 1]
    simp only [List.mem_cons, show ¬ ('\n' : CodePoint) = c from fun hc => hline hc.symm, false_or]

/-- The code points that a literal, a comment or a bracket begins with. -/
def marks : Text := ['\'', '"', '\x60', '/', '{', '[', '}', ']']

/-- A code point of a kind that no mark is of begins nothing. -/
theorem scans_of_forall {p : CodePoint → Bool} {t : Text} (ht : ∀ c ∈ t, p c = true)
    (hmarks : ∀ c ∈ marks, p c = false) : Scans t := by
  induction t with
  | nil => exact scans_nil
  | cons c rest ih =>
    obtain ⟨hc, hrest⟩ := List.forall_mem_cons.1 ht
    have hne : ∀ d ∈ marks, (c == d) = false := by
      intro d hd
      rw [beq_eq_false_iff_ne]
      rintro rfl
      exact Bool.false_ne_true ((hmarks c hd).symm.trans hc)
    simp only [marks, List.forall_mem_cons] at hne
    refine scans_cons (fun behind => ?_) ?_ ?_ (ih hrest)
    · simp [skipped?, isQuote, Comment.startsLine, Comment.startsBlock, hne]
    · simp [isOpening, hne]
    · simp [isClosing, hne]

theorem scans_of_spaces {blanks : Text} (h : ∀ c ∈ blanks, c.isSpace = true) : Scans blanks :=
  scans_of_forall h (by decide)

/-- The scan passes over a literal or a comment as a whole, and stops at one with a line break in it. -/
theorem scans_skipped {c : CodePoint} {t : Text} (hc : c ≠ '\n') (hskipped : ∀ rest, skipped? true c (t ++ rest) =
    if ('\n' : CodePoint) ∈ t then none else some (some t.length)) : Scans (c :: t) := by
  intro depth offset rest
  rw [List.cons_append, closingFrom?.eq_def]
  dsimp only
  rw [if_neg fun h => hc h.2, hskipped]
  simp only [List.mem_cons, show ¬ ('\n' : CodePoint) = c from fun h => hc h.symm, false_or]
  by_cases hline : ('\n' : CodePoint) ∈ t
  · rw [if_pos hline, if_pos hline]
  · rw [if_neg hline, if_neg hline]
    dsimp only
    rw [closingFrom?_skip _ _ (by simp), List.drop_left, List.length_cons,
      show offset + 1 + t.length = offset + (t.length + 1) by omega]

theorem scans_literal {quote : Quote} {body : Text} (h : quote.Encloses body) :
    Scans (quote.point :: (body ++ [quote.point])) := by
  have hclosing : ∀ rest, closingIn? ['\\'] quote.point [] (body ++ [quote.point] ++ rest) = some body.length := by
    intro rest
    rw [List.append_assoc]
    exact h.closes [] rest rfl
  have hline : ('\n' : CodePoint) ∉ body ++ [quote.point] := by
    simp [h.not_mem_line, Ne.symm quote.point_ne_line]
  refine scans_skipped quote.point_ne_line fun rest => ?_
  have hlength : (body ++ [quote.point]).length = body.length + 1 := List.length_append
  have hquote : isQuote quote.point = true := by cases quote <;> rfl
  rw [skipped?, if_pos hquote, hclosing, Option.bind_some, ← hlength]
  dsimp only
  rw [List.take_left, if_neg hline]
  simp [hline]

end Bracket

/-! ## Gaps and items -/

/-- A line comment hides what comes behind it on the line. -/
theorem closingFrom?_note (depth offset : Nat) (note : Text) :
    closingFrom? true 0 depth offset ('/' :: '/' :: note) = none := by
  rw [closingFrom?.eq_def]
  rfl

theorem Gap.scans {gap : Text} (h : Gap gap) : Scans gap := by
  induction h with
  | nil => exact scans_nil
  | @space c gap hc _ ih =>
    have hblank : Scans [c] := scans_of_spaces (List.forall_mem_singleton.2 hc)
    exact hblank.append ih
  | @line note gap hnote _ ih =>
    intro depth offset rest
    rw [List.cons_append, List.cons_append, closingFrom?_note, if_pos (by simp)]
  | @block note gap hnote _ ih =>
    have hcomment : Scans ('/' :: ('*' :: (note ++ "*/"))) := by
      refine scans_skipped (by decide) fun rest => ?_
      have htail : Comment.blockTail? (('*' : CodePoint) :: (note ++ "*/") ++ rest) =
          some (('*' : CodePoint) :: (note ++ "*/")).length := by
        rw [Comment.blockTail?, List.cons_append, List.drop_succ_cons, List.drop_zero, List.append_assoc,
          indexOf?_note rest hnote, List.length_cons, List.length_append]
        rfl
      have hstarts : Comment.startsBlock '/' (('*' : CodePoint) :: (note ++ "*/") ++ rest) = true := rfl
      rw [skipped?, if_neg (by decide), if_neg (by simp [Comment.startsLine]), if_pos hstarts, htail,
        Option.bind_some, List.take_left]
      simp
    have hgap := hcomment.append ih
    rwa [List.cons_append, List.cons_append, List.append_assoc] at hgap

/-- Where the scan gets behind the last gap, that gap is closed and on one line. -/
theorem EndGap.gap_of_closingFrom? {t rest : Text} {depth offset : Nat} (h : EndGap t)
    (hfound : closingFrom? true 0 depth offset (t ++ rest) ≠ none) : Gap t ∧ ('\n' : CodePoint) ∉ t := by
  rcases h.gap_or_note with hgap | ⟨gap, note, hgap, -, rfl⟩
  · refine ⟨hgap, fun hline => hfound ?_⟩
    rw [hgap.scans, if_pos hline]
  · refine absurd ?_ hfound
    rw [List.append_assoc, hgap.scans, List.cons_append, List.cons_append, closingFrom?_note, ite_self]

theorem IsKey.scans {key : Text} (h : IsKey key) : Scans key := by
  cases h with
  | quoted hbody => exact scans_literal hbody
  | @bare c rest hc hrest =>
    refine scans_of_forall (p := CodePoint.isKeyPart) (List.forall_mem_cons.2 ⟨?_, hrest⟩) (by decide)
    rw [CodePoint.isKeyPart, CodePoint.isIdentifier_of_isIdentifierStart hc]
    rfl

theorem KeyForm.scans (key : KeyForm) : Scans key.text := by
  have hcolon : Scans [(':' : CodePoint)] := scans_of_forall (p := (· == ':')) (by decide) (by decide)
  exact key.isKey.scans.append
    ((scans_of_spaces key.before_space).append (hcolon.append (scans_of_spaces key.behind_space)))

/-- The scan passes over an item whose value is a literal. -/
theorem ItemForm.scans (form : ItemForm) (h : form.kind = .entry ∨ form.kind = .literal) : Scans form.text := by
  obtain ⟨key, value, comma, hcomma⟩ := form
  have hvalue : Scans value.text := by
    cases value with
    | literal quote body hbody => exact scans_literal hbody
    | object body hbody =>
      cases key with
      | none => rcases h with h | h <;> cases h
      | some key => rcases h with h | h <;> cases h
  have hkey : Scans (ItemForm.keyText ⟨key, value, comma, hcomma⟩) := by
    cases key with
    | none => exact scans_nil
    | some key => exact key.scans
  have hend : Scans (ItemForm.commaText ⟨key, value, comma, hcomma⟩) := by
    cases comma with
    | none => exact scans_nil
    | some blanks =>
      have hblanks : Scans blanks := scans_of_forall (hcomma blanks rfl) (by decide)
      exact hblanks.append (scans_of_forall (p := (· == ',')) (by decide) (by decide))
  exact hkey.append (hvalue.append hend)

/-- The scan passes over gaps and items in turn. -/
theorem scans_partsText {parts : List BlockPart}
    (h : ∀ part ∈ parts, part.form.kind = .entry ∨ part.form.kind = .literal) : Scans (partsText parts) := by
  induction parts with
  | nil => exact scans_nil
  | cons part rest ih =>
    obtain ⟨hpart, hrest⟩ := List.forall_mem_cons.1 h
    rw [partsText_cons]
    exact part.isGap.scans.append ((part.form.scans hpart).append (ih hrest))

end Bilingual

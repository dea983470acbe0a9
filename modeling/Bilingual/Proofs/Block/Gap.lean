import Bilingual.Block.Item
import Bilingual.Proofs.Search
import Mathlib.Data.List.TakeWhile
import Mathlib.Tactic.SplitIfs

set_option autoImplicit false

/-! # Gaps between items

What `ParsedBlock.gapLength` passes over is whitespace and closed comments (`Gap`), and it goes on behind a
gap whatever stands there (`Gap.length_append`). At the end of a body there may also be a line comment that
no line break closes (`EndGap`).

New lines can be put into a gap in front of a line break (`EndGap.gap_line`), unless that line break is inside a
block comment (`EndGap.exists_comment`). The comment then swallows the new lines (`EndGap.swallow`). -/

namespace Bilingual

open Text

/-- Whitespace and closed comments one behind the other. A line comment is closed by its line break. -/
inductive Gap : Text → Prop
  | nil : Gap []
  | space {c : CodePoint} {rest : Text} (hc : c.isSpace = true) (hrest : Gap rest) : Gap (c :: rest)
  | line {note rest : Text} (hnote : ('\n' : CodePoint) ∉ note) (hrest : Gap rest) :
      Gap ('/' :: '/' :: (note ++ ('\n' : CodePoint) :: rest))
  | block {note rest : Text} (hnote : indexOf? "*/" (note ++ "*/") = some note.length)
      (hrest : Gap rest) : Gap ('/' :: '*' :: (note ++ ("*/" ++ rest)))

/-- A text without a line break is all of its first line. -/
theorem forall_ne_line {t : Text} (h : ('\n' : CodePoint) ∉ t) :
    ∀ c ∈ t, decide (c ≠ ('\n' : CodePoint)) = true :=
  fun _ hc => decide_eq_true fun heq => h (heq ▸ hc)

namespace Comment

theorem eq_of_startsLine {c : CodePoint} {rest : Text} (h : startsLine c rest = true) :
    c = '/' ∧ ∃ note : Text, rest = ('/' : CodePoint) :: note := by
  unfold startsLine at h
  rw [Bool.and_eq_true, beq_iff_eq, beq_iff_eq] at h
  exact ⟨h.1, List.head?_eq_some_iff.1 h.2⟩

theorem eq_of_startsBlock {c : CodePoint} {rest : Text} (h : startsBlock c rest = true) :
    c = '/' ∧ ∃ note : Text, rest = ('*' : CodePoint) :: note := by
  unfold startsBlock at h
  rw [Bool.and_eq_true, beq_iff_eq, beq_iff_eq] at h
  exact ⟨h.1, List.head?_eq_some_iff.1 h.2⟩

@[simp] theorem length_blockEnd : (("*/" : String) : Text).length = 2 := rfl

end Comment

namespace ParsedBlock

/-! ## How long a gap is -/

theorem gapLength_skip {n : Nat} {t : Text} (h : n ≤ t.length) :
    gapLength n t = n + gapLength 0 (t.drop n) := by
  induction n generalizing t with
  | zero => rw [Nat.zero_add, List.drop_zero]
  | succ n ih =>
    cases t with
    | nil => cases h
    | cons c rest =>
      rw [gapLength, ih (Nat.le_of_succ_le_succ h), List.drop_succ_cons]
      omega

theorem gapLength_le (n : Nat) (t : Text) : gapLength n t ≤ t.length := by
  fun_induction gapLength n t <;> simp_all

theorem gapLength_space {c : CodePoint} (rest : Text) (h : c.isSpace = true) :
    gapLength 0 (c :: rest) = gapLength 0 rest + 1 := by
  rw [gapLength, if_pos h]

/-- No gap begins with a code point that is no whitespace and begins no closed comment. -/
theorem gapLength_cons_eq_zero_iff {c : CodePoint} {rest : Text} :
    gapLength 0 (c :: rest) = 0 ↔ c.isSpace = false ∧ Comment.startsLine c rest = false ∧
      (Comment.startsBlock c rest = true → Comment.blockTail? rest = none) := by
  rw [gapLength]
  split_ifs with hspace hline hblock
  · simp [hspace]
  · simp [hline]
  · cases htail : Comment.blockTail? rest <;> simp_all
  · simp_all

theorem gapLength_startsLine (rest : Text) :
    gapLength 0 ('/' :: '/' :: rest) = gapLength (Comment.lineTail ('/' :: rest)) ('/' :: rest) + 1 := by
  rw [gapLength, if_neg (by decide), if_pos (by rfl)]

theorem gapLength_line {note : Text} (rest : Text) (h : ('\n' : CodePoint) ∉ note) :
    gapLength 0 ('/' :: '/' :: (note ++ ('\n' : CodePoint) :: rest)) =
      note.length + 2 + gapLength 0 (('\n' : CodePoint) :: rest) := by
  have htail : Comment.lineTail ('/' :: (note ++ ('\n' : CodePoint) :: rest)) = note.length + 1 := by
    rw [Comment.lineTail, List.takeWhile_cons_of_pos (by decide), List.takeWhile_append_of_pos (forall_ne_line h),
      List.takeWhile_cons_of_neg (by decide), List.append_nil, List.length_cons]
  rw [gapLength_startsLine, htail, gapLength_skip (by rw [List.length_cons, List.length_append]; omega),
    List.drop_succ_cons, List.drop_left]
  omega

/-- A line comment at the end of the text needs no line break. -/
theorem gapLength_note {note : Text} (h : ('\n' : CodePoint) ∉ note) :
    gapLength 0 ('/' :: '/' :: note) = note.length + 2 := by
  have htail : Comment.lineTail ('/' :: note) = note.length + 1 := by
    rw [Comment.lineTail, List.takeWhile_cons_of_pos (by decide), List.takeWhile_eq_self_iff.2 (forall_ne_line h),
      List.length_cons]
  rw [gapLength_startsLine, htail, gapLength_skip (by rw [List.length_cons]), List.drop_succ_cons,
    List.drop_length]
  rfl

theorem gapLength_startsBlock {rest : Text} {n : Nat} (h : indexOf? "*/" rest = some n)
    (hn : n + 2 ≤ rest.length) :
    gapLength 0 ('/' :: '*' :: rest) = n + 4 + gapLength 0 (rest.drop (n + 2)) := by
  have htail : Comment.blockTail? ('*' :: rest) = some (n + 3) := by
    rw [Comment.blockTail?, List.drop_succ_cons, List.drop_zero, h]
    rfl
  rw [gapLength, if_neg (by decide), if_neg (by simp [Comment.startsLine]), if_pos (by rfl), htail]
  dsimp only
  rw [gapLength_skip (by rw [List.length_cons]; omega), List.drop_succ_cons]
  omega

theorem gapLength_startsBlock_none {rest : Text} (h : indexOf? "*/" rest = none) :
    gapLength 0 ('/' :: '*' :: rest) = 0 := by
  have htail : Comment.blockTail? ('*' :: rest) = none := by
    rw [Comment.blockTail?, List.drop_succ_cons, List.drop_zero, h]
    rfl
  rw [gapLength, if_neg (by decide), if_neg (by simp [Comment.startsLine]), if_pos (by rfl), htail]

end ParsedBlock

open ParsedBlock

/-- A comment is closed by the same mark whatever comes behind. -/
theorem indexOf?_note {note : Text} (rest : Text) (h : indexOf? "*/" (note ++ "*/") = some note.length) :
    indexOf? "*/" (note ++ ("*/" ++ rest)) = some note.length := by
  have hlength : (note ++ "*/" : Text).length = note.length + 2 := List.length_append
  refine indexOf?_of_take_eq (k := note.length + 2) ?_ (Nat.le_refl _) ?_ h
  · rw [← List.append_assoc note, List.take_append_of_le_length (Nat.le_of_eq hlength.symm)]
  · simp only [List.length_append, Comment.length_blockEnd]
    omega

theorem drop_note (note rest : Text) : (note ++ ("*/" ++ rest) : Text).drop (note.length + 2) = rest := by
  rw [← List.append_assoc]
  exact List.drop_left' List.length_append

/-- Behind a gap the next one goes on. -/
theorem Gap.length_append {gap : Text} (h : Gap gap) (rest : Text) :
    gapLength 0 (gap ++ rest) = gap.length + gapLength 0 rest := by
  induction h with
  | nil => rw [List.nil_append, List.length_nil, Nat.zero_add]
  | @space c gap hc _ ih =>
    rw [List.cons_append, gapLength_space _ hc, ih, List.length_cons]
    omega
  | @line note gap hnote _ ih =>
    rw [List.cons_append, List.cons_append, List.append_assoc, List.cons_append,
      gapLength_line _ hnote, gapLength_space _ (by decide), ih]
    simp only [List.length_cons, List.length_append]
    omega
  | @block note gap hnote _ ih =>
    rw [List.cons_append, List.cons_append, List.append_assoc, List.append_assoc,
      gapLength_startsBlock (indexOf?_note _ hnote), drop_note, ih]
    · simp only [List.length_cons, List.length_append, Comment.length_blockEnd]
      omega
    · simp only [List.length_append, Comment.length_blockEnd]
      omega

theorem Gap.append {gap other : Text} (h : Gap gap) (hother : Gap other) : Gap (gap ++ other) := by
  induction h with
  | nil => exact hother
  | space hc _ ih => exact .space hc ih
  | @line note gap hnote _ ih =>
    rw [List.cons_append, List.cons_append, List.append_assoc, List.cons_append]
    exact .line hnote ih
  | @block note gap hnote _ ih =>
    rw [List.cons_append, List.cons_append, List.append_assoc, List.append_assoc]
    exact .block hnote ih

theorem gap_of_spaces {blanks : Text} (h : ∀ c ∈ blanks, c.isSpace = true) : Gap blanks := by
  induction blanks with
  | nil => exact .nil
  | cons c rest ih =>
    obtain ⟨hc, hrest⟩ := List.forall_mem_cons.1 h
    exact .space hc (ih hrest)

/-! ## What a gap is made of -/

/-- A text with the end of a comment in it is a note, that end and what comes behind. -/
theorem eq_of_indexOf?_blockEnd {t : Text} {n : Nat} (h : indexOf? "*/" t = some n) :
    ∃ note rest, t = note ++ ("*/" ++ rest) ∧ note.length = n ∧
      indexOf? "*/" (note ++ "*/") = some note.length := by
  obtain ⟨rest, hrest⟩ := prefix_of_indexOf? h
  have hn : n + 2 ≤ t.length := add_length_le_of_indexOf? h
  have hlength : (t.take n).length = n := List.length_take_of_le (by omega)
  have hsplit : t = t.take n ++ ("*/" ++ rest) := by rw [hrest, List.take_append_drop]
  have hend : (t.take n ++ "*/" : Text).length = n + 2 := by
    rw [List.length_append, hlength, Comment.length_blockEnd]
  have htake : t.take (n + 2) = t.take n ++ "*/" :=
    calc t.take (n + 2) = (t.take n ++ "*/" ++ rest).take (n + 2) := by rw [List.append_assoc, ← hsplit]
      _ = t.take n ++ "*/" := List.take_left' hend
  refine ⟨t.take n, rest, hsplit, hlength, ?_⟩
  rw [hlength, ← htake]
  refine indexOf?_of_take_eq (k := n + 2) ?_ (Nat.le_refl _) ?_ h
  · rw [List.take_take, Nat.min_self]
  · rw [htake, hend]

/-- A text begins with a gap, and then there is a line comment without end or nothing more of a gap. -/
theorem exists_gap (t : Text) : ∃ gap rest : Text, t = gap ++ rest ∧ Gap gap ∧
    (gapLength 0 rest = 0 ∨ ∃ note : Text, ('\n' : CodePoint) ∉ note ∧
      rest = ('/' : CodePoint) :: ('/' : CodePoint) :: note) := by
  induction hsize : t.length using Nat.strong_induction_on generalizing t with
  | _ size ih =>
    cases t with
    | nil => exact ⟨[], [], rfl, .nil, .inl rfl⟩
    | cons c behind =>
      rw [List.length_cons] at hsize
      by_cases hspace : c.isSpace = true
      · obtain ⟨gap, rest, rfl, hgap, hrest⟩ := ih _ (by omega) behind rfl
        exact ⟨c :: gap, rest, rfl, .space hspace hgap, hrest⟩
      by_cases hline : Comment.startsLine c behind = true
      · obtain ⟨rfl, note, rfl⟩ := Comment.eq_of_startsLine hline
        by_cases hmem : ('\n' : CodePoint) ∈ note
        · obtain ⟨note, behind, rfl, hnote⟩ := List.eq_append_cons_of_mem hmem
          simp only [List.length_cons, List.length_append] at hsize
          obtain ⟨gap, rest, rfl, hgap, hrest⟩ := ih _ (by omega) behind rfl
          exact ⟨_, rest, by simp, .line hnote hgap, hrest⟩
        · exact ⟨[], _, rfl, .nil, .inr ⟨note, hmem, rfl⟩⟩
      by_cases hblock : Comment.startsBlock c behind = true
      · obtain ⟨rfl, behind, rfl⟩ := Comment.eq_of_startsBlock hblock
        cases hfound : indexOf? "*/" behind with
        | none => exact ⟨[], _, rfl, .nil, .inl (gapLength_startsBlock_none hfound)⟩
        | some n =>
          obtain ⟨note, behind, rfl, -, hnote⟩ := eq_of_indexOf?_blockEnd hfound
          simp only [List.length_cons, List.length_append] at hsize
          obtain ⟨gap, rest, rfl, hgap, hrest⟩ := ih _ (by omega) behind rfl
          exact ⟨_, rest, by simp, .block hnote hgap, hrest⟩
      · refine ⟨[], c :: behind, rfl, .nil, .inl ?_⟩
        rw [gapLength, if_neg hspace, if_neg hline, if_neg hblock]

/-- In front of something else than a gap there is a gap. -/
theorem exists_gap_of_lt {t : Text} (h : gapLength 0 t < t.length) :
    ∃ (gap : Text) (c : CodePoint) (rest : Text), t = gap ++ c :: rest ∧ Gap gap ∧
      gapLength 0 (c :: rest) = 0 := by
  obtain ⟨gap, rest, rfl, hgap, hrest⟩ := exists_gap t
  rw [hgap.length_append, List.length_append] at h
  rcases hrest with hrest | ⟨note, hnote, rfl⟩
  · cases rest with
    | nil => exact absurd h (Nat.lt_irrefl _)
    | cons c rest => exact ⟨gap, c, rest, rfl, hgap, hrest⟩
  · rw [gapLength_note hnote] at h
    exact absurd h (Nat.lt_irrefl _)

/-! ## Gaps at the end -/

/-- Whitespace and comments up to the end of a text, where a line comment may be without a line break. -/
def EndGap (t : Text) : Prop := gapLength 0 t = t.length

theorem Gap.endGap_append_iff {gap : Text} (h : Gap gap) (rest : Text) :
    EndGap (gap ++ rest) ↔ EndGap rest := by
  unfold EndGap
  rw [h.length_append, List.length_append]
  omega

theorem Gap.endGap {gap : Text} (h : Gap gap) : EndGap gap := by
  have hiff := h.endGap_append_iff []
  rw [List.append_nil] at hiff
  exact hiff.2 rfl

theorem EndGap.gap_or_note {t : Text} (h : EndGap t) : Gap t ∨ ∃ gap note : Text, Gap gap ∧
    ('\n' : CodePoint) ∉ note ∧ t = gap ++ ('/' : CodePoint) :: ('/' : CodePoint) :: note := by
  obtain ⟨gap, rest, rfl, hgap, hrest⟩ := exists_gap t
  rcases hrest with hrest | ⟨note, hnote, rfl⟩
  · have hempty : rest.length = 0 := ((hgap.endGap_append_iff _).1 h).symm.trans hrest
    rw [List.length_eq_zero_iff.1 hempty, List.append_nil]
    exact .inl hgap
  · exact .inr ⟨gap, note, hgap, hnote, rfl⟩

/-- A line break closes what is open at the end. -/
theorem EndGap.gap_line {t rest : Text} (h : EndGap t) (hrest : Gap rest) :
    Gap (t ++ ('\n' : CodePoint) :: rest) := by
  rcases h.gap_or_note with hgap | ⟨gap, note, hgap, hnote, rfl⟩
  · exact hgap.append (.space (by decide) hrest)
  · rw [List.append_assoc]
    exact hgap.append (.line hnote hrest)

/-- Behind a line break that closes what is open at the end of the line, the gap goes on. -/
theorem EndGap.line_iff {t : Text} (h : EndGap t) (rest : Text) :
    EndGap (t ++ ('\n' : CodePoint) :: rest) ↔ EndGap rest := by
  have hline := (h.gap_line .nil).endGap_append_iff rest
  rwa [List.append_assoc] at hline

/-! ## Line breaks in comments -/

theorem drop_behind_line (note rest : Text) (n : Nat) :
    (note ++ ('\n' : CodePoint) :: rest).drop (n + (note.length + 1)) = rest.drop n := by
  rw [List.drop_append, List.drop_eq_nil_of_le (by omega), List.nil_append,
    show n + (note.length + 1) - note.length = n + 1 by omega, List.drop_succ_cons]

/-- A block comment that is open in front of a line break has to be closed behind it. -/
theorem endGap_comment_iff {note rest : Text} (h : indexOf? "*/" note = none) :
    EndGap ('/' :: '*' :: (note ++ ('\n' : CodePoint) :: rest)) ↔
      ∃ n, indexOf? "*/" rest = some n ∧ EndGap (rest.drop (n + 2)) := by
  have hbarrier : indexOf? "*/" (note ++ ('\n' : CodePoint) :: rest) = _ :=
    indexOf?_barrier (by decide) note rest
  rw [h, Option.none_or] at hbarrier
  unfold EndGap
  cases hfound : indexOf? "*/" rest with
  | none =>
    rw [hfound] at hbarrier
    rw [gapLength_startsBlock_none hbarrier]
    constructor
    · intro h
      cases h
    · rintro ⟨n, hn, -⟩
      cases hn
  | some n =>
    rw [hfound] at hbarrier
    have hn : n + 2 ≤ rest.length := add_length_le_of_indexOf? hfound
    rw [gapLength_startsBlock hbarrier, show n + (note.length + 1) + 2 = n + 2 + (note.length + 1) by omega,
      drop_behind_line]
    · simp only [Option.some.injEq, exists_eq_left', List.length_cons, List.length_append, List.length_drop]
      omega
    · simp only [List.length_cons, List.length_append]
      omega

/-- In a gap with a line break, what is in front of the line break is a gap or ends in a block comment. -/
theorem EndGap.exists_comment {t rest : Text} (h : EndGap (t ++ ('\n' : CodePoint) :: rest)) :
    EndGap t ∨ ∃ gap note : Text, Gap gap ∧ indexOf? "*/" note = none ∧
      t = gap ++ ('/' : CodePoint) :: ('*' : CodePoint) :: note := by
  obtain ⟨gap, behind, rfl, hgap, hbehind | ⟨note, hnote, rfl⟩⟩ := exists_gap t
  · rw [List.append_assoc, hgap.endGap_append_iff] at h
    cases behind with
    | nil => exact .inl ((hgap.endGap_append_iff _).2 rfl)
    | cons c behind =>
      obtain ⟨hspace, hline, hblock⟩ := gapLength_cons_eq_zero_iff.1 hbehind
      -- without an open comment there would be no gap in front of the line break and behind either
      by_cases hopen : Comment.startsBlock c behind = true
      · obtain ⟨rfl, note, rfl⟩ := Comment.eq_of_startsBlock hopen
        exact .inr ⟨gap, note, hgap, Option.map_eq_none_iff.1 (hblock hopen), rfl⟩
      · have hzero : gapLength 0 (c :: (behind ++ ('\n' : CodePoint) :: rest)) = 0 := by
          refine gapLength_cons_eq_zero_iff.2 ⟨hspace, ?_, fun hstarts => absurd hstarts ?_⟩
          · cases behind with
            | nil => simp [Comment.startsLine]
            | cons d behind => exact hline
          · cases behind with
            | nil => simp [Comment.startsBlock]
            | cons d behind => exact hopen
        cases hzero.symm.trans h
  · exact .inl ((hgap.endGap_append_iff _).2 (gapLength_note hnote))

/-- A block comment that is open in front of a line break is so behind new lines too. -/
theorem EndGap.swallow {gap note rest lines : Text} (hgap : Gap gap) (hnote : indexOf? "*/" note = none)
    (hlines : ('*' : CodePoint) ∉ lines)
    (h : EndGap (gap ++ ('/' : CodePoint) :: '*' :: (note ++ ('\n' : CodePoint) :: rest))) :
    EndGap (gap ++ ('/' : CodePoint) :: '*' :: (note ++ ('\n' : CodePoint) :: (lines ++ ('\n' : CodePoint) :: rest))) := by
  rw [hgap.endGap_append_iff, endGap_comment_iff hnote] at h ⊢
  obtain ⟨n, hn, hrest⟩ := h
  refine ⟨n + (lines.length + 1), ?_, ?_⟩
  · rw [indexOf?_barrier (by decide) lines rest, indexOf?_eq_none_of_not_mem (by decide) hlines, hn]
    rfl
  · rw [show n + (lines.length + 1) + 2 = n + 2 + (lines.length + 1) by omega, drop_behind_line]
    exact hrest

end Bilingual

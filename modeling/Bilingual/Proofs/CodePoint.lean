import Bilingual.Text.Space
import Bilingual.Text.Word
import Mathlib.Tactic.SplitIfs

set_option autoImplicit false

/-! # Kinds of code points

No code point of an identifier is whitespace (`CodePoint.isIdentifier_of_isSpace`). Among the letters and
numbers beyond ASCII this is a fact about the table of ranges; everything else is a comparison of numbers. -/

namespace Bilingual.CodePoint

theorem eq_ofChar_iff {c : CodePoint} {d : Char} : c = ofChar d ↔ c.val = d.toNat := by
  constructor
  · rintro rfl
    rfl
  · intro h
    obtain ⟨val, hval⟩ := c
    exact (CodePoint.mk.injEq ..).symm ▸ h

/-- The whitespace beyond ASCII. -/
def wideSpaces : List Nat := [
  0x85, 0xA0, 0x1680, 0x2000, 0x2001, 0x2002, 0x2003, 0x2004, 0x2005, 0x2006, 0x2007, 0x2008, 0x2009,
  0x200A, 0x2028, 0x2029, 0x202F, 0x205F, 0x3000]

theorem isSpace_iff {c : CodePoint} : c.isSpace = true ↔
    (0x09 ≤ c.val ∧ c.val ≤ 0x0D) ∨ (0x1C ≤ c.val ∧ c.val ≤ 0x20) ∨ c.val ∈ wideSpaces := by
  simp only [isSpace, isWhiteSpace, wideSpaces, Bool.or_eq_true, Bool.and_eq_true, decide_eq_true_eq,
    beq_iff_eq, List.mem_cons, List.not_mem_nil, or_false]
  omega

theorem isIdentifierStart_iff {c : CodePoint} : c.isIdentifierStart = true ↔
    (0x41 ≤ c.val ∧ c.val ≤ 0x5A) ∨ (0x61 ≤ c.val ∧ c.val ≤ 0x7A) ∨ c.val = 0x5F ∨ c.val = 0x24 := by
  simp only [isIdentifierStart, isAsciiLetter, Bool.or_eq_true, Bool.and_eq_true, decide_eq_true_eq,
    beq_iff_eq, eq_ofChar_iff, or_assoc]
  rfl

theorem le_of_mem_wideSpaces {n : Nat} (h : n ∈ wideSpaces) : 0x80 ≤ n :=
  (by decide : ∀ n ∈ wideSpaces, 0x80 ≤ n) n h

theorem isIdentifier_of_isSpace {c : CodePoint} (h : c.isSpace = true) : c.isIdentifier = false := by
  have hdollar : c ≠ '$' := by
    rintro rfl
    exact absurd h (by decide)
  have hline : c ≠ '_' := by
    rintro rfl
    exact absurd h (by decide)
  rw [isIdentifier, beq_eq_false_iff_ne.2 hdollar, Bool.false_or, isWord]
  split_ifs with hascii
  · have hspace := isSpace_iff.1 h
    have hwide : c.val ∉ wideSpaces := fun hmem => absurd (le_of_mem_wideSpaces hmem) (by omega)
    simp only [hwide, or_false] at hspace
    simp only [Bool.eq_false_iff, ne_eq, isAsciiLetter, isAsciiDigit, Bool.or_eq_true, Bool.and_eq_true,
      decide_eq_true_eq, beq_iff_eq, hline, or_false]
    omega
  · have hmem : c.val ∈ wideSpaces := by
      have hspace := isSpace_iff.1 h
      rcases hspace with hspace | hspace | hspace
      · omega
      · omega
      · exact hspace
    exact (by decide +kernel : ∀ n ∈ wideSpaces, Text.inRanges n Text.wordRanges = false) c.val hmem

theorem isIdentifier_of_isIdentifierStart {c : CodePoint} (h : c.isIdentifierStart = true) :
    c.isIdentifier = true := by
  have hascii : c.val < 0x80 := by
    have hstart := isIdentifierStart_iff.1 h
    omega
  rw [isIdentifierStart, Bool.or_eq_true, Bool.or_eq_true] at h
  rw [isIdentifier, isWord, if_pos hascii]
  rcases h with (hletter | hline) | hdollar
  · simp [hletter]
  · simp [hline]
  · simp [hdollar]

theorem isSpace_of_isIdentifierStart {c : CodePoint} (h : c.isIdentifierStart = true) :
    c.isSpace = false := by
  have hstart := isIdentifierStart_iff.1 h
  rw [Bool.eq_false_iff, ne_eq, isSpace_iff]
  rintro (hspace | hspace | hspace)
  · omega
  · omega
  · have := le_of_mem_wideSpaces hspace
    omega

end Bilingual.CodePoint

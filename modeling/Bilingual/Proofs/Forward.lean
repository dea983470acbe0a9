import Bilingual.Proofs.Closing

set_option autoImplicit false

/-! # Scanning forwards

Where a body ends is found by counting the escapes in front of each delimiter backwards. A language defines it the
other way round: a scan goes from left to right, an escape takes the code point behind it along, and the first
delimiter that is met ends the body (`Literal.firstUnescaped?`). Both find the same place, because the run of escapes
behind the scan is even wherever the scan is not in the middle of an escape (`Literal.closing?_eq_firstUnescaped?`). -/

namespace Bilingual.Literal

/-- The offset of the first delimiter that a scan from the left meets, where an escape and the code point behind it are
passed over. -/
def firstUnescaped? (escape delimiter : CodePoint) : Text → Option Nat
  | [] => none
  | c :: rest =>
    if c = escape then
      match rest with
      | [] => none
      | _ :: behind => (firstUnescaped? escape delimiter behind).map (· + 2)
    else if c = delimiter then some 0
    else (firstUnescaped? escape delimiter rest).map (· + 1)

section Steps

variable {escape delimiter : CodePoint}

theorem firstUnescaped?_escape (escape delimiter c : CodePoint) (behind : Text) :
    firstUnescaped? escape delimiter (escape :: c :: behind) =
      (firstUnescaped? escape delimiter behind).map (· + 2) := by
  rw [firstUnescaped?, if_pos rfl]

theorem firstUnescaped?_delimiter (hne : delimiter ≠ escape) (rest : Text) :
    firstUnescaped? escape delimiter (delimiter :: rest) = some 0 := by
  rw [firstUnescaped?.eq_def]
  dsimp only
  rw [if_neg hne, if_pos rfl]

theorem firstUnescaped?_plain {c : CodePoint} (hescape : c ≠ escape) (hdelimiter : c ≠ delimiter) (rest : Text) :
    firstUnescaped? escape delimiter (c :: rest) = (firstUnescaped? escape delimiter rest).map (· + 1) := by
  rw [firstUnescaped?.eq_def]
  dsimp only
  rw [if_neg hescape, if_neg hdelimiter]

/-- Behind an even run of escapes the scan goes on as it is; behind an odd one it first passes over a code point. -/
theorem closingIn?_eq_firstUnescaped? (hne : delimiter ≠ escape) (before rest : Text) :
    (runBefore escape before % 2 = 0 →
        closingIn? [escape] delimiter before rest = firstUnescaped? escape delimiter rest) ∧
      (runBefore escape before % 2 = 1 → closingIn? [escape] delimiter before rest =
        rest.tail?.bind fun behind => (firstUnescaped? escape delimiter behind).map (· + 1)) := by
  induction rest generalizing before with
  | nil => exact ⟨fun _ => rfl, fun _ => rfl⟩
  | cons c rest ih =>
    obtain ⟨heven, hodd⟩ := ih (c :: before)
    constructor
    · intro hrun
      by_cases hescape : c = escape
      · -- the escape makes the run odd, so the scan passes over what comes next
        subst hescape
        rw [runBefore_cons_self] at hodd
        rw [closingIn?_of_not rest fun hc => hne hc.1.symm, hodd (by omega)]
        cases rest with
        | nil => rw [firstUnescaped?, if_pos rfl]; rfl
        | cons d behind =>
          rw [firstUnescaped?_escape]
          show Option.map _ (Option.map _ _) = _
          rw [Option.map_map]
          rfl
      · rw [runBefore_cons_of_ne before hescape] at heven
        by_cases hdelimiter : c = delimiter
        · subst hdelimiter
          rw [closingIn?_of_even rest hrun, firstUnescaped?_delimiter hne]
        · rw [closingIn?_of_not rest fun hc => hdelimiter hc.1, heven rfl,
            firstUnescaped?_plain hescape hdelimiter]
    · intro hrun
      -- whatever is passed over, the run in front of what comes next is even
      have hnext : runBefore escape (c :: before) % 2 = 0 := by
        by_cases hescape : c = escape
        · rw [hescape, runBefore_cons_self]
          omega
        · rw [runBefore_cons_of_ne before hescape]
      rw [closingIn?_of_not rest fun hc => by omega, heven hnext]
      rfl

end Steps

/-- From any start on, a body ends at the first delimiter that a scan from the left meets, and has no end when that
scan comes to the end of the text. With backslashes as escapes this is the span that is read, and the error without an
end is the only one. -/
theorem closing?_eq_firstUnescaped? {escape delimiter : CodePoint} (hne : delimiter ≠ escape) (text : Text)
    (start : Nat) :
    closing? text delimiter start [escape] =
        (firstUnescaped? escape delimiter (text.drop start)).map (start + ·) ∧
      (escape = '\\' → bodySpan text delimiter start =
        match firstUnescaped? escape delimiter (text.drop start) with
        | some n => .ok (start, start + n)
        | none => .error (.unterminated delimiter start)) := by
  have hscan : closing? text delimiter start [escape] =
      (firstUnescaped? escape delimiter (text.drop start)).map (start + ·) := by
    rw [closing?, (closingIn?_eq_firstUnescaped? hne [] _).1 rfl]
  refine ⟨hscan, ?_⟩
  rintro rfl
  unfold bodySpan
  rw [hscan]
  cases firstUnescaped? ('\\' : Char) delimiter (text.drop start) <;> rfl

/-- Three backslashes in front of a quote, right behind a quote that is escaped by a fourth one. -/
def runsSample : Text := "\\'\\\\\\'' rest"

/-- From behind the escaped quote on, the second of the next two quotes ends the body, and from there on the last
quote begins one without an end. -/
theorem closing?_eq_firstUnescaped?_runs : ('\'' : CodePoint) ≠ '\\' ∧
    closing? runsSample '\'' 2 = some 6 ∧ bodySpan runsSample '\'' 2 = .ok (2, 6) ∧
      bodySpan runsSample '\'' 7 = .error (.unterminated '\'' 7) := by
  have hne : ('\'' : CodePoint) ≠ '\\' := by decide
  obtain ⟨hclosing, hspan⟩ := closing?_eq_firstUnescaped? hne runsSample 2
  obtain ⟨-, hnone⟩ := closing?_eq_firstUnescaped? hne runsSample 7
  have hfirst : firstUnescaped? '\\' '\'' (runsSample.drop 2) = some 4 := by decide +kernel
  have hlast : firstUnescaped? '\\' '\'' (runsSample.drop 7) = none := by decide +kernel
  rw [hclosing, hspan rfl, hnone rfl, hfirst, hlast]
  exact ⟨hne, rfl, rfl, rfl⟩

end Bilingual.Literal

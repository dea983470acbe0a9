import Bilingual.Proofs.Block.Locate
import Bilingual.Proofs.Block.Scan
import Mathlib.Logic.Function.Iterate
import Mathlib.Logic.Relation

set_option autoImplicit false

/-! # What the scan for a closing bracket comes to

On its way to a closing bracket the scan comes to some offsets (`Bracket.Meets`), and the others lie in literals
and comments that it passes over (`Bracket.Hides`). In front of the bracket that it ends at there is no third kind
of offset (`Bracket.meets_or_hides`), and from an offset that it comes to the scan goes on as if it began there
(`Bracket.closing?_of_leads`). -/

namespace Bilingual.Bracket

/-- How many brackets are open behind a code point that begins no literal and no comment; none behind the bracket
that the scan ends at. -/
def depthBehind? (c : CodePoint) (depth : Nat) : Option Nat :=
  if isOpening c then some (depth + 1)
  else if isClosing c then
    match depth with
    | 0 => none
    | depth + 1 => some depth
  else some depth

/-- The next offset that the scan comes to, from one with a number of brackets open in front of it. -/
def next? (text : Text) (place : Nat × Nat) : Option (Nat × Nat) := do
  let c ← text[place.1]?
  match ← skipped? false c (text.drop (place.1 + 1)) with
  | some n => return (place.1 + 1 + n, place.2)
  | none => return (place.1 + 1, ← depthBehind? c place.2)

/-- From one place the scan comes to another one. -/
def Leads (text : Text) : Nat × Nat → Nat × Nat → Prop :=
  Relation.ReflTransGen fun place behind => next? text place = some behind

/-- The scan that begins at an offset comes to another one. -/
def Meets (text : Text) (start offset : Nat) : Prop := ∃ depth, Leads text (start, 0) (offset, depth)

/-- An offset lies in a literal or comment that the scan passes over, behind the code point which that begins
with. -/
def Hides (text : Text) (start offset : Nat) : Prop :=
  ∃ (first n : Nat) (c : CodePoint), Meets text start first ∧ text[first]? = some c ∧
    skipped? false c (text.drop (first + 1)) = some (some n) ∧ first < offset ∧ offset ≤ first + n

variable {text : Text} {start offset stop depth : Nat}

/-! ## One step -/

theorem next?_of_skipped {c : CodePoint} {n : Nat} (hc : text[offset]? = some c)
    (hskipped : skipped? false c (text.drop (offset + 1)) = some (some n)) (depth : Nat) :
    next? text (offset, depth) = some (offset + 1 + n, depth) := by
  simp [next?, hc, hskipped]

theorem next?_of_plain {c : CodePoint} (hc : text[offset]? = some c)
    (hskipped : skipped? false c (text.drop (offset + 1)) = some none) (depth : Nat) :
    next? text (offset, depth) = (depthBehind? c depth).map fun next => (offset + 1, next) := by
  simp only [next?, hc, hskipped, Option.bind_eq_bind, Option.bind_some]
  cases depthBehind? c depth <;> rfl

/-- A step goes behind a code point that begins nothing, or behind a literal or comment. -/
theorem next?_cases {place behind : Nat × Nat} (h : next? text place = some behind) :
    ∃ c, text[place.1]? = some c ∧
      ((∃ n, skipped? false c (text.drop (place.1 + 1)) = some (some n) ∧ behind = (place.1 + 1 + n, place.2)) ∨
        ∃ next, skipped? false c (text.drop (place.1 + 1)) = some none ∧ depthBehind? c place.2 = some next ∧
          behind = (place.1 + 1, next)) := by
  obtain ⟨c, hc, h⟩ := Option.bind_eq_some_iff.1 h
  obtain ⟨token, htoken, h⟩ := Option.bind_eq_some_iff.1 h
  refine ⟨c, hc, ?_⟩
  cases token with
  | some n => exact .inl ⟨n, htoken, (Option.some.inj h).symm⟩
  | none =>
    obtain ⟨next, hnext, h⟩ := Option.bind_eq_some_iff.1 h
    exact .inr ⟨next, htoken, hnext, (Option.some.inj h).symm⟩

theorem lt_of_next? {place behind : Nat × Nat} (h : next? text place = some behind) : place.1 < behind.1 := by
  obtain ⟨c, -, ⟨n, -, rfl⟩ | ⟨next, -, -, rfl⟩⟩ := next?_cases h <;> dsimp only <;> omega

theorem drop_of_getElem? {c : CodePoint} (h : text[offset]? = some c) :
    text.drop offset = c :: text.drop (offset + 1) := by
  obtain ⟨hlt, rfl⟩ := List.getElem?_eq_some_iff.1 h
  exact List.drop_eq_getElem_cons hlt

/-- What the plain scan passes over. -/
theorem skipped?_false (c : CodePoint) (rest : Text) : skipped? false c rest =
    if isQuote c then (Literal.closingIn? ['\\'] c [] rest).map fun n => some (n + 1)
    else if Comment.startsLine c rest then some (some (Comment.lineTail rest))
    else if Comment.startsBlock c rest then (Comment.blockTail? rest).map some
    else some none := by
  simp only [skipped?, Bool.false_and, Bool.false_eq_true, if_false, Option.map_eq_bind]
  rfl

theorem le_length_of_skipped? {c : CodePoint} {rest : Text} {n : Nat}
    (h : skipped? false c rest = some (some n)) : n ≤ rest.length := by
  rw [skipped?_false] at h
  split_ifs at h with hquote hline hblock
  · obtain ⟨m, hm, heq⟩ := Option.map_eq_some_iff.1 h
    cases heq
    exact Literal.lt_length_of_closingIn? hm
  · cases h
    exact (List.takeWhile_prefix _).length_le
  · obtain ⟨m, hm, heq⟩ := Option.map_eq_some_iff.1 h
    cases heq
    obtain ⟨i, hi, rfl⟩ := Option.map_eq_some_iff.1 hm
    have hle := Text.add_length_le_of_indexOf? hi
    have hneedle : (Text.ofString "*/").length = 2 := rfl
    rw [List.length_drop, hneedle] at hle
    omega
  · cases h

/-- One step of the scan, from where nothing is passed over. -/
theorem closingFrom?_step {singleLine : Bool} {c : CodePoint} (hline : singleLine = true → c ≠ '\n') (rest : Text)
    (depth offset : Nat) :
    closingFrom? singleLine 0 depth offset (c :: rest) =
      (match skipped? singleLine c rest with
        | none => none
        | some (some n) => closingFrom? singleLine n depth (offset + 1) rest
        | some none => match depthBehind? c depth with
          | some next => closingFrom? singleLine 0 next (offset + 1) rest
          | none => some offset) := by
  rw [closingFrom?.eq_def]
  dsimp only
  rw [if_neg fun h => hline h.1 h.2]
  unfold depthBehind?
  rcases skipped? singleLine c rest with _ | _ | n
  · rfl
  · dsimp only
    split_ifs
    · rfl
    · cases depth <;> rfl
    · rfl
  · rfl

/-- One step of the plain scan. -/
theorem closingFrom?_plainStep (c : CodePoint) (rest : Text) (depth offset : Nat) :
    closingFrom? false 0 depth offset (c :: rest) =
      (match skipped? false c rest with
        | none => none
        | some (some n) => closingFrom? false n depth (offset + 1) rest
        | some none => match depthBehind? c depth with
          | some next => closingFrom? false 0 next (offset + 1) rest
          | none => some offset) := closingFrom?_step (by simp) rest depth offset

/-- Behind a code point that begins nothing the scan goes on, unless it is the bracket that the scan ends at. -/
theorem closingFrom?_plain {c : CodePoint} {rest : Text} (depth offset : Nat)
    (hskipped : skipped? false c rest = some none) : closingFrom? false 0 depth offset (c :: rest) =
      (match depthBehind? c depth with
        | some next => closingFrom? false 0 next (offset + 1) rest
        | none => some offset) := by
  rw [closingFrom?_plainStep, hskipped]

theorem closingFrom?_skipped {c : CodePoint} {rest : Text} {n : Nat} (depth offset : Nat)
    (hskipped : skipped? false c rest = some (some n)) : closingFrom? false 0 depth offset (c :: rest) =
      closingFrom? false 0 depth (offset + 1 + n) (rest.drop n) := by
  rw [closingFrom?_plainStep, hskipped]
  exact closingFrom?_skip depth (offset + 1) (le_length_of_skipped? hskipped)

theorem closingFrom?_of_next? {place behind : Nat × Nat} (h : next? text place = some behind) :
    closingFrom? false 0 place.2 place.1 (text.drop place.1) =
      closingFrom? false 0 behind.2 behind.1 (text.drop behind.1) := by
  obtain ⟨c, hc, ⟨n, hskipped, rfl⟩ | ⟨next, hskipped, hnext, rfl⟩⟩ := next?_cases h
  · rw [drop_of_getElem? hc, closingFrom?_skipped _ _ hskipped, List.drop_drop]
  · rw [drop_of_getElem? hc, closingFrom?_plain _ _ hskipped, hnext]

/-! ## All of the scan -/

/-- From an offset that it comes to the scan goes on as if it began there. -/
theorem closing?_of_leads {place : Nat × Nat} (h : Leads text (start, 0) place) :
    closing? text start none false = closingFrom? false 0 place.2 place.1 (text.drop place.1) := by
  induction h with
  | refl => simp [closing?, Text.slice]
  | tail _ hnext ih => rw [ih, closingFrom?_of_next? hnext]

/-- Where so many steps come to. -/
theorem leads_of_iterate {place behind : Nat × Nat} {n : Nat}
    (h : (Option.bind · (next? text))^[n] (some place) = some behind) : Leads text place behind := by
  induction n generalizing place with
  | zero =>
    cases h
    exact .refl
  | succ n ih =>
    rw [Function.iterate_succ_apply, Option.bind_some] at h
    cases hnext : next? text place with
    | none =>
      have hnone : ∀ m, (Option.bind · (next? text))^[m] none = none := fun m => Function.iterate_fixed rfl m
      rw [hnext, hnone] at h
      cases h
    | some next =>
      rw [hnext] at h
      exact .head hnext (ih h)

theorem Leads.le {place behind : Nat × Nat} (h : Leads text place behind) : place.1 ≤ behind.1 := by
  induction h with
  | refl => exact Nat.le_refl _
  | tail _ hnext ih => exact Nat.le_trans ih (Nat.le_of_lt (lt_of_next? hnext))

/-- What the scan comes to is not behind the bracket that it ends at. -/
theorem Meets.le_closing (h : Meets text start offset) (hstop : closing? text start none false = some stop) :
    offset ≤ stop := by
  obtain ⟨depth, hleads⟩ := h
  rw [closing?_of_leads hleads] at hstop
  obtain ⟨before, behind, c, -, rfl, -⟩ := exists_of_closingFrom? hstop
  exact Nat.le_add_right offset before.length

/-- A literal or comment that begins where the scan comes to is passed over as a whole. -/
theorem Meets.skip {c : CodePoint} {n : Nat} (h : Meets text start offset) (hc : text[offset]? = some c)
    (hskipped : skipped? false c (text.drop (offset + 1)) = some (some n)) : Meets text start (offset + 1 + n) := by
  obtain ⟨depth, hleads⟩ := h
  exact ⟨depth, hleads.tail (next?_of_skipped hc hskipped depth)⟩

/-- In front of the bracket that it ends at the scan comes to every offset that it does not pass over. -/
theorem meets_or_hides (hstop : closing? text start none false = some stop) (hstart : start ≤ offset)
    (hoffset : offset ≤ stop) : Meets text start offset ∨ Hides text start offset := by
  induction offset, hstart using Nat.le_induction with
  | base => exact .inl ⟨0, .refl⟩
  | succ offset hstart ih =>
    rcases ih (by omega) with hmeets | ⟨first, n, c, hmeets, hc, hskipped, hfirst, hlast⟩
    · obtain ⟨depth, hleads⟩ := hmeets
      have hscan := hstop
      rw [closing?_of_leads hleads] at hscan
      cases hc : text[offset]? with
      | none =>
        rw [List.drop_eq_nil_of_le (List.getElem?_eq_none_iff.1 hc)] at hscan
        simp [closingFrom?] at hscan
      | some c =>
        rw [drop_of_getElem? hc] at hscan
        rcases hskipped : skipped? false c (text.drop (offset + 1)) with _ | _ | _ | n
        · rw [closingFrom?.eq_def] at hscan
          simp [hskipped] at hscan
        · rw [closingFrom?_plain _ _ hskipped] at hscan
          cases hnext : depthBehind? c depth with
          | none =>
            -- the scan ends here, and not further right
            simp only [hnext, Option.some.injEq] at hscan
            omega
          | some next => exact .inl ⟨next, hleads.tail (by rw [next?_of_plain hc hskipped, hnext]; rfl)⟩
        · exact .inl (Meets.skip ⟨depth, hleads⟩ hc hskipped)
        · exact .inr ⟨offset, n + 1, c, ⟨depth, hleads⟩, hc, hskipped, by omega, by omega⟩
    · by_cases hin : offset + 1 ≤ first + n
      · exact .inr ⟨first, n, c, hmeets, hc, hskipped, by omega, hin⟩
      · -- the literal or comment ends here
        obtain rfl : offset = first + n := by omega
        have hbehind := hmeets.skip hc hskipped
        rw [Nat.add_right_comm] at hbehind
        exact .inl hbehind

/-- The scan has one way to go, so it does not pass over what it comes to. -/
theorem Meets.not_hides (h : Meets text start offset) : ¬ Hides text start offset := by
  rintro ⟨first, n, c, ⟨depth, hfirst⟩, hc, hskipped, hlt, hle⟩
  obtain ⟨depth', hoffset⟩ := h
  have hunique : Relator.RightUnique fun place behind => next? text place = some behind := by
    intro place behind behind' h h'
    exact Option.some.inj (h.symm.trans h')
  rcases Relation.ReflTransGen.total_of_right_unique hunique hfirst hoffset with hleads | hleads
  · rcases Relation.ReflTransGen.cases_head hleads with heq | ⟨behind, hnext, hrest⟩
    · have : first = offset := congrArg Prod.fst heq
      omega
    · rw [next?_of_skipped hc hskipped] at hnext
      have hbehind := Leads.le hrest
      rw [← Option.some.inj hnext] at hbehind
      dsimp only at hbehind
      omega
  · have := Leads.le hleads
    dsimp only at this
    omega

/-- A template that begins where the scan comes to is passed over as a whole. -/
theorem Meets.template {closed : Nat} (h : Meets text start offset) (hbacktick : text[offset]? = some '\x60')
    (hclosed : Literal.closing? text '\x60' (offset + 1) = some closed) : Meets text start (closed + 1) := by
  obtain ⟨n, hn, rfl⟩ := Option.map_eq_some_iff.1 hclosed
  have hskipped : skipped? false '\x60' (text.drop (offset + 1)) = some (some (n + 1)) := by
    have hquote : isQuote '\x60' = true := by decide
    simp only [skipped?, hquote, if_true, hn, Option.bind_some, Bool.false_and, Bool.false_eq_true, if_false]
  exact h.skip hbacktick hskipped

end Bilingual.Bracket

import Bilingual.Proofs.Document
import Bilingual.Proofs.Forward
import Bilingual.Proofs.Pattern.Leftmost
import Bilingual.Proofs.Search

set_option autoImplicit false

/-! # The search for a template

The search for the template of a locale reads over the templates of other locales. It is told here without a bound on
its steps (`Document.Search`). Each step takes the backtick that opens a template and the one that closes it, so from
any cursor on there is a search, its cursor increases from step to step, and it has no more steps than there are
backticks (`Document.Search.two_mul_length_le`); with a bound of as many steps as the text is long it is the same search
(`Document.Search.templateFrom_eq`). What is found is a template with the label of the locale
(`Document.Search.template`), and the only failure is that of a template that is not closed. -/

namespace Bilingual

namespace Text

/-- How many backticks a text has. -/
def backticks (t : Text) : Nat := t.count ('\x60' : CodePoint)

theorem backticks_le_length (t : Text) : backticks t ≤ t.length := List.count_le_length

theorem backticks_drop_le (t : Text) (n : Nat) : backticks (t.drop n) ≤ backticks t :=
  (List.drop_sublist n t).count_le _

/-- Behind a backtick there is one less than in front of it. -/
theorem backticks_drop_lt {t : Text} {start n : Nat} (h : t[n]? = some ('\x60' : CodePoint)) (hstart : start ≤ n) :
    backticks (t.drop (n + 1)) < backticks (t.drop start) := by
  obtain ⟨hlt, hget⟩ := List.getElem?_eq_some_iff.1 h
  have hcount : backticks (t.drop n) = backticks (t.drop (n + 1)) + 1 := by
    rw [List.drop_eq_getElem_cons hlt, hget]
    exact List.count_cons_self
  have hle := backticks_drop_le (t.drop start) (n - start)
  rw [List.drop_drop, Nat.add_sub_cancel' hstart] at hle
  omega

end Text

/-- A body has no delimiter in it that is not escaped. -/
theorem Literal.firstUnescaped?_slice {text : Text} {delimiter : CodePoint} {start stop : Nat} (hne : delimiter ≠ '\\')
    (h : closing? text delimiter start = some stop) : firstUnescaped? '\\' delimiter (text.slice start stop) = none := by
  obtain ⟨n, hn, rfl⟩ := Option.map_eq_some_iff.1 h
  have hslice : text.slice start (start + n) = (text.drop start).take n := by
    rw [Text.slice, List.drop_take, Nat.add_sub_cancel_left]
  rw [hslice, ← (closingIn?_eq_firstUnescaped? hne [] _).1 rfl, closingIn?_window, hn]
  simp

theorem Literal.firstUnescaped?_drop {text : Text} {delimiter : CodePoint} {start : Nat} (hne : delimiter ≠ '\\')
    (h : closing? text delimiter start = none) : firstUnescaped? '\\' delimiter (text.drop start) = none := by
  rw [← (closingIn?_eq_firstUnescaped? hne [] _).1 rfl]
  exact Option.map_eq_none_iff.1 h

namespace Document

/-- A template with a label opens in front of an offset: the label, where no identifier ends, a colon with whitespace
around it and a backtick. -/
structure Labelled (text label : Text) (first opened : Nat) : Prop where
  wordStart : (text.before? first).any CodePoint.isIdentifier = false
  name : ∃ c rest, label = c :: rest ∧ (c.isAsciiLetter || c == '_') = true ∧ ∀ d ∈ rest, (d.isWord || d == '-') = true
  written : ∃ blanks blanks' : Text, (∀ c ∈ blanks, c.isSpace = true) ∧ (∀ c ∈ blanks', c.isSpace = true) ∧
    text.slice first opened = label ++ blanks ++ (':' : CodePoint) :: blanks' ++ [('\x60' : CodePoint)]

/-- A template between two offsets of a text: in front of its body stands what opens it, with the given label as the
first that is found from some cursor on, and its body reaches up to a backtick without one in it that is not escaped. -/
structure Template (text label : Text) (start stop : Nat) (span : Nat × Nat) : Prop where
  found : ∃ cursor first, start ≤ cursor ∧ cursor ≤ first ∧ first + 1 < span.1 ∧ Labelled text label first span.1 ∧
    Recogniser.templateOpening.find? text cursor stop = some (first, label, span.1)
  opening : text[span.1 - 1]? = some ('\x60' : CodePoint)
  opened_le : span.1 ≤ stop
  ordered : span.1 ≤ span.2
  plain : Literal.firstUnescaped? '\\' '\x60' (text.slice span.1 span.2) = none
  closing : text[span.2]? = some ('\x60' : CodePoint)

/-- A search for the template of a locale from a cursor on. Each of its steps reads over the template of another locale;
the cursor behind that is what is kept of the step. -/
inductive Search (text locale : Text) (stop : Nat) : Nat → List Nat → Except Failure (Option (Nat × Nat)) → Prop
  /-- No template opens any more. -/
  | absent {cursor : Nat} (hopening : Recogniser.templateOpening.find? text cursor stop = none) :
      Search text locale stop cursor [] (.ok none)
  /-- The next template is not closed. -/
  | unclosed {cursor first opened : Nat} {label : Text}
      (hopening : Recogniser.templateOpening.find? text cursor stop = some (first, label, opened))
      (hclosing : Literal.closing? text '\x60' opened = none) :
      Search text locale stop cursor [] (.error (.unterminated '\x60' opened))
  /-- The next template is that of the locale. -/
  | found {cursor first opened closed : Nat}
      (hopening : Recogniser.templateOpening.find? text cursor stop = some (first, locale, opened))
      (hclosing : Literal.closing? text '\x60' opened = some closed) :
      Search text locale stop cursor [] (.ok (some (opened, closed)))
  /-- The next template is that of another locale. -/
  | skip {cursor first opened closed : Nat} {label : Text} {steps : List Nat}
      {result : Except Failure (Option (Nat × Nat))}
      (hopening : Recogniser.templateOpening.find? text cursor stop = some (first, label, opened))
      (hlabel : label ≠ locale) (hclosing : Literal.closing? text '\x60' opened = some closed)
      (hrest : Search text locale stop (closed + 1) steps result) :
      Search text locale stop cursor ((closed + 1) :: steps) result

variable {text locale label : Text} {start stop cursor first opened closed : Nat} {steps : List Nat}
  {result : Except Failure (Option (Nat × Nat))} {span : Nat × Nat}

/-! ## What one step takes -/

/-- What is found to open a template is its label and what stands between that and its body. -/
theorem labelled_of_find? (h : Recogniser.templateOpening.find? text cursor stop = some (first, label, opened)) :
    cursor ≤ first ∧ first + 1 < opened ∧ Labelled text label first opened := by
  obtain ⟨hfirst, -, after, hread, rfl⟩ := Recogniser.first?_of_find? h
  have hread := Recogniser.mem_run_of_first? hread
  obtain ⟨hstart, hname, blanks, blanks', hblanks, hblanks', hrest⟩ := Recogniser.written_of_mem_templateOpening hread
  have hin : (Cursor.ofWindow text first stop).In text stop := Cursor.ofWindow_in fun hnil => by simp [hrest] at hnil
  have hafter := (Recogniser.forward_templateOpening _ _ _ hin _ _ hread).1
  obtain ⟨written, hwritten⟩ :
      ∃ t : Text, t = label ++ blanks ++ (':' : CodePoint) :: blanks' ++ [('\x60' : CodePoint)] := ⟨_, rfl⟩
  have hrest : (Cursor.ofWindow text first stop).rest = written ++ after.rest := by
    rw [hrest, hwritten]
    simp
  have hoffset : after.offset = first + written.length := by
    have hlength := hin.offset_add_length.trans hafter.offset_add_length.symm
    rw [hrest, List.length_append] at hlength
    have hlength : first + (written.length + after.rest.length) = after.offset + after.rest.length := hlength
    omega
  have hslice : text.slice first after.offset = written := by
    obtain ⟨behind, hbehind⟩ := text.slice_prefix first stop
    have hdrop : text.drop first = written ++ (after.rest ++ behind) := by
      rw [← List.append_assoc, ← hrest]
      exact hbehind.symm
    rw [hoffset, Text.slice_of_drop hdrop]
  have hlong : 1 < written.length := by
    rw [hwritten]
    simp only [List.length_append, List.length_cons, List.length_nil]
    omega
  exact ⟨hfirst, by omega, hstart, hname, blanks, blanks', hblanks, hblanks', hslice.trans hwritten⟩

/-- A template ends at a backtick. -/
theorem closing_of_closing? (h : Literal.closing? text '\x60' opened = some closed) :
    opened ≤ closed ∧ text[closed]? = some ('\x60' : CodePoint) := by
  have hin : (Body.ofTemplate (opened, closed)).In text := h
  obtain ⟨hordered, -, -, behind, hbehind⟩ := hin.exists_behind
  have hbehind : text.drop closed = ('\x60' : CodePoint) :: behind := hbehind
  refine ⟨hordered, ?_⟩
  rw [← List.head?_drop, hbehind]
  rfl

/-- Behind the backtick that opens a template there is one backtick less. -/
theorem count_opening (h : Recogniser.templateOpening.find? text cursor stop = some (first, label, opened)) :
    Text.backticks (text.drop opened) < Text.backticks (text.drop cursor) := by
  obtain ⟨hlt, -, hopened⟩ := Recogniser.opened_of_find? h
  have hcount := Text.backticks_drop_lt hopened.backtick (Nat.le_sub_one_of_lt hlt)
  rwa [Nat.sub_add_cancel hopened.pos] at hcount

/-- A template that is read over moves the cursor on, past two backticks. -/
theorem count_skip (h : Recogniser.templateOpening.find? text cursor stop = some (first, label, opened))
    (hclosing : Literal.closing? text '\x60' opened = some closed) :
    cursor < closed + 1 ∧ Text.backticks (text.drop (closed + 1)) + 2 ≤ Text.backticks (text.drop cursor) := by
  obtain ⟨hordered, hbacktick⟩ := closing_of_closing? hclosing
  have hopened := (Recogniser.opened_of_find? h).1
  have hopening := count_opening h
  have hclosed := Text.backticks_drop_lt hbacktick hordered
  exact ⟨by omega, by omega⟩

namespace Search

/-! ## Searches end -/

/-- The cursor increases from step to step. -/
theorem increasing (h : Search text locale stop cursor steps result) : (cursor :: steps).Pairwise (· < ·) := by
  induction h with
  | absent | unclosed | found => exact List.pairwise_singleton _ _
  | skip hopening _ hclosing _ ih =>
    obtain ⟨hlt, -⟩ := count_skip hopening hclosing
    refine List.pairwise_cons.2 ⟨List.forall_mem_cons.2 ⟨hlt, fun next hnext => ?_⟩, ih⟩
    exact Nat.lt_trans hlt ((List.pairwise_cons.1 ih).1 next hnext)

/-- A search takes two backticks with each step, and another one where a template ends it. -/
theorem two_mul_length_le (h : Search text locale stop cursor steps result) :
    2 * steps.length ≤ Text.backticks (text.drop cursor) ∧
      (result ≠ .ok none → 2 * steps.length < Text.backticks (text.drop cursor)) := by
  induction h with
  | absent => exact ⟨Nat.zero_le _, fun hresult => absurd rfl hresult⟩
  | unclosed hopening | found hopening =>
    have hpos := Nat.lt_of_le_of_lt (Nat.zero_le _) (count_opening hopening)
    exact ⟨Nat.zero_le _, fun _ => hpos⟩
  | skip hopening _ hclosing _ ih =>
    obtain ⟨-, hcount⟩ := count_skip hopening hclosing
    obtain ⟨hle, hlt⟩ := ih
    rw [List.length_cons]
    exact ⟨by omega, fun hresult => by have := hlt hresult; omega⟩

/-- From every cursor on there is a search. -/
theorem exists_search (text locale : Text) (stop cursor : Nat) :
    ∃ steps result, Search text locale stop cursor steps result := by
  -- by the number of backticks that are left
  induction hcount : Text.backticks (text.drop cursor) using Nat.strong_induction_on generalizing cursor with
  | _ n ih =>
    cases hopening : Recogniser.templateOpening.find? text cursor stop with
    | none => exact ⟨_, _, .absent hopening⟩
    | some place =>
      obtain ⟨first, label, opened⟩ := place
      cases hclosing : Literal.closing? text '\x60' opened with
      | none => exact ⟨_, _, .unclosed hopening hclosing⟩
      | some closed =>
        by_cases hlabel : label = locale
        · subst hlabel
          exact ⟨_, _, .found hopening hclosing⟩
        · obtain ⟨-, hless⟩ := count_skip hopening hclosing
          obtain ⟨steps, result, hrest⟩ := ih _ (by omega) (closed + 1) rfl
          exact ⟨_, _, .skip hopening hlabel hclosing hrest⟩

/-- With more fuel than it has steps, a search is what `templateFrom` computes. -/
theorem templateFrom_of_lt (h : Search text locale stop cursor steps result) {fuel : Nat} (hfuel : steps.length < fuel) :
    templateFrom text locale stop fuel cursor = result := by
  induction h generalizing fuel with
  | absent hopening =>
    obtain ⟨fuel, rfl⟩ := Nat.exists_eq_add_one_of_ne_zero (Nat.ne_zero_of_lt hfuel)
    rw [templateFrom, hopening]
    rfl
  | unclosed hopening hclosing =>
    obtain ⟨fuel, rfl⟩ := Nat.exists_eq_add_one_of_ne_zero (Nat.ne_zero_of_lt hfuel)
    rw [templateFrom, hopening]
    dsimp only
    rw [Literal.bodySpan, hclosing]
    rfl
  | found hopening hclosing =>
    obtain ⟨fuel, rfl⟩ := Nat.exists_eq_add_one_of_ne_zero (Nat.ne_zero_of_lt hfuel)
    rw [templateFrom, hopening]
    dsimp only
    rw [Literal.bodySpan, hclosing]
    exact if_pos rfl
  | skip hopening hlabel hclosing _ ih =>
    obtain ⟨fuel, rfl⟩ := Nat.exists_eq_add_one_of_ne_zero (Nat.ne_zero_of_lt hfuel)
    rw [templateFrom, hopening]
    dsimp only
    rw [Literal.bodySpan, hclosing]
    exact (if_neg hlabel).trans (ih (Nat.lt_of_succ_lt_succ hfuel))

/-- The text is longer than a search has steps. -/
theorem templateFrom_eq (h : Search text locale stop cursor steps result) :
    templateFrom text locale stop (text.length + 1) cursor = result := by
  refine h.templateFrom_of_lt ?_
  have hle := h.two_mul_length_le.1
  have hcount := text.backticks_drop_le cursor
  have hlength := text.backticks_le_length
  omega

/-! ## What a search comes to -/

/-- What is found is a template with the label of the locale, behind the cursor. -/
theorem template (h : Search text locale stop cursor steps (.ok (some span))) :
    Template text locale cursor stop span := by
  generalize hresult : (.ok (some span) : Except Failure (Option (Nat × Nat))) = result at h
  induction h with
  | absent | unclosed => cases hresult
  | @found cursor first opened closed hopening hclosing =>
    cases hresult
    obtain ⟨hordered, hbacktick⟩ := closing_of_closing? hclosing
    obtain ⟨-, hle, hopened⟩ := Recogniser.opened_of_find? hopening
    obtain ⟨hfirst, hlabel, hlabelled⟩ := labelled_of_find? hopening
    exact {
      found := ⟨cursor, first, Nat.le_refl _, hfirst, hlabel, hlabelled, hopening⟩
      opening := hopened.backtick
      opened_le := hle
      ordered := hordered
      plain := Literal.firstUnescaped?_slice (by decide) hclosing
      closing := hbacktick }
  | skip hopening _ hclosing _ ih =>
    obtain ⟨hlt, -⟩ := count_skip hopening hclosing
    obtain ⟨cursor', first, hle, hfound⟩ := (ih hresult).found
    exact { ih hresult with found := ⟨cursor', first, by omega, hfound⟩ }

/-- A search fails only for a template that is opened behind its cursor and not closed in the text. -/
theorem unterminated {failure : Failure} (h : Search text locale stop cursor steps (.error failure)) :
    ∃ opened, failure = .unterminated '\x60' opened ∧ cursor < opened ∧ opened ≤ stop ∧
      text[opened - 1]? = some ('\x60' : CodePoint) ∧ Literal.firstUnescaped? '\\' '\x60' (text.drop opened) = none := by
  generalize hresult : (.error failure : Except Failure (Option (Nat × Nat))) = result at h
  induction h with
  | absent | found => cases hresult
  | @unclosed cursor first opened label hopening hclosing =>
    cases hresult
    obtain ⟨hlt, hle, hopened⟩ := Recogniser.opened_of_find? hopening
    exact ⟨opened, rfl, hlt, hle, hopened.backtick, Literal.firstUnescaped?_drop (by decide) hclosing⟩
  | skip hopening _ hclosing _ ih =>
    obtain ⟨hlt, -⟩ := count_skip hopening hclosing
    obtain ⟨opened, hfailure, hopened, hrest⟩ := ih hresult
    exact ⟨opened, hfailure, by omega, hrest⟩

end Search

end Document

end Bilingual

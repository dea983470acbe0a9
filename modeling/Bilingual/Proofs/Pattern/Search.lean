import Bilingual.Proofs.Pattern
import Bilingual.Proofs.Pattern.Reader

set_option autoImplicit false

/-! # Every place of a pattern is found

Where a pattern is written in a window is told by its pieces alone (`Pattern.WrittenAt`), and where it matches also by
the ways to read what has to follow (`Pattern.MatchesAt`); a text that has to follow as it is stands right behind it
(`Pattern.matchesAt_quoted_iff`). The search finds the leftmost of these places
(`Pattern.enumerates_search`): they come from left to right without overlap, and wherever else the pattern matches, it
does so inside one of them. A group `key` of what has to follow takes the place of a key, whatever it took: if it took no
code point, or no part, the search ends there with an error, and so it does at a match without literals. -/

namespace Bilingual

namespace Pattern

open Expression

/-- At an offset of a window that ends at `stop` a text stands that is written like the pattern, with its literals in a
row. -/
structure WrittenAt (pattern : Pattern) (text : Text) (start stop : Nat) (t : Text) (row : List LiteralSpan)
    (literals : Literals) : Prop where
  spelled : Piece.Spelled start (text.before? start) pattern.pieces t row
  starts : t <+: text.slice start stop
  literals_eq : pattern.literals? row = some literals

/-- The pattern matches at an offset: it is written there and there is a way to read what has to follow, or there is one
to read what may stand in its place. -/
def MatchesAt (pattern : Pattern) (following : Following) (text : Text) (offset stop : Nat) : Prop :=
  (∃ t row literals, pattern.WrittenAt text offset stop t row literals ∧ ∃ marks behind,
    following.next.Way text (Following.marks literals) (Cursor.ofWindow text (offset + t.length) stop) marks behind) ∨
  ∃ expression ∈ following.instead, ∃ marks behind,
    expression.Way text [] (Cursor.ofWindow text offset stop) marks behind

/-- An occurrence is written where it begins, with its literals in the order of the pattern, each between two of its
quotes. Behind it is what has to follow, up to its end; for its key passes what the group `key` took, if there is such a
group. -/
def Holds (pattern : Pattern) (following : Following) (text : Text) (stop : Nat) (o : Occurrence) : Prop :=
  ∃ t row marks, pattern.WrittenAt text o.start stop t row o.toLiterals ∧
    (∀ l ∈ row, l.Inside text o.start (o.start + t.length)) ∧
    (row.Pairwise fun first second => first.stop + 1 < second.start) ∧
    following.next.find? text (Following.marks o.toLiterals) (Cursor.ofWindow text (o.start + t.length) stop) =
      some (marks, Cursor.ofWindow text o.stop stop) ∧
    following.captured text marks = .ok o.captured

/-- At an offset there is a match that comes to no occurrence: its group `key` took no code point or no part, or it has
no literals. -/
def FailsAt (pattern : Pattern) (following : Following) (text : Text) (offset stop : Nat) (failure : Failure) : Prop :=
  (∃ t row literals, pattern.WrittenAt text offset stop t row literals ∧ ∃ marks behind,
    following.next.find? text (Following.marks literals) (Cursor.ofWindow text (offset + t.length) stop) =
      some (marks, behind) ∧ following.captured text marks = .error failure) ∨
  ∃ expression ∈ following.instead, ∃ marks behind,
    expression.find? text [] (Cursor.ofWindow text offset stop) = some (marks, behind) ∧
      (following.captured text marks = .error failure ∨
        (∃ captured, following.captured text marks = .ok captured) ∧ failure = .missingGroup)

/-- Occurrences of a pattern in a window that come from left to right without overlap, and a place where the search for
more of them ends with an error, if it does. Wherever the pattern matches in the window, an occurrence begins or lies
around it, or the search has ended before. -/
structure Enumerates (pattern : Pattern) (following : Following) (text : Text) (start stop : Nat)
    (found : List Occurrence) (error : Option (Nat × Failure)) : Prop where
  ordered : found.Pairwise fun first second => first.start < second.start ∧ first.stop ≤ second.start
  within : ∀ o ∈ found, start ≤ o.start ∧ o.start < o.stop ∧ o.stop ≤ stop ∧ o.stop ≤ text.length
  holds : ∀ o ∈ found, pattern.Holds following text stop o
  around : ∀ offset, start ≤ offset → offset ≤ min stop text.length → pattern.MatchesAt following text offset stop →
    (∃ o ∈ found, o.start ≤ offset ∧ offset < o.stop) ∨ ∃ reached ≤ offset, ∃ failure, error = some (reached, failure)
  fails : ∀ offset failure, error = some (offset, failure) → start ≤ offset ∧ offset ≤ min stop text.length ∧
    (∀ o ∈ found, o.stop ≤ offset) ∧ pattern.FailsAt following text offset stop failure

variable {pattern : Pattern} {following : Following} {text t : Text} {start stop offset : Nat} {row : List LiteralSpan}
  {literals : Literals} {behind : Cursor}

/-! ## Where a pattern matches -/

theorem WrittenAt.inside (h : pattern.WrittenAt text start stop t row literals) :
    (∀ l ∈ row, l.Inside text start (start + t.length)) ∧
      row.Pairwise fun first second => first.stop + 1 < second.start :=
  h.spelled.inside (h.starts.trans (text.slice_prefix start stop))

/-- In a window the literals of a pattern are read exactly where it is written. -/
theorem mem_run_shape_ofWindow_iff : (literals, behind) ∈ pattern.shape.run (Cursor.ofWindow text start stop) ↔
    ∃ t row, pattern.WrittenAt text start stop t row literals ∧
      behind = Cursor.ofWindow text (start + t.length) stop := by
  rw [mem_run_shape_iff]
  constructor
  · rintro ⟨t, row, hspelled, hstarts, hliterals, rfl⟩
    exact ⟨t, row, ⟨hspelled, hstarts, hliterals⟩, Cursor.ofWindow_advance hstarts.length_le⟩
  · rintro ⟨t, row, ⟨hspelled, hstarts, hliterals⟩, rfl⟩
    exact ⟨t, row, hspelled, hstarts, hliterals, (Cursor.ofWindow_advance hstarts.length_le).symm⟩

/-- Something is read exactly where the pattern matches. -/
theorem run_recogniser_ne_nil_iff : (pattern.recogniser following text).run (Cursor.ofWindow text offset stop) ≠ [] ↔
    pattern.MatchesAt following text offset stop := by
  have hway : ∀ {expression : Expression} {marks : Marks} {cursor : Cursor},
      (∃ taken behind, expression.Way text marks cursor taken behind) →
        ∃ taken behind, expression.find? text marks cursor = some (taken, behind) := fun h =>
    have ⟨(taken, behind), hfound⟩ := Option.ne_none_iff_exists'.1 (find?_ne_none_iff.2 h)
    ⟨taken, behind, hfound⟩
  constructor
  · intro h
    obtain ⟨⟨found, behind⟩, hread⟩ := List.exists_mem_of_ne_nil _ h
    rcases mem_run_recogniser_iff.1 hread with
      ⟨literals, between, marks, hshape, hnext, -⟩ | ⟨expression, hinstead, marks, hfound, -⟩
    · obtain ⟨t, row, hwritten, rfl⟩ := mem_run_shape_ofWindow_iff.1 hshape
      exact .inl ⟨t, row, literals, hwritten, marks, behind, (way_of_find? hnext).1⟩
    · exact .inr ⟨expression, hinstead, marks, behind, (way_of_find? hfound).1⟩
  · rintro (⟨t, row, literals, hwritten, hnext⟩ | ⟨expression, hinstead, hother⟩)
    · obtain ⟨marks, behind, hnext⟩ := hway hnext
      exact List.ne_nil_of_mem (mem_run_recogniser_iff.2 (.inl
        ⟨literals, _, marks, mem_run_shape_ofWindow_iff.2 ⟨t, row, hwritten, rfl⟩, hnext, rfl⟩))
    · obtain ⟨marks, behind, hother⟩ := hway hother
      exact List.ne_nil_of_mem (mem_run_recogniser_iff.2 (.inr ⟨expression, hinstead, marks, hother, rfl⟩))

/-- A quoted text that has to follow stands right behind the pair, in the window. -/
theorem matchesAt_quoted_iff {label primary secondary quoted : Text} (hne : quoted ≠ [])
    (hpattern : pattern = .pair label primary secondary (some (Expression.Reader.quoted quoted)))
    (hfollowing : pattern.following = .ok following) :
    pattern.MatchesAt following text offset stop ↔ ∃ t row literals, pattern.WrittenAt text offset stop t row literals ∧
      quoted <+: text.slice (offset + t.length) stop := by
  subst hpattern
  have hinstead : following.instead = none := by
    cases (Following.ofText_quoted hne).symm.trans hfollowing
    rfl
  have hway : ∀ (marks : Marks) (cursor : Cursor),
      (∃ taken behind, following.next.Way text marks cursor taken behind) ↔ quoted <+: cursor.rest := by
    intro marks cursor
    rw [← find?_ne_none_iff, Following.find?_quoted hne hfollowing]
    split_ifs with hstarts
    · exact iff_of_true (Option.some_ne_none _) hstarts
    · exact iff_of_false (fun h => h rfl) hstarts
  constructor
  · rintro (⟨t, row, literals, hwritten, hnext⟩ | ⟨expression, hother, -⟩)
    · exact ⟨t, row, literals, hwritten, (hway _ _).1 hnext⟩
    · rw [hinstead] at hother
      cases hother
  · rintro ⟨t, row, literals, hwritten, hstarts⟩
    exact .inl ⟨t, row, literals, hwritten, (hway _ _).2 hstarts⟩

theorem holds_of_mem_run {literals : Literals} {captured : Option Captured} {start last : Nat}
    (h : (.ok (literals, captured), Cursor.ofWindow text last stop) ∈
      (pattern.recogniser following text).run (Cursor.ofWindow text start stop)) :
    pattern.Holds following text stop (Occurrence.ofPlace (start, (literals, captured), last)) := by
  obtain ⟨between, marks, hshape, hnext, hcaptured⟩ := mem_run_recogniser_ok_iff.1 h
  obtain ⟨t, row, hwritten, rfl⟩ := mem_run_shape_ofWindow_iff.1 hshape
  obtain ⟨hinside, hordered⟩ := hwritten.inside
  exact ⟨t, row, marks, hwritten, hinside, hordered, hnext, hcaptured⟩

theorem failsAt_of_mem_run {failure : Failure}
    (h : (.error failure, behind) ∈ (pattern.recogniser following text).run (Cursor.ofWindow text offset stop)) :
    pattern.FailsAt following text offset stop failure := by
  refine (of_mem_run_recogniser_error h).imp ?_ ?_
  · rintro ⟨literals, between, marks, hshape, hnext, hcaptured⟩
    obtain ⟨t, row, hwritten, rfl⟩ := mem_run_shape_ofWindow_iff.1 hshape
    exact ⟨t, row, literals, hwritten, marks, behind, hnext, hcaptured⟩
  · rintro ⟨expression, hinstead, marks, hfound, hcaptured⟩
    exact ⟨expression, hinstead, marks, behind, hfound, hcaptured⟩

/-! ## The search -/

/-- The search for a pattern enumerates any window of any text, whatever has to follow. -/
theorem enumerates_search (pattern : Pattern) (following : Following) (text : Text) (start stop : Nat) :
    ∃ found error, pattern.search following text start stop = (found, error.map Prod.snd) ∧
      pattern.Enumerates following text start stop found error := by
  obtain ⟨places, error, hsearch, hleft⟩ := leftmost_search pattern following text start stop
  have hconsumes := consumes_recogniser pattern following text
  refine ⟨_, error, hsearch, ?_, ?_, ?_, ?_, ?_⟩
  · exact List.pairwise_map.2 (hleft.pairwise hconsumes)
  · refine List.forall_mem_map.2 fun place hplace => ?_
    obtain ⟨hstart, hlt, hstop, -⟩ := hleft.of_mem hconsumes hplace
    exact ⟨hstart, hlt, Nat.le_trans hstop (Nat.min_le_left _ _), Nat.le_trans hstop (Nat.min_le_right _ _)⟩
  · refine List.forall_mem_map.2 fun ⟨first, ⟨literals, captured⟩, last⟩ hplace => ?_
    obtain ⟨-, -, -, hread⟩ := hleft.of_mem hconsumes hplace
    exact holds_of_mem_run hread
  · intro offset hle hlast hmatches
    refine (hleft.exists_around hle hlast (run_recogniser_ne_nil_iff.2 hmatches)).imp_left ?_
    rintro ⟨place, hplace, haround⟩
    exact ⟨_, List.mem_map_of_mem hplace, haround⟩
  · rintro offset failure rfl
    obtain ⟨hle, hlast, hbefore, behind, hread⟩ := hleft.of_error hconsumes
    exact ⟨hle, hlast, List.forall_mem_map.2 hbefore, failsAt_of_mem_run hread⟩

/-- The search for a pattern enumerates any window of any text, whatever has to follow. If that is plain, no error ends
it and nothing but a literal is a key. The occurrences are those of the search if it ends without an error; they are
counted as they are found, and each is found by its number, also those in front of an error. -/
theorem occurrences_exhaustive (pattern : Pattern) (following : Following) (text : Text) (start stop : Nat) :
    ∃ found error, pattern.search following text start stop = (found, error.map Prod.snd) ∧
      pattern.Enumerates following text start stop found error ∧
      (following.Plain → error = none ∧ ∀ o ∈ found, o.captured = none) ∧
      (pattern.following = .ok following →
        pattern.occurrences text start stop = (error.map Prod.snd).elim (.ok found) .error ∧
        pattern.count text start stop = (error.map Prod.snd).elim (.ok found.length) .error ∧
        ∀ k : Nat, pattern.occurrence? text k start stop =
          if k < found.length then .ok found[k]? else (error.map Prod.snd).elim (.ok none) .error) := by
  obtain ⟨found, error, hsearch, henumerates⟩ := pattern.enumerates_search following text start stop
  refine ⟨found, error, hsearch, henumerates, fun hplain => ?_, fun hfollowing => ?_⟩
  · have hend := pattern.search_of_plain hplain text start stop
    rw [hsearch] at hend
    exact hend.imp_left Option.map_eq_none_iff.1
  · have hfound : pattern.occurrences text start stop = (error.map Prod.snd).elim (.ok found) .error := by
      rw [occurrences_of_following hfollowing, hsearch]
    refine ⟨hfound, ?_, fun k => ?_⟩
    · rw [count, hfound]
      cases error <;> rfl
    · rw [occurrence?_of_following hfollowing, hsearch]

/-- Any amount of whitespace. -/
def blankRun : Expression := .times 0 none false (.points { members := [.kind false .space] })

/-- Labels in front of an icon. -/
def iconLabels : Pattern := .pair "label" "en" "ar" (some "\\s*,?\\s*icon")

/-- What the labels are followed by. -/
def iconFollowing : Following where
  next := .looksAhead true <| Expression.row <|
    [blankRun, .times 0 (some 1) false (.points (.single ',')), blankRun] ++ Expression.letters "icon"

/-- A label that breaks off in front of another one, a longer name that ends in the label, and a last label that an icon
does not follow. -/
def iconText : Text :=
  "label: \x7b en: 'x', label: \x7b en: 'A', ar: \"it's\", \x7d icon $label: \x7b en: 'a', ar: 'b' \x7d, icon " ++
    "\"label\" : \x7b'en':'B',\"ar\":'C'\x7d, icon label: \x7b en: 'D', ar: 'E' \x7d ico"

/-- The two labels that are found. -/
def iconOccurrences : List Occurrence :=
  [{ start := 18, stop := 49, key := none, primary := ⟨32, 33, .single, "A"⟩, secondary := ⟨41, 45, .double, "it's"⟩ },
    { start := 90, stop := 119, key := none, primary := ⟨107, 108, .single, "B"⟩,
      secondary := ⟨116, 117, .single, "C"⟩ }]

theorem occurrences_iconText : iconLabels.following = .ok iconFollowing ∧
    iconLabels.Enumerates iconFollowing iconText 0 iconText.length iconOccurrences none ∧
      iconLabels.occurrences iconText 0 iconText.length = .ok iconOccurrences ∧
        iconLabels.count iconText 0 iconText.length = .ok 2 ∧
          iconLabels.occurrence? iconText 2 0 iconText.length = .ok none := by
  have hfollowing : iconLabels.following = .ok iconFollowing := by decide +kernel
  have hsearch : iconLabels.search iconFollowing iconText 0 iconText.length = (iconOccurrences, none) := by
    decide +kernel
  obtain ⟨found, error, hfound, henumerates, hplain, hcalls⟩ :=
    iconLabels.occurrences_exhaustive iconFollowing iconText 0 iconText.length
  obtain ⟨rfl, -⟩ := hplain ⟨rfl, rfl⟩
  obtain ⟨rfl, -⟩ := Prod.mk.inj (hsearch.symm.trans hfound)
  obtain ⟨hoccurrences, hcount, hnumber⟩ := hcalls hfollowing
  exact ⟨hfollowing, henumerates, hoccurrences, hcount, hnumber 2⟩

/-- Labels with a text behind them that is kept as a key, if it is there. -/
def keyLabels : Pattern := .pair "label" "en" "ar" (some "\\s*(?P<key>'k')?")

/-- What these labels are followed by. -/
def keyFollowing : Following where
  next := .looksAhead true (.seq blankRun (.times 0 (some 1) false (.group 3 (Expression.row (Expression.letters "'k'")))))
  key := some 3

/-- Two labels, only the first of them with that text behind it. -/
def keyText : Text := "label: \x7b en: 'A', ar: 'P' \x7d 'k' label: \x7b en: 'B', ar: 'Q' \x7d"

/-- A label matches, and yet there are no occurrences: the group `key` takes no part behind it. The label in front is an
occurrence whose key stands behind its secondary literal. -/
theorem not_occurrences_keyText : keyLabels.following = .ok keyFollowing ∧
    keyLabels.MatchesAt keyFollowing keyText 32 keyText.length ∧
      keyLabels.occurrences keyText 0 keyText.length = .error .missingGroup ∧
        keyLabels.occurrence? keyText 0 0 keyText.length = .ok (some {
          start := 0, stop := 27, key := none, primary := ⟨14, 15, .single, "A"⟩,
          secondary := ⟨23, 24, .single, "P"⟩, captured := some ⟨29, 30, '\'', "k"⟩ }) := by
  refine ⟨by decide +kernel, run_recogniser_ne_nil_iff.1 ?_, by decide +kernel, by decide +kernel⟩
  rw [← List.isEmpty_eq_false_iff]
  decide +kernel

end Pattern

end Bilingual

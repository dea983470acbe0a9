import Bilingual.Site.Basic
import Bilingual.Proofs.Pattern.Expression
import Bilingual.Proofs.Pattern.Piece
import Bilingual.Proofs.Step

set_option autoImplicit false

/-! # Where occurrences stand

A pattern is the row of its pieces (`Pattern.shape_eq`), and what has to follow is read behind them
(`Pattern.mem_run_recogniser_iff`). So every occurrence takes code points, and the search for a pattern finds the
leftmost places (`Pattern.leftmost_search`): the occurrences in the window of a category come from left to right without
overlap, each with its literals inside (`Category.occurrences_spec`). -/

namespace Bilingual

/-- An occurrence of a text has its literals inside, and ends in the text. -/
structure Occurrence.In (o : Occurrence) (text : Text) : Prop where
  inside : o.toLiterals.Inside text o.start o.stop
  stop_le : o.stop ≤ text.length

/-! ## Patterns as rows of pieces -/

namespace Piece

/-- Any amount of whitespace. -/
def blanks : Piece := .points CodePoint.isSpace .any

/-- One given code point. -/
def mark (c : CodePoint) : Piece := .points (· == c) .once

/-- A label and the colon behind it. -/
def field (name : Text) : List Piece := [.label name, blanks, mark ':', blanks]

/-- Both locales of a text in braces. -/
def localePair (primaryLocale secondaryLocale : Text) : List Piece :=
  [mark '{', blanks] ++ field primaryLocale ++ [.literal, blanks, mark ',', blanks] ++ field secondaryLocale ++
    [.literal, blanks, .points (· == ',') .optional, blanks, mark '}']

end Piece

namespace Pattern

/-- The pieces of a pattern, from left to right. -/
def pieces : Pattern → List Piece
  | pair label primaryLocale secondaryLocale _ => Piece.field label ++ Piece.localePair primaryLocale secondaryLocale
  | keyedPair keyField label primaryLocale secondaryLocale =>
    Piece.field keyField ++ [.literal, Piece.blanks, Piece.mark ',', Piece.blanks] ++ Piece.field label ++
      Piece.localePair primaryLocale secondaryLocale
  | choice condition =>
    [.exactly condition, Piece.blanks, Piece.mark '?', Piece.blanks, .literal, Piece.blanks, Piece.mark ':',
      Piece.blanks, .literal]

/-- The literals of a pattern by the order in which they stand: a choice has its secondary literal first, and only a
keyed pair has a key. -/
def literals? : Pattern → List LiteralSpan → Option Literals
  | pair .., [primary, secondary] => some ⟨none, primary, secondary⟩
  | keyedPair .., [key, primary, secondary] => some ⟨some key, primary, secondary⟩
  | choice _, [secondary, primary] => some ⟨none, primary, secondary⟩
  | _, _ => none

end Pattern

namespace Recogniser

theorem orElse_bind {α β : Type} (r s : Recogniser α) (f : α → Recogniser β) :
    orElse r s >>= f = orElse (r >>= f) (s >>= f) :=
  congrArg Recogniser.mk (funext fun _ => List.flatMap_append)

theorem optional_bind {α β : Type} (r : Recogniser α) (f : Option α → Recogniser β) :
    optional r >>= f = orElse (r >>= fun a => f (some a)) (f none) := by
  rw [optional, orElse_bind, pure_bind, bind_map_left]

/-- Give the literals of a row their parts in a pattern. -/
def ofRow (pattern : Pattern) (row : List LiteralSpan) : Recogniser Literals :=
  ⟨fun cursor => (pattern.literals? row).toList.map fun literals => (literals, cursor)⟩

theorem ofRow_pair (label primaryLocale secondaryLocale : Text) (followedBy : Option Text)
    (primary secondary : LiteralSpan) : ofRow (.pair label primaryLocale secondaryLocale followedBy)
      [primary, secondary] = pure ⟨none, primary, secondary⟩ := rfl

theorem ofRow_keyedPair (keyField label primaryLocale secondaryLocale : Text) (key primary secondary : LiteralSpan) :
    ofRow (.keyedPair keyField label primaryLocale secondaryLocale) [key, primary, secondary] =
      pure ⟨some key, primary, secondary⟩ := rfl

theorem ofRow_choice (condition : Text) (primary secondary : LiteralSpan) :
    ofRow (.choice condition) [secondary, primary] = pure ⟨none, primary, secondary⟩ := rfl

theorem mem_run_ofRow_iff {pattern : Pattern} {row : List LiteralSpan} {literals : Literals} {cursor behind : Cursor} :
    (literals, behind) ∈ (ofRow pattern row).run cursor ↔ pattern.literals? row = some literals ∧ behind = cursor := by
  simp [ofRow, eq_comm]

end Recogniser

namespace Pattern

variable {pattern : Pattern} {following : Following} {text t : Text} {start stop : Nat} {row : List LiteralSpan}
  {literals : Literals} {marks : Expression.Marks} {cursor behind : Cursor}

open Recogniser in
/-- The literals of a pattern are read as its pieces are. -/
theorem shape_eq (pattern : Pattern) : pattern.shape = Piece.row pattern.pieces >>= Recogniser.ofRow pattern := by
  cases pattern with
  | pair label primaryLocale secondaryLocale followedBy =>
    simp only [shape, Recogniser.pair, Recogniser.localePair, labelledLiteral, fieldLabel, spaces, point, optional_bind,
      orElse_bind, pieces, Piece.localePair, Piece.field, Piece.mark, Piece.blanks, Piece.row, Piece.recogniser,
      List.cons_append, List.nil_append, bind_assoc, pure_bind, ofRow_pair]
  | keyedPair keyField label primaryLocale secondaryLocale =>
    simp only [shape, Recogniser.keyedPair, Recogniser.pair, Recogniser.localePair, labelledLiteral, fieldLabel, spaces,
      point, optional_bind, orElse_bind, pieces, Piece.localePair, Piece.field, Piece.mark, Piece.blanks, Piece.row,
      Piece.recogniser, List.cons_append, List.nil_append, bind_assoc, pure_bind, ofRow_keyedPair]
  | choice condition =>
    simp only [shape, Recogniser.choice, spaces, point, pieces, Piece.mark, Piece.blanks, Piece.row, Piece.recogniser,
      List.cons_append, List.nil_append, bind_assoc, pure_bind, ofRow_choice]

/-- How many literals a pattern has. -/
theorem countP_pieces (pattern : Pattern) : pattern.pieces.countP Piece.isLiteral =
    match pattern with
    | keyedPair .. => 3
    | _ => 2 := by
  cases pattern <;> rfl

/-- A row in the form of a pattern has the literals of the pattern. -/
theorem exists_literals {previous : Option CodePoint} (h : Piece.Spelled start previous pattern.pieces t row) :
    ∃ literals, pattern.literals? row = some literals ∧ 0 < row.length := by
  have hlength := h.length_eq.trans pattern.countP_pieces
  cases pattern with
  | pair =>
    match row, hlength with
    | [primary, secondary], _ => exact ⟨_, rfl, Nat.succ_pos _⟩
  | keyedPair =>
    match row, hlength with
    | [key, primary, secondary], _ => exact ⟨_, rfl, Nat.succ_pos _⟩
  | choice =>
    match row, hlength with
    | [secondary, primary], _ => exact ⟨_, rfl, Nat.succ_pos _⟩

/-- The literals of a pattern are members of the row. -/
theorem inside_of_literals? (h : pattern.literals? row = some literals) (hrow : ∀ l ∈ row, l.Inside text start stop) :
    literals.Inside text start stop := by
  unfold literals? at h
  split at h <;> cases h <;> refine ⟨fun l hl => ?_, hrow _ (by simp), hrow _ (by simp)⟩ <;> cases hl
  exact hrow _ (by simp)

theorem mem_run_shape_iff : (literals, behind) ∈ pattern.shape.run cursor ↔ ∃ t row,
    Piece.Spelled cursor.offset cursor.previous pattern.pieces t row ∧ t <+: cursor.rest ∧
      pattern.literals? row = some literals ∧ behind = cursor.advance t.length := by
  rw [shape_eq, Recogniser.mem_run_bind]
  constructor
  · rintro ⟨row, between, hrow, hbehind⟩
    obtain ⟨t, hspelled, hstarts, rfl⟩ := Piece.mem_run_row_iff.1 hrow
    obtain ⟨hliterals, rfl⟩ := Recogniser.mem_run_ofRow_iff.1 hbehind
    exact ⟨t, row, hspelled, hstarts, hliterals, rfl⟩
  · rintro ⟨t, row, hspelled, hstarts, hliterals, rfl⟩
    exact ⟨row, _, Piece.mem_run_row_iff.2 ⟨t, hspelled, hstarts, rfl⟩,
      Recogniser.mem_run_ofRow_iff.2 ⟨hliterals, rfl⟩⟩

end Pattern

/-! ## What follows -/

namespace Following

variable {following : Following} {text : Text} {literals : Literals} {marks : Expression.Marks} {cursor behind : Cursor}

theorem mem_run_behind_iff : (marks, behind) ∈ (following.behind text literals).run cursor ↔
    following.next.find? text (Following.marks literals) cursor = some (marks, behind) :=
  Option.mem_toList.trans Option.mem_def

theorem mem_run_otherwise_iff : (marks, behind) ∈ (following.otherwise text).run cursor ↔
    ∃ expression ∈ following.instead, expression.find? text [] cursor = some (marks, behind) := by
  refine Option.mem_toList.trans (Option.mem_def.trans ?_)
  rw [Option.bind_eq_some_iff]
  rfl

end Following

namespace Pattern

variable {pattern : Pattern} {following : Following} {text : Text} {start stop : Nat} {cursor behind : Cursor}

/-- A pattern is read as its literals are, with what has to follow behind them; or else in place of it is read what may
stand there, which has no literals. -/
theorem mem_run_recogniser_iff {found : Except Failure (Literals × Option Captured)} :
    (found, behind) ∈ (pattern.recogniser following text).run cursor ↔
      (∃ literals between marks, (literals, between) ∈ pattern.shape.run cursor ∧
        following.next.find? text (Following.marks literals) between = some (marks, behind) ∧
          found = (following.captured text marks).map (literals, ·)) ∨
      ∃ expression ∈ following.instead, ∃ marks, expression.find? text [] cursor = some (marks, behind) ∧
        found = (following.captured text marks).bind fun _ => .error .missingGroup := by
  unfold recogniser
  rw [Recogniser.mem_run_orElse_iff]
  refine or_congr ?_ ?_
  · constructor
    · intro h
      obtain ⟨literals, between, hshape, h⟩ := Recogniser.mem_run_bind.1 h
      obtain ⟨marks, last, hnext, h⟩ := Recogniser.mem_run_bind.1 h
      obtain ⟨rfl, rfl⟩ := Recogniser.mem_run_pure.1 h
      exact ⟨literals, between, marks, hshape, Following.mem_run_behind_iff.1 hnext, rfl⟩
    · rintro ⟨literals, between, marks, hshape, hnext, rfl⟩
      exact Recogniser.mem_run_bind.2 ⟨literals, between, hshape, Recogniser.mem_run_bind.2
        ⟨marks, behind, Following.mem_run_behind_iff.2 hnext, Recogniser.mem_run_pure.2 ⟨rfl, rfl⟩⟩⟩
  · constructor
    · intro h
      obtain ⟨marks, last, hother, h⟩ := Recogniser.mem_run_bind.1 h
      obtain ⟨rfl, rfl⟩ := Recogniser.mem_run_pure.1 h
      obtain ⟨expression, hinstead, hfound⟩ := Following.mem_run_otherwise_iff.1 hother
      exact ⟨expression, hinstead, marks, hfound, rfl⟩
    · rintro ⟨expression, hinstead, marks, hfound, rfl⟩
      exact Recogniser.mem_run_bind.2 ⟨marks, behind, Following.mem_run_otherwise_iff.2 ⟨expression, hinstead, hfound⟩,
        Recogniser.mem_run_pure.2 ⟨rfl, rfl⟩⟩

/-- What comes to an occurrence is a pattern with what follows it. -/
theorem mem_run_recogniser_ok_iff {literals : Literals} {captured : Option Captured} :
    (.ok (literals, captured), behind) ∈ (pattern.recogniser following text).run cursor ↔
      ∃ between marks, (literals, between) ∈ pattern.shape.run cursor ∧
        following.next.find? text (Following.marks literals) between = some (marks, behind) ∧
          following.captured text marks = .ok captured := by
  rw [mem_run_recogniser_iff]
  constructor
  · rintro (⟨other, between, marks, hshape, hnext, hfound⟩ | ⟨_, -, marks, -, hfound⟩)
    · cases hcaptured : following.captured text marks with
      | error failure => simp [hcaptured, Except.map] at hfound
      | ok _ =>
        rw [hcaptured] at hfound
        cases hfound
        exact ⟨between, marks, hshape, hnext, hcaptured⟩
    · cases hcaptured : following.captured text marks <;> simp [hcaptured, Except.bind] at hfound
  · rintro ⟨between, marks, hshape, hnext, hcaptured⟩
    exact .inl ⟨literals, between, marks, hshape, hnext, by rw [hcaptured]; rfl⟩

/-- What comes to an error is a pattern or what may stand in place of it, and a group that is asked for is not there. -/
theorem of_mem_run_recogniser_error {failure : Failure}
    (h : (.error failure, behind) ∈ (pattern.recogniser following text).run cursor) :
      (∃ literals between marks, (literals, between) ∈ pattern.shape.run cursor ∧
        following.next.find? text (Following.marks literals) between = some (marks, behind) ∧
          following.captured text marks = .error failure) ∨
      ∃ expression ∈ following.instead, ∃ marks, expression.find? text [] cursor = some (marks, behind) ∧
        (following.captured text marks = .error failure ∨
          (∃ captured, following.captured text marks = .ok captured) ∧ failure = .missingGroup) := by
  refine (mem_run_recogniser_iff.1 h).imp ?_ ?_
  · rintro ⟨literals, between, marks, hshape, hnext, hfailure⟩
    refine ⟨literals, between, marks, hshape, hnext, ?_⟩
    cases hcaptured : following.captured text marks <;> rw [hcaptured] at hfailure <;> cases hfailure
    rfl
  · rintro ⟨expression, hinstead, marks, hfound, hfailure⟩
    refine ⟨expression, hinstead, marks, hfound, ?_⟩
    cases hcaptured : following.captured text marks <;> rw [hcaptured] at hfailure <;> cases hfailure
    · exact .inl rfl
    · exact .inr ⟨⟨_, rfl⟩, rfl⟩

theorem consumes_recogniser (pattern : Pattern) (following : Following) (text : Text) :
    (pattern.recogniser following text).Consumes := by
  rintro cursor ⟨literals, captured⟩ behind h
  obtain ⟨between, marks, hshape, hnext, -⟩ := mem_run_recogniser_ok_iff.1 h
  obtain ⟨t, row, hspelled, hstarts, -, rfl⟩ := mem_run_shape_iff.1 hshape
  obtain ⟨-, -, hpos⟩ := exists_literals hspelled
  obtain ⟨n, hn, rfl⟩ := (Expression.way_of_find? hnext).2
  rw [Cursor.rest_advance, List.length_drop] at hn
  have htaken := Nat.lt_of_lt_of_le hpos hspelled.length_le
  have hlength := hstarts.length_le
  exact ⟨t.length + n, by omega, by omega, (Cursor.advance_add cursor _ n).symm⟩

/-! ## Occurrences -/

end Pattern

theorem untilError_map {ε α β : Type} (f : α → β) (found : List (Except ε α)) :
    untilError (found.map (Except.map f)) = ((untilError found).1.map f, (untilError found).2) := by
  induction found with
  | nil => rfl
  | cons first rest ih =>
    cases first with
    | error e => rfl
    | ok a =>
      show ((f a :: _, _) : List β × Option ε) = _
      rw [ih]
      rfl

/-- The occurrence at a place of a window, by what has been read there. -/
def Occurrence.ofPlace (place : Nat × (Literals × Option Captured) × Nat) : Occurrence :=
  { place.2.1.1 with start := place.1, stop := place.2.2, captured := place.2.1.2 }

namespace Pattern

variable {pattern : Pattern} {following : Following} {text : Text} {start stop : Nat} {occurrences : List Occurrence}

/-- The search for a pattern finds the leftmost places up to an error. -/
theorem leftmost_search (pattern : Pattern) (following : Following) (text : Text) (start stop : Nat) :
    ∃ places error, pattern.search following text start stop =
      (places.map Occurrence.ofPlace, error.map Prod.snd) ∧
        (pattern.recogniser following text).Leftmost text stop start places error := by
  obtain ⟨places, error, hfound, hleft⟩ :=
    Recogniser.leftmost_places (consumes_recogniser pattern following text) text start stop
  refine ⟨places, error, ?_, hleft⟩
  have hmap : pattern.search following text start stop = untilError
      ((((pattern.recogniser following text).places text start stop).map fun place =>
        place.2.1.map (place.1, ·, place.2.2)).map (Except.map Occurrence.ofPlace)) := by
    rw [List.map_map]
    refine congrArg untilError (List.map_congr_left ?_)
    rintro ⟨first, a | a, behind⟩ - <;> rfl
  rw [hmap, untilError_map]
  exact congrArg (fun found => (found.1.map Occurrence.ofPlace, found.2)) hfound

theorem mapOccurrences_eq_ok_iff {α : Type} {step : Occurrence → Except Failure α} {results : List α} :
    pattern.mapOccurrences text start stop step = .ok results ↔ ∃ following found, pattern.following = .ok following ∧
      pattern.search following text start stop = (found, none) ∧ found.mapM step = .ok results := by
  unfold mapOccurrences
  rw [Except.bind_eq_ok_iff]
  refine exists_congr fun following => ?_
  obtain ⟨found, failure⟩ := pattern.search following text start stop
  show _ ∧ (found.mapM step >>= fun results => _) = _ ↔ _
  rw [Except.bind_eq_ok_iff]
  constructor
  · rintro ⟨hfollowing, results', hresults, h⟩
    cases failure <;> cases h
    exact ⟨found, hfollowing, rfl, hresults⟩
  · rintro ⟨_, hfollowing, ⟨⟩, hresults⟩
    exact ⟨hfollowing, results, hresults, rfl⟩

/-- A step fails for an occurrence, or the search ends early, if there is one at all. -/
theorem of_mapOccurrences_eq_error {α : Type} {step : Occurrence → Except Failure α} {failure : Failure}
    (h : pattern.mapOccurrences text start stop step = .error failure) : pattern.following = .error failure ∨
      ∃ following, pattern.following = .ok following ∧
        ((pattern.search following text start stop).1.mapM step = .error failure ∨
          (pattern.search following text start stop).2 = some failure) := by
  unfold mapOccurrences at h
  refine (Except.bind_eq_error_iff.1 h).imp_right ?_
  rintro ⟨following, hfollowing, h⟩
  refine ⟨following, hfollowing, ?_⟩
  generalize pattern.search following text start stop = found at h ⊢
  obtain ⟨found, error⟩ := found
  refine (Except.bind_eq_error_iff.1 h).imp_right ?_
  rintro ⟨results, -, h⟩
  cases error <;> cases h
  rfl

/-- The occurrences are what the search finds, unless it ends early. -/
theorem occurrences_of_following (h : pattern.following = .ok following) : pattern.occurrences text start stop =
    (pattern.search following text start stop).2.elim (.ok (pattern.search following text start stop).1) .error := by
  have hpure : ∀ found : List Occurrence, found.mapM (pure : Occurrence → Except Failure Occurrence) = .ok found :=
    fun found => List.mapM_pure.trans (congrArg Except.ok found.map_id)
  unfold Pattern.occurrences mapOccurrences
  rw [h]
  dsimp only [bind, Except.bind]
  obtain ⟨found, failure⟩ := pattern.search following text start stop
  dsimp only
  rw [hpure]
  cases failure <;> rfl

/-- An occurrence has its number among those that the search finds, also where the search ends early behind it. -/
theorem occurrence?_of_following (h : pattern.following = .ok following) (k : Nat) :
    pattern.occurrence? text k start stop =
      if k < (pattern.search following text start stop).1.length then
        .ok (pattern.search following text start stop).1[k]?
      else (pattern.search following text start stop).2.elim (.ok none) .error := by
  unfold occurrence?
  rw [if_neg (by omega), h]
  dsimp only [bind, Except.bind]
  obtain ⟨found, failure⟩ := pattern.search following text start stop
  dsimp only [Int.toNat_natCast]
  split_ifs with hk
  · rw [List.getElem?_eq_getElem hk]
    rfl
  · rw [List.getElem?_eq_none (Nat.le_of_not_lt hk)]
    cases failure <;> rfl

theorem occurrences_eq_ok_iff : pattern.occurrences text start stop = .ok occurrences ↔
    ∃ following, pattern.following = .ok following ∧
      pattern.search following text start stop = (occurrences, none) := by
  constructor
  · intro h
    obtain ⟨following, -, hfollowing, -⟩ := mapOccurrences_eq_ok_iff.1 h
    refine ⟨following, hfollowing, ?_⟩
    rw [occurrences_of_following hfollowing] at h
    generalize pattern.search following text start stop = found at h ⊢
    obtain ⟨found, _ | failure⟩ := found <;> cases h
    rfl
  · rintro ⟨following, hfollowing, hsearch⟩
    rw [occurrences_of_following hfollowing, hsearch]
    rfl

/-- An occurrence that is found in a window stands in the text and in the window. -/
theorem in_of_mem_search {o : Occurrence} (ho : o ∈ (pattern.search following text start stop).1) :
    o.In text ∧ start ≤ o.start ∧ o.stop ≤ stop := by
  obtain ⟨places, error, hfound, hleft⟩ := leftmost_search pattern following text start stop
  rw [hfound] at ho
  obtain ⟨⟨first, ⟨literals, captured⟩, behind⟩, hplace, rfl⟩ := List.mem_map.1 ho
  obtain ⟨hstart, -, hstop, hread⟩ := hleft.of_mem (consumes_recogniser _ _ _) hplace
  obtain ⟨between, marks, hshape, hnext, -⟩ := mem_run_recogniser_ok_iff.1 hread
  obtain ⟨t, row, hspelled, hstarts, hliterals, rfl⟩ := mem_run_shape_iff.1 hshape
  have hbehind := (Expression.way_of_find? hnext).2.offset_le
  rw [Cursor.offset_advance hstarts.length_le] at hbehind
  have hinside := inside_of_literals? hliterals (hspelled.inside (hstarts.trans (text.slice_prefix first stop))).1
  exact ⟨⟨hinside.mono hbehind, Nat.le_trans hstop (Nat.min_le_right _ _)⟩, hstart,
    Nat.le_trans hstop (Nat.min_le_left _ _)⟩

theorem in_of_mem_occurrences (h : pattern.occurrences text start stop = .ok occurrences) :
    ∀ o ∈ occurrences, o.In text ∧ start ≤ o.start ∧ o.stop ≤ stop := by
  obtain ⟨following, -, hsearch⟩ := occurrences_eq_ok_iff.1 h
  obtain rfl : (pattern.search following text start stop).1 = occurrences := congrArg Prod.fst hsearch
  exact fun o ho => in_of_mem_search ho

theorem occurrences_spec (h : pattern.occurrences text start stop = .ok occurrences) :
    (∀ o ∈ occurrences, o.In text) ∧ occurrences.Pairwise fun a b => a.stop ≤ b.start := by
  refine ⟨fun o ho => (in_of_mem_occurrences h o ho).1, ?_⟩
  obtain ⟨following, -, hsearch⟩ := occurrences_eq_ok_iff.1 h
  obtain ⟨places, error, hfound, hleft⟩ := leftmost_search pattern following text start stop
  obtain ⟨rfl, -⟩ := Prod.mk.inj (hsearch.symm.trans hfound)
  exact List.pairwise_map.2 ((hleft.pairwise (consumes_recogniser _ _ _)).imp And.right)

end Pattern

/-! ## Searches that end early -/

/-- A group that is asked for took no part, or no code point. -/
def Failure.IsGroup (failure : Failure) : Prop := failure = .missingGroup ∨ failure = .emptyGroup

/-- What has to follow has no group `key`, and nothing may stand in place of the pattern. -/
structure Following.Plain (following : Following) : Prop where
  key_eq : following.key = none
  instead_eq : following.instead = none

namespace Following

variable {following : Following} {text : Text} {marks : Expression.Marks}

theorem isGroup_of_captured {failure : Failure} (h : following.captured text marks = .error failure) :
    failure.IsGroup := by
  unfold captured at h
  split at h
  · cases h
  · split at h
    · cases h
      exact .inl rfl
    · split at h <;> cases h
      exact .inr rfl

theorem Plain.captured_eq (h : following.Plain) (text : Text) (marks : Expression.Marks) :
    following.captured text marks = .ok none := by
  unfold captured
  rw [h.key_eq]

end Following

namespace Pattern

variable {pattern : Pattern} {following : Following} {text : Text} {start stop : Nat}

/-- A search ends early only for a group that is asked for, and not at all if what has to follow is plain. -/
theorem isGroup_of_search {failure : Failure} (h : (pattern.search following text start stop).2 = some failure) :
    failure.IsGroup ∧ ¬ following.Plain := by
  obtain ⟨places, error, hfound, hleft⟩ := leftmost_search pattern following text start stop
  rw [hfound] at h
  obtain ⟨⟨offset, failure⟩, rfl, rfl⟩ := Option.map_eq_some_iff.1 h
  obtain ⟨-, -, -, behind, hread⟩ := hleft.of_error (consumes_recogniser _ _ _)
  have hgroup : ∀ {marks : Expression.Marks}, following.captured text marks = .error failure →
      failure.IsGroup ∧ ¬ following.Plain := fun hcaptured =>
    ⟨Following.isGroup_of_captured hcaptured, fun hplain => by
      rw [hplain.captured_eq] at hcaptured
      cases hcaptured⟩
  rcases of_mem_run_recogniser_error hread with
    ⟨_, _, _, -, -, hcaptured⟩ | ⟨_, hinstead, _, -, hcaptured | ⟨-, rfl⟩⟩
  · exact hgroup hcaptured
  · exact hgroup hcaptured
  · refine ⟨.inl rfl, fun hplain => ?_⟩
    rw [hplain.instead_eq] at hinstead
    cases hinstead

/-- If what has to follow is plain a search comes to its end, and nothing but a literal is a key. -/
theorem search_of_plain (pattern : Pattern) (h : following.Plain) (text : Text) (start stop : Nat) :
    (pattern.search following text start stop).2 = none ∧
      ∀ o ∈ (pattern.search following text start stop).1, o.captured = none := by
  constructor
  · cases hfailure : (pattern.search following text start stop).2 with
    | none => rfl
    | some failure => exact absurd h (isGroup_of_search hfailure).2
  · intro o ho
    obtain ⟨places, error, hfound, hleft⟩ := leftmost_search pattern following text start stop
    rw [hfound] at ho
    obtain ⟨place, hplace, rfl⟩ := List.mem_map.1 ho
    obtain ⟨-, -, -, hread⟩ := hleft.of_mem (consumes_recogniser _ _ _) hplace
    obtain ⟨_, _, -, -, hcaptured⟩ := mem_run_recogniser_ok_iff.1 hread
    rw [h.captured_eq] at hcaptured
    exact (Except.ok.inj hcaptured).symm

end Pattern

namespace Category

variable {c : Category} {text : Text} {pattern : Pattern}

theorem mapOccurrences_eq_ok_iff {α : Type} {step : Occurrence → Except Failure α} {results : List α} :
    c.mapOccurrences text pattern step = .ok results ↔
      ∃ occurrences, c.occurrences text pattern = .ok occurrences ∧ occurrences.mapM step = .ok results := by
  unfold Category.occurrences mapOccurrences
  split
  · exact ⟨fun h => ⟨[], rfl, h⟩, fun ⟨_, h, hresults⟩ => by cases h; exact hresults⟩
  · next window _ =>
    rw [Pattern.mapOccurrences_eq_ok_iff]
    constructor
    · rintro ⟨following, found, hfollowing, hsearch, hresults⟩
      exact ⟨found, Pattern.occurrences_eq_ok_iff.2 ⟨following, hfollowing, hsearch⟩, hresults⟩
    · rintro ⟨found, hfound, hresults⟩
      obtain ⟨following, hfollowing, hsearch⟩ := Pattern.occurrences_eq_ok_iff.1 hfound
      exact ⟨following, found, hfollowing, hsearch, hresults⟩

/-- The occurrences of a pattern in the window of a category stand in the text, from left to right. -/
theorem occurrences_spec {occurrences : List Occurrence} (h : c.occurrences text pattern = .ok occurrences) :
    (∀ o ∈ occurrences, o.In text) ∧ occurrences.Pairwise fun a b => a.stop ≤ b.start := by
  unfold Category.occurrences mapOccurrences at h
  split at h
  · cases h
    exact ⟨by simp, List.Pairwise.nil⟩
  · exact Pattern.occurrences_spec h

end Category

end Bilingual

import Bilingual.Pattern.Occurrence
import Bilingual.Proofs.Pattern.Leftmost
import Bilingual.Proofs.Search

set_option autoImplicit false

/-! # Pieces of a pattern

A pattern is a row of pieces: given texts, labels, runs of code points and literals. How such a row is written says
nothing about reading (`Piece.Spelled`); a recogniser that reads the pieces one behind the other reads exactly the texts
that are written so (`Piece.mem_run_row_iff`), and the literals of a row stand in it in order (`Piece.Spelled.inside`). -/

namespace Bilingual

/-- How many code points a piece may take. -/
inductive Piece.Times where
  | once
  | optional
  | any

/-- What a pattern is made of. -/
inductive Piece where
  /-- A given text. -/
  | exactly (t : Text)
  /-- The label of a field, bare or in quotes, where no identifier ends. -/
  | label (name : Text)
  /-- Code points with a property: one, one or none, or any number of them. -/
  | points (p : CodePoint → Bool) (times : Piece.Times)
  /-- A quoted literal on one line. -/
  | literal

namespace Piece

/-! ## How pieces are written -/

/-- At an offset, behind the code point `previous`, a piece may be written as a text. The literals are those that it
has, with their places. -/
def Written (offset : Nat) (previous : Option CodePoint) : Piece → Text → List LiteralSpan → Prop
  | exactly t, written, literals => literals = [] ∧ written = t
  | label name, written, literals => literals = [] ∧ previous.any CodePoint.isIdentifier = false ∧
      (written = name ∨ written = "'" ++ name ++ "'" ∨ written = "\"" ++ name ++ "\"")
  | points p .once, written, literals => literals = [] ∧ ∃ c, p c = true ∧ written = [c]
  | points p .optional, written, literals => literals = [] ∧ (written = [] ∨ ∃ c, p c = true ∧ written = [c])
  | points p .any, written, literals => literals = [] ∧ ∀ c ∈ written, p c = true
  | literal, written, literals => ∃ (quote : Quote) (raw : Text), quote.Encloses raw ∧
      written = quote.point :: (raw ++ [quote.point]) ∧
        literals = [⟨offset + 1, offset + 1 + raw.length, quote, raw⟩]

/-- A row of pieces, written one behind the other. -/
inductive Spelled : Nat → Option CodePoint → List Piece → Text → List LiteralSpan → Prop
  | nil {offset : Nat} {previous : Option CodePoint} : Spelled offset previous [] [] []
  | cons {offset : Nat} {previous : Option CodePoint} {piece : Piece} {pieces : List Piece} {t rest : Text}
      {literals others : List LiteralSpan} (hpiece : piece.Written offset previous t literals)
      (hrest : Spelled (offset + t.length) (t.getLast?.or previous) pieces rest others) :
      Spelled offset previous (piece :: pieces) (t ++ rest) (literals ++ others)

/-- Whether a piece has a literal. -/
def isLiteral : Piece → Bool
  | literal => true
  | _ => false

/-! ## Literals in a row -/

variable {offset : Nat} {previous : Option CodePoint} {piece : Piece} {pieces : List Piece} {text t : Text}
  {literals : List LiteralSpan}

theorem Written.length_eq (h : piece.Written offset previous t literals) :
    literals.length = if piece.isLiteral then 1 else 0 := by
  cases piece with
  | literal =>
    obtain ⟨quote, raw, -, -, rfl⟩ := h
    rfl
  | points p times => cases times <;> exact congrArg List.length h.1
  | exactly _ | label _ => exact congrArg List.length h.1

theorem Spelled.length_eq (h : Spelled offset previous pieces t literals) :
    literals.length = pieces.countP isLiteral := by
  induction h with
  | nil => rfl
  | cons hpiece _ ih => rw [List.length_append, hpiece.length_eq, ih, List.countP_cons, Nat.add_comm]

/-- A literal takes code points. -/
theorem Spelled.length_le (h : Spelled offset previous pieces t literals) : literals.length ≤ t.length := by
  induction h with
  | nil => exact Nat.le_refl _
  | @cons _ _ piece _ _ _ _ _ hpiece _ ih =>
    rw [List.length_append, List.length_append]
    refine Nat.add_le_add ?_ ih
    rw [hpiece.length_eq]
    cases piece with
    | literal =>
      obtain ⟨quote, raw, -, rfl, -⟩ := hpiece
      exact Nat.succ_le_succ (Nat.zero_le _)
    | _ => exact Nat.zero_le _

/-- A literal that a piece has stands where the piece is written. -/
theorem Written.inside (h : piece.Written offset previous t literals) (htext : t <+: text.drop offset) :
    ∀ l ∈ literals, l.Inside text offset (offset + t.length) := by
  cases piece with
  | literal =>
    obtain ⟨quote, raw, henclosed, rfl, rfl⟩ := h
    obtain ⟨behind, hbehind⟩ := htext
    have hopening : text.drop offset = quote.point :: (raw ++ quote.point :: behind) := by
      rw [← hbehind]
      simp
    have hbody : text.drop (offset + 1) = raw ++ quote.point :: behind := by
      rw [← List.drop_drop, hopening]
      rfl
    have hclosing : text.drop (offset + 1 + raw.length) = quote.point :: behind := by
      rw [← List.drop_drop, hbody, List.drop_left]
    have hlength : (quote.point :: (raw ++ [quote.point])).length = raw.length + 2 := by simp
    exact List.forall_mem_singleton.2 {
      start_lt := Nat.lt_succ_self _
      stop_lt := by
        rw [hlength]
        show offset + 1 + raw.length < _
        omega
      start_le_stop := Nat.le_add_right _ _
      raw_eq := (Text.slice_of_drop hbody).symm
      enclosed := henclosed
      quote_eq := by
        show text[offset + 1 + raw.length]? = _
        rw [← List.head?_drop, hclosing]
        rfl
      opening_eq := by
        show text[offset + 1 - 1]? = _
        rw [Nat.add_sub_cancel, ← List.head?_drop, hopening]
        rfl }
  | points | exactly | label =>
    rw [List.eq_nil_of_length_eq_zero h.length_eq]
    exact List.forall_mem_nil _

/-- The literals of a row stand in it one behind the other, the closing quote of each in front of the opening quote of
the next one. -/
theorem Spelled.inside (h : Spelled offset previous pieces t literals) (htext : t <+: text.drop offset) :
    (∀ l ∈ literals, l.Inside text offset (offset + t.length)) ∧
      literals.Pairwise fun first second => first.stop + 1 < second.start := by
  induction h with
  | nil => exact ⟨List.forall_mem_nil _, List.Pairwise.nil⟩
  | @cons offset _ piece _ t rest literals others hpiece _ ih =>
    have hliterals := hpiece.inside ((List.prefix_append t rest).trans htext)
    have hrest : rest <+: text.drop (offset + t.length) := by
      obtain ⟨behind, hbehind⟩ := htext
      rw [← List.drop_drop, ← hbehind, List.append_assoc, List.drop_left]
      exact List.prefix_append _ _
    obtain ⟨hothers, hordered⟩ := ih hrest
    rw [List.length_append]
    refine ⟨List.forall_mem_append.2 ⟨fun l hl => (hliterals l hl).mono (Nat.le_refl _) (by omega), fun l hl =>
      (hothers l hl).mono (Nat.le_add_right _ _) (by omega)⟩, List.pairwise_append.2 ⟨?_, hordered, ?_⟩⟩
    -- a piece has no more than one literal
    · have hone : literals.length ≤ 1 := by
        rw [hpiece.length_eq]
        split <;> omega
      match literals, hone with
      | [], _ => exact List.Pairwise.nil
      | [l], _ => exact List.pairwise_singleton _ _
    · intro first hfirst second hsecond
      have hstop := (hliterals first hfirst).stop_lt
      have hstart := (hothers second hsecond).start_lt
      omega

/-! ## Reading pieces -/

/-- Read a piece; what is kept are its literals. -/
def recogniser : Piece → Recogniser (List LiteralSpan)
  | exactly t => do
    Recogniser.exactly t
    return []
  | label name => do
    Recogniser.label name
    return []
  | points p .once => do
    let _ ← Recogniser.satisfying p
    return []
  | points p .optional => do
    let _ ← Recogniser.optional (Recogniser.satisfying p)
    return []
  | points p .any => do
    Recogniser.many p
    return []
  | literal => do
    let l ← Recogniser.literal
    return [l]

/-- Read pieces one behind the other. -/
def row : List Piece → Recogniser (List LiteralSpan)
  | [] => return []
  | piece :: pieces => do
    let literals ← piece.recogniser
    let others ← row pieces
    return literals ++ others

end Piece

/-! ## What the small recognisers read -/

namespace Cursor

theorem previous_advance_prefix {cursor : Cursor} {t : Text} (h : t <+: cursor.rest) :
    (cursor.advance t.length).previous = t.getLast?.or cursor.previous := by
  obtain ⟨rest, hrest⟩ := h
  cases hlast : t.getLast? with
  | none =>
    rw [List.getLast?_eq_none_iff.1 hlast]
    rfl
  | some c =>
    rw [previous_advance hrest.symm hlast]
    rfl

end Cursor

namespace Recogniser

variable {cursor behind : Cursor}

theorem mem_run_label_iff {name : Text} : ((), behind) ∈ (label name).run cursor ↔
    ∃ t : Text, (cursor.previous.any CodePoint.isIdentifier = false ∧
      (t = name ∨ t = "'" ++ name ++ "'" ∨ t = "\"" ++ name ++ "\"")) ∧ t <+: cursor.rest ∧
        behind = cursor.advance t.length := by
  unfold label
  rw [mem_run_atWordStart_iff, mem_run_orElse_iff, mem_run_orElse_iff, mem_run_exactly_iff, mem_run_exactly_iff,
    mem_run_exactly_iff]
  constructor
  · rintro ⟨hread | hread | hread, hstart⟩
    · exact ⟨_, ⟨hstart, .inl rfl⟩, hread⟩
    · exact ⟨_, ⟨hstart, .inr (.inl rfl)⟩, hread⟩
    · exact ⟨_, ⟨hstart, .inr (.inr rfl)⟩, hread⟩
  · rintro ⟨_, ⟨hstart, rfl | rfl | rfl⟩, hread⟩
    · exact ⟨.inl hread, hstart⟩
    · exact ⟨.inr (.inl hread), hstart⟩
    · exact ⟨.inr (.inr hread), hstart⟩

theorem mem_run_satisfying_iff {p : CodePoint → Bool} {c : CodePoint} :
    (c, behind) ∈ (satisfying p).run cursor ↔ p c = true ∧ [c] <+: cursor.rest ∧ behind = cursor.advance 1 := by
  constructor
  · intro h
    obtain ⟨hp, hrest⟩ := eq_of_mem_satisfying h
    rw [run_satisfying hrest hp] at h
    cases List.mem_singleton.1 h
    exact ⟨hp, ⟨_, hrest.symm⟩, rfl⟩
  · rintro ⟨hp, ⟨rest, hrest⟩, rfl⟩
    rw [run_satisfying hrest.symm hp]
    exact List.mem_singleton.2 rfl

theorem mem_run_literal_iff {l : LiteralSpan} : (l, behind) ∈ literal.run cursor ↔
    ∃ (quote : Quote) (raw : Text), quote.Encloses raw ∧ quote.point :: (raw ++ [quote.point]) <+: cursor.rest ∧
      l = ⟨cursor.offset + 1, cursor.offset + 1 + raw.length, quote, raw⟩ ∧
        behind = cursor.advance (raw.length + 2) := by
  constructor
  · intro h
    obtain ⟨henclosed, hrest⟩ := exists_of_mem_literal h
    rw [run_literal henclosed hrest] at h
    obtain ⟨hl, hbehind⟩ := Prod.mk.inj (List.mem_singleton.1 h)
    exact ⟨l.quote, l.raw, henclosed, ⟨behind.rest, by rw [hrest]; simp⟩, hl, hbehind⟩
  · rintro ⟨quote, raw, henclosed, ⟨rest, hrest⟩, rfl, rfl⟩
    have hrest : cursor.rest = quote.point :: (raw ++ quote.point :: rest) := by
      rw [← hrest]
      simp
    rw [run_literal henclosed hrest]
    exact List.mem_singleton.2 rfl

end Recogniser

namespace Piece

variable {cursor behind : Cursor} {pieces : List Piece} {literals : List LiteralSpan}

/-- A piece without literals is read as its code points are. -/
theorem mem_run_bare_iff {α : Type} {r : Recogniser α} (IsWritten : Text → Prop)
    (hr : (∃ a, (a, behind) ∈ r.run cursor) ↔
      ∃ t : Text, IsWritten t ∧ t <+: cursor.rest ∧ behind = cursor.advance t.length) :
    (literals, behind) ∈ (do let _ ← r; return [] : Recogniser (List LiteralSpan)).run cursor ↔
      ∃ t : Text, (literals = [] ∧ IsWritten t) ∧ t <+: cursor.rest ∧ behind = cursor.advance t.length := by
  rw [Recogniser.mem_run_bind]
  constructor
  · rintro ⟨a, between, ha, hpure⟩
    obtain ⟨rfl, rfl⟩ := Recogniser.mem_run_pure.1 hpure
    obtain ⟨t, ht, hread⟩ := hr.1 ⟨a, ha⟩
    exact ⟨t, ⟨rfl, ht⟩, hread⟩
  · rintro ⟨t, ⟨rfl, ht⟩, hread⟩
    obtain ⟨a, ha⟩ := hr.2 ⟨t, ht, hread⟩
    exact ⟨a, behind, ha, Recogniser.mem_run_pure.2 ⟨rfl, rfl⟩⟩

theorem exists_mem_run_satisfying_iff {p : CodePoint → Bool} :
    (∃ c, (c, behind) ∈ (Recogniser.satisfying p).run cursor) ↔
      ∃ t : Text, (∃ c, p c = true ∧ t = [c]) ∧ t <+: cursor.rest ∧ behind = cursor.advance t.length := by
  constructor
  · rintro ⟨c, h⟩
    obtain ⟨hp, hread⟩ := Recogniser.mem_run_satisfying_iff.1 h
    exact ⟨[c], ⟨c, hp, rfl⟩, hread⟩
  · rintro ⟨_, ⟨c, hp, rfl⟩, hread⟩
    exact ⟨c, Recogniser.mem_run_satisfying_iff.2 ⟨hp, hread⟩⟩

theorem exists_mem_run_optional_iff {α : Type} {r : Recogniser α} :
    (∃ a, (a, behind) ∈ (Recogniser.optional r).run cursor) ↔ (∃ a, (a, behind) ∈ r.run cursor) ∨ behind = cursor := by
  simp only [Recogniser.run_optional, List.mem_append, List.mem_map, List.mem_singleton, Prod.mk.injEq]
  constructor
  · rintro ⟨a, ⟨way, hway, rfl, rfl⟩ | ⟨rfl, rfl⟩⟩
    · exact .inl ⟨way.1, hway⟩
    · exact .inr rfl
  · rintro (⟨a, ha⟩ | rfl)
    · exact ⟨some a, .inl ⟨_, ha, rfl, rfl⟩⟩
    · exact ⟨none, .inr ⟨rfl, rfl⟩⟩

/-- A piece is read as it may be written. -/
theorem mem_run_recogniser_iff {piece : Piece} : (literals, behind) ∈ piece.recogniser.run cursor ↔
    ∃ t : Text, piece.Written cursor.offset cursor.previous t literals ∧ t <+: cursor.rest ∧
      behind = cursor.advance t.length := by
  cases piece with
  | exactly given =>
    refine mem_run_bare_iff (· = given) ?_
    rw [Unique.exists_iff, exists_eq_left]
    exact Recogniser.mem_run_exactly_iff
  | label name =>
    exact mem_run_bare_iff _ <| Unique.exists_iff.trans Recogniser.mem_run_label_iff
  | points p times =>
    cases times with
    | once => exact mem_run_bare_iff _ exists_mem_run_satisfying_iff
    | optional =>
      refine mem_run_bare_iff (fun t => t = [] ∨ ∃ c, p c = true ∧ t = [c]) ?_
      rw [exists_mem_run_optional_iff, exists_mem_run_satisfying_iff]
      constructor
      · rintro (⟨t, ht, hread⟩ | rfl)
        · exact ⟨t, .inr ht, hread⟩
        · exact ⟨[], .inl rfl, List.nil_prefix, rfl⟩
      · rintro ⟨t, rfl | ht, hread⟩
        · exact .inr hread.2
        · exact .inl ⟨t, ht, hread⟩
    | any =>
      exact mem_run_bare_iff _ <| Unique.exists_iff.trans Recogniser.mem_run_many_iff
  | literal =>
    rw [recogniser, Recogniser.mem_run_bind]
    constructor
    · rintro ⟨l, between, hl, hpure⟩
      obtain ⟨rfl, rfl⟩ := Recogniser.mem_run_pure.1 hpure
      obtain ⟨quote, raw, henclosed, hstarts, rfl, rfl⟩ := Recogniser.mem_run_literal_iff.1 hl
      exact ⟨_, ⟨quote, raw, henclosed, rfl, rfl⟩, hstarts, by simp⟩
    · rintro ⟨_, ⟨quote, raw, henclosed, rfl, rfl⟩, hstarts, rfl⟩
      exact ⟨_, _, Recogniser.mem_run_literal_iff.2 ⟨quote, raw, henclosed, hstarts, rfl, by simp⟩,
        Recogniser.mem_run_pure.2 ⟨rfl, rfl⟩⟩

/-- A row of pieces is read as it may be spelled. -/
theorem mem_run_row_iff : (literals, behind) ∈ (row pieces).run cursor ↔
    ∃ t : Text, Spelled cursor.offset cursor.previous pieces t literals ∧ t <+: cursor.rest ∧
      behind = cursor.advance t.length := by
  induction pieces generalizing cursor literals with
  | nil =>
    rw [row, Recogniser.mem_run_pure]
    constructor
    · rintro ⟨rfl, rfl⟩
      exact ⟨[], .nil, List.nil_prefix, rfl⟩
    · rintro ⟨_, ⟨⟩, -, rfl⟩
      exact ⟨rfl, rfl⟩
  | cons piece pieces ih =>
    have hcursor : ∀ t : Text, t <+: cursor.rest → (cursor.advance t.length).offset = cursor.offset + t.length ∧
        (cursor.advance t.length).previous = t.getLast?.or cursor.previous := fun t ht =>
      ⟨Cursor.offset_advance ht.length_le, Cursor.previous_advance_prefix ht⟩
    rw [row, Recogniser.mem_run_bind]
    constructor
    · rintro ⟨first, between, hfirst, hrest⟩
      obtain ⟨others, last, hothers, hpure⟩ := Recogniser.mem_run_bind.1 hrest
      obtain ⟨rfl, rfl⟩ := Recogniser.mem_run_pure.1 hpure
      obtain ⟨t, hpiece, hstarts, rfl⟩ := mem_run_recogniser_iff.1 hfirst
      obtain ⟨rest, hspelled, hrests, rfl⟩ := ih.1 hothers
      obtain ⟨hoffset, hprevious⟩ := hcursor t hstarts
      rw [hoffset, hprevious] at hspelled
      rw [Cursor.rest_advance] at hrests
      refine ⟨t ++ rest, .cons hpiece hspelled, ?_, by rw [List.length_append, Cursor.advance_add]⟩
      obtain ⟨behind, hbehind⟩ := hstarts
      rw [← hbehind, List.drop_left] at hrests
      rw [← hbehind]
      exact (List.prefix_append_right_inj t).2 hrests
    · rintro ⟨_, hspelled, ⟨behind, hbehind⟩, rfl⟩
      cases hspelled with
      | @cons _ _ _ _ t rest first others hpiece hspelled =>
        rw [List.append_assoc] at hbehind
        have hstarts : t <+: cursor.rest := ⟨rest ++ behind, hbehind⟩
        obtain ⟨hoffset, hprevious⟩ := hcursor t hstarts
        rw [← hoffset, ← hprevious] at hspelled
        have hrests : rest <+: (cursor.advance t.length).rest := by
          rw [Cursor.rest_advance, ← hbehind, List.drop_left]
          exact List.prefix_append _ _
        refine ⟨first, _, mem_run_recogniser_iff.2 ⟨t, hpiece, hstarts, rfl⟩, Recogniser.mem_run_bind.2
          ⟨others, _, ih.2 ⟨rest, hspelled, hrests, ?_⟩, Recogniser.mem_run_pure.2 ⟨rfl, rfl⟩⟩⟩
        rw [List.length_append, Cursor.advance_add]

end Piece

end Bilingual

import Bilingual.Proofs.Pattern.Expression
import Bilingual.Proofs.Step

set_option autoImplicit false

/-! # Expressions that are written

Whatever a step of the reader takes, it leaves an end of the text behind it (`Reader.leaves_step`). So a step for every
code point is enough, and reading is told by its steps (`Reader.run_cons`). A text with a backslash in front of all but
letters and digits is an expression for that text (`Following.ofText_quoted`), so any text can be asked for as it is
(`Following.find?_quoted`). -/

namespace Bilingual

namespace Expression

/-! ## What is left of a text -/

section Suffix

variable {t rest behind : Text}

theorem octal?_suffix {c : CodePoint} (h : octal? t = some (c, behind)) : behind <:+ t := by
  unfold octal? at h
  dsimp only at h
  split_ifs at h
  obtain ⟨d, -, h⟩ := Option.bind_eq_some_iff.1 h
  cases h
  exact List.drop_suffix _ _

theorem escaped?_suffix {member : PointMember} (h : escaped? t = some (member, behind)) : behind <:+ t := by
  unfold escaped? at h
  split at h
  · cases h
  · next c rest =>
    refine .trans ?_ (List.suffix_cons c rest)
    split at h
    · cases h
      exact List.suffix_rfl
    · split_ifs at h
      obtain ⟨n, -, h⟩ := Option.bind_eq_some_iff.1 h
      obtain ⟨d, -, h⟩ := Option.bind_eq_some_iff.1 h
      cases h
      exact List.drop_suffix _ _
    · split_ifs at h
      cases h
      exact List.suffix_rfl

theorem member?_suffix {member : PointMember} (h : member? t = some (member, behind)) : behind <:+ t := by
  unfold member? at h
  split at h
  · cases h
  · next c rest =>
    refine .trans ?_ (List.suffix_cons c rest)
    split_ifs at h
    · cases h
      exact List.tail_suffix _
    · obtain ⟨⟨d, behind⟩, hfound, heq⟩ := Option.map_eq_some_iff.1 h
      cases heq
      exact octal?_suffix hfound
    · exact escaped?_suffix h
    · cases h
      exact List.suffix_rfl

theorem members?_suffix {fuel : Nat} {first : Bool} {members : List PointMember}
    (h : members? fuel first t = some (members, behind)) : behind <:+ t := by
  induction fuel generalizing first t members behind with
  | zero => cases h
  | succ fuel ih =>
    rw [members?] at h
    split_ifs at h
    · cases h
      exact List.tail_suffix _
    · obtain ⟨⟨low, between⟩, hlow, h⟩ := Option.bind_eq_some_iff.1 h
      refine .trans ?_ (member?_suffix hlow)
      dsimp only at h
      split_ifs at h
      · obtain ⟨⟨high, later⟩, hhigh, h⟩ := Option.bind_eq_some_iff.1 h
        obtain ⟨range, -, h⟩ := Option.bind_eq_some_iff.1 h
        obtain ⟨⟨others, last⟩, hothers, h⟩ := Option.bind_eq_some_iff.1 h
        cases h
        exact (ih hothers).trans ((member?_suffix hhigh).trans (List.tail_suffix _))
      · obtain ⟨⟨others, last⟩, hothers, h⟩ := Option.bind_eq_some_iff.1 h
        cases h
        exact ih hothers

theorem set?_suffix {negated : Bool} {members : List PointMember} (h : set? t = some (negated, members, behind)) :
    behind <:+ t := by
  unfold set? at h
  obtain ⟨⟨members, behind⟩, hmembers, h⟩ := Option.bind_eq_some_iff.1 h
  cases h
  refine (members?_suffix hmembers).trans ?_
  split_ifs
  · exact List.tail_suffix _
  · exact List.suffix_rfl

theorem number_suffix (t : Text) : (number t).2 <:+ t := List.dropWhile_suffix _

theorem bounds?_suffix {least : Nat} {most : Option Nat} (h : bounds? t = some (least, most, behind)) :
    behind <:+ t := by
  unfold bounds? at h
  refine .trans ?_ (number_suffix t)
  generalize number t = found at h ⊢
  obtain ⟨first, between⟩ := found
  dsimp only at h ⊢
  split at h
  · cases h
  · next c rest =>
    refine .trans ?_ (List.suffix_cons c rest)
    split_ifs at h
    · cases h
      exact (List.tail_suffix _).trans (number_suffix rest)
    · obtain ⟨n, -, heq⟩ := Option.map_eq_some_iff.1 h
      cases heq
      exact List.suffix_rfl

theorem repetition?_suffix {c : CodePoint} {least : Nat} {most : Option Nat}
    (h : repetition? c rest = some (least, most, behind)) : behind <:+ rest := by
  unfold repetition? at h
  split_ifs at h
  · cases h
    exact List.suffix_rfl
  · cases h
    exact List.suffix_rfl
  · cases h
    exact List.suffix_rfl
  · exact bounds?_suffix h

theorem changed?_suffix {flags changed : Flags} (h : flags.changed? t = some (changed, behind)) : behind <:+ t := by
  unfold Flags.changed? at h
  dsimp only at h
  split_ifs at h with hminus
  · cases h
    exact (List.tail_suffix _).trans ((List.drop_suffix _ _).trans ((List.tail_suffix _).trans (List.drop_suffix _ _)))
  · cases h
    exact (List.tail_suffix _).trans (List.drop_suffix _ _)

end Suffix

/-- What a step leaves is an end of a text. -/
def Leaves {α : Type} (t : Text) (result : Except Mistake (α × Text)) : Prop :=
  ∀ a behind, result = .ok (a, behind) → behind <:+ t

section Leaves

variable {α β : Type} {t behind : Text}

theorem leaves_pure {a : α} (h : behind <:+ t) : Leaves t (pure (a, behind)) := by
  rintro _ _ ⟨⟩
  exact h

theorem leaves_throw (mistake : Mistake) : Leaves t (throw mistake : Except Mistake (α × Text)) := by
  rintro _ _ ⟨⟩

theorem leaves_throw_bind (mistake : Mistake) (rest : β → Except Mistake (α × Text)) :
    Leaves t (throw mistake >>= rest) := by
  rintro _ _ ⟨⟩

theorem leaves_bind {first : Except Mistake β} {rest : β → Except Mistake (α × Text)} (h : ∀ b, Leaves t (rest b)) :
    Leaves t (first >>= rest) := by
  intro a behind hresult
  obtain ⟨b, -, hrest⟩ := Except.bind_eq_ok_iff.1 hresult
  exact h b a behind hrest

theorem leaves_demand {found : Option β} {rest : β → Except Mistake (α × Text)}
    (h : ∀ b, found = some b → Leaves t (rest b)) : Leaves t (demand found >>= rest) := by
  cases found with
  | none => exact leaves_throw _
  | some b => exact h b rfl

theorem Leaves.ite {p : Prop} [Decidable p] {first second : Except Mistake (α × Text)} (hfirst : Leaves t first)
    (hsecond : Leaves t second) : Leaves t (if p then first else second) := by
  split
  · exact hfirst
  · exact hsecond

end Leaves

namespace Reader

variable {reader next : Reader} {t rest behind : Text} {c : CodePoint}

theorem leaves_repeatLast (reader : Reader) (least : Nat) (most : Option Nat) (t : Text) :
    Leaves t (reader.repeatLast least most t) := by
  unfold repeatLast
  refine .ite (leaves_throw_bind _ _) (.ite (leaves_throw_bind _ _) ?_)
  dsimp only
  split
  · refine leaves_pure ?_
    split
    · exact List.tail_suffix _
    · exact List.suffix_rfl
  · exact leaves_throw _

theorem until?_suffix {found : Text} (h : until? c t = some (found, behind)) : behind <:+ t := by
  unfold until? at h
  dsimp only at h
  split_ifs at h
  cases h
  exact List.drop_suffix _ _

theorem name?_suffix {name : Text} (h : name? c t = some (name, behind)) : behind <:+ t := by
  unfold name? at h
  obtain ⟨⟨name, behind⟩, hfound, h⟩ := Option.bind_eq_some_iff.1 h
  dsimp only at h
  split_ifs at h
  cases h
  exact until?_suffix hfound

theorem behindComment?_suffix (h : behindComment? c t = some behind) : behind <:+ t := by
  fun_induction behindComment? c t with
  | case1 => cases h
  | case2 => cases h; exact List.nil_suffix
  | case3 => cases h
  | case4 => cases h; exact List.suffix_cons _ _
  | case5 e rest hne ih => exact (ih h).trans ((List.suffix_cons e rest).trans (List.suffix_cons _ _))
  | case6 d e rest hne hescape ih => exact (ih h).trans (List.suffix_cons d _)

/-- What a parenthesis opens leaves an end of the text behind its question mark. -/
theorem leaves_extension (reader : Reader) (t : Text) : Leaves t (reader.extension t) := by
  unfold extension
  split
  · exact leaves_throw _
  next c rest =>
  have hrest : rest <:+ c :: rest := List.suffix_cons c rest
  have htail : rest.tail <:+ c :: rest := (List.tail_suffix rest).trans hrest
  dsimp only
  refine .ite (.ite ?named (.ite ?again ?_)) <| .ite ?_ <| .ite ?comment <| .ite ?_ <| .ite ?_ <|
    .ite (.ite ?_ (.ite ?_ ?_)) <| .ite ?ifTook <| .ite ?_ ?flags
  case named =>
    refine leaves_demand ?_
    rintro ⟨name, behind⟩ hname
    exact .ite (leaves_throw_bind _ _) (leaves_pure ((name?_suffix hname).trans htail))
  case again =>
    refine leaves_demand ?_
    rintro ⟨name, behind⟩ hname
    exact leaves_demand fun number _ => leaves_bind fun added => leaves_pure ((name?_suffix hname).trans htail)
  case comment =>
    exact leaves_demand fun behind hbehind => leaves_pure ((behindComment?_suffix hbehind).trans hrest)
  case ifTook =>
    refine leaves_demand ?_
    rintro ⟨name, behind⟩ hname
    refine leaves_demand fun number _ => ?_
    exact .ite (leaves_throw_bind _ _) (leaves_bind fun opened => leaves_pure ((until?_suffix hname).trans hrest))
  case flags =>
    refine leaves_demand ?_
    rintro ⟨flags, behind⟩ hflags
    exact leaves_pure (changed?_suffix hflags)
  all_goals first | exact leaves_pure hrest | exact leaves_pure htail | exact leaves_throw _

theorem leaves_escape (reader : Reader) (t : Text) : Leaves t (reader.escape t) := by
  unfold escape
  split
  · exact leaves_pure (List.tail_suffix _)
  · dsimp only
    refine .ite (.ite (leaves_demand ?_) (leaves_demand fun number _ => ?_)) (leaves_demand ?_)
    · rintro ⟨d, behind⟩ hfound
      exact leaves_pure (octal?_suffix hfound)
    · exact leaves_bind fun added => leaves_pure (List.drop_suffix _ _)
    · rintro ⟨member, behind⟩ hfound
      exact leaves_pure (escaped?_suffix hfound)

/-- A step leaves an end of the text behind the code point that it begins with. -/
theorem leaves_step (reader : Reader) (c : CodePoint) (rest : Text) : Leaves rest (reader.step c rest) := by
  unfold step
  dsimp only
  refine .ite (leaves_bind fun _ => ?_) <| .ite (leaves_bind fun _ => ?_) <| .ite ?_ <| .ite ?comment <|
    .ite (leaves_escape _ _) <| .ite ?_ <| .ite ?_ <| .ite ?_ <| .ite (leaves_demand ?set) <|
      .ite (.ite ?extension ?_) ?repeated
  case comment =>
    refine leaves_pure ?_
    cases hcomment : behindComment? '\n' rest with
    | none => exact List.nil_suffix
    | some behind => exact behindComment?_suffix hcomment
  case set =>
    rintro ⟨negated, members, behind⟩ hset
    exact leaves_pure (set?_suffix hset)
  case extension => exact fun a behind h => (leaves_extension _ _ a behind h).trans (List.tail_suffix _)
  case repeated =>
    split
    · next hrepetition =>
      exact fun a behind h => (leaves_repeatLast _ _ _ _ a behind h).trans (repetition?_suffix hrepetition)
    · exact leaves_pure List.suffix_rfl
  all_goals exact leaves_pure List.suffix_rfl

/-! ## Reading is told by its steps -/

/-- With a step for every code point, more steps change nothing. -/
theorem run_of_le {fuel : Nat} (h : t.length ≤ fuel) : run fuel reader t = run t.length reader t := by
  induction fuel using Nat.strongRecOn generalizing reader t with
  | ind fuel ih =>
    cases t with
    | nil => cases fuel <;> rfl
    | cons c rest =>
      obtain ⟨fuel, rfl⟩ : ∃ n, fuel = n + 1 := Nat.exists_eq_add_one.2 (Nat.lt_of_lt_of_le (Nat.succ_pos _) h)
      have hrest : rest.length ≤ fuel := Nat.le_of_succ_le_succ h
      rw [List.length_cons, run, run]
      cases hstep : reader.step c rest with
      | error => rfl
      | ok found =>
        obtain ⟨next, behind⟩ := found
        have hbehind := (leaves_step _ _ _ _ _ hstep).length_le
        show run fuel next behind = run rest.length next behind
        rw [ih fuel (Nat.lt_succ_self _) (Nat.le_trans hbehind hrest), ih rest.length (Nat.lt_succ_of_le hrest) hbehind]

/-- A text is read by its first step and by reading what that leaves. -/
theorem run_cons (reader : Reader) (c : CodePoint) (rest : Text) : run (c :: rest).length reader (c :: rest) =
    reader.step c rest >>= fun found => run found.2.length found.1 found.2 := by
  rw [List.length_cons, run]
  cases hstep : reader.step c rest with
  | error => rfl
  | ok found => exact run_of_le (leaves_step _ _ _ _ _ hstep).length_le

/-! ## Texts that are read as themselves -/

/-- The code points that may have a meaning behind a backslash; all others have none there. -/
def isAlphanumeric (c : CodePoint) : Bool := c.isAsciiLetter || c.isAsciiDigit

theorem ne_of_isAlphanumeric {d : CodePoint} (hc : isAlphanumeric c = true) (hd : isAlphanumeric d = false) : c ≠ d := by
  rintro rfl
  rw [hc] at hd
  cases hd

theorem lookup_eq_none {α : Type} {table : List (CodePoint × α)}
    (htable : ∀ entry ∈ table, isAlphanumeric entry.1 = true) (hc : isAlphanumeric c = false) :
    table.lookup c = none := by
  refine List.lookup_eq_none_iff.2 fun entry hentry => ?_
  exact bne_iff_ne.2 (ne_of_isAlphanumeric (htable entry hentry) hc).symm

/-- The part that stands for one code point. -/
def letter (c : CodePoint) : Part where
  expression := .points (.single c)
  width := ⟨1, 1⟩

theorem addPoints_eq (hflags : reader.group.flags = {}) (c : CodePoint) :
    reader.addPoints false [.point c] = reader.add (letter c) := by
  rw [addPoints, hflags]
  rfl

/-- A letter or a digit stands for itself. -/
theorem step_plain (hflags : reader.group.flags = {}) (hc : isAlphanumeric c = true) (rest : Text) :
    reader.step c rest = .ok (reader.add (letter c), rest) := by
  have hne : ∀ d : Char, isAlphanumeric d = false → c ≠ (d : CodePoint) := fun d hd => ne_of_isAlphanumeric hc hd
  have hrepetition : repetition? c rest = none := by
    rw [repetition?, if_neg (hne '*' rfl), if_neg (hne '+' rfl), if_neg (hne '?' rfl), if_neg (hne '\x7b' rfl)]
  rw [← addPoints_eq hflags]
  unfold step
  dsimp only
  rw [if_neg (hne '|' rfl), if_neg (hne ')' rfl), hflags, if_neg Bool.false_ne_true, if_neg Bool.false_ne_true,
    if_neg (hne '\\' rfl), if_neg (hne '.' rfl), if_neg (hne '^' rfl), if_neg (hne '$' rfl), if_neg (hne '[' rfl),
    if_neg (hne '(' rfl), hrepetition]
  rfl

/-- Behind a backslash anything else stands for itself. -/
theorem step_backslash (hflags : reader.group.flags = {}) (hc : isAlphanumeric c = false) (rest : Text) :
    reader.step '\\' (c :: rest) = .ok (reader.add (letter c), rest) := by
  have hplaces : (({} : Flags).placeLetters).lookup c = none := lookup_eq_none (by decide) hc
  have hescapes : escapes.lookup c = none := lookup_eq_none (by decide) hc
  have hlengths : hexLengths.lookup c = none := lookup_eq_none (by decide) hc
  obtain ⟨hletter, hdigit⟩ := Bool.or_eq_false_iff.1 hc
  have hescaped : escaped? (c :: rest) = some (.point c, rest) := by
    rw [escaped?, hescapes, hlengths, hletter, hdigit]
    rfl
  have hescape : reader.escape (c :: rest) = .ok (reader.add (letter c), rest) := by
    rw [← addPoints_eq hflags]
    simp only [escape, List.head?_cons, Option.bind_some, hflags, hplaces, Option.any_some, hdigit, Bool.false_eq_true,
      if_false, hescaped]
    rfl
  unfold step
  rw [hflags]
  exact hescape

/-- A text with a backslash in front of everything but letters and digits. -/
def quoted (t : Text) : Text := t.flatMap fun c => if isAlphanumeric c then [c] else ['\\', c]

/-- Behind a quoted text its code points have been read, the latest first. -/
theorem run_quoted (hflags : reader.group.flags = {}) (t rest : Text) :
    run (quoted t ++ rest).length reader (quoted t ++ rest) = run rest.length
      { reader with group := { reader.group with parts := (t.map letter).reverse ++ reader.group.parts } } rest := by
  induction t generalizing reader with
  | nil => rfl
  | cons c t ih =>
    have hstep : run (quoted (c :: t) ++ rest).length reader (quoted (c :: t) ++ rest) =
        run (quoted t ++ rest).length (reader.add (letter c)) (quoted t ++ rest) := by
      rw [quoted, List.flatMap_cons]
      by_cases hc : isAlphanumeric c = true
      · rw [if_pos hc, List.append_assoc, List.singleton_append, run_cons, step_plain hflags hc]
        rfl
      · rw [if_neg hc, List.append_assoc, List.cons_append, List.singleton_append, run_cons,
          step_backslash hflags (Bool.eq_false_iff.2 hc)]
        rfl
    have hadded : (reader.add (letter c)).group.flags = {} := hflags
    rw [hstep, ih hadded, List.map_cons, List.reverse_cons, List.append_assoc]
    rfl

end Reader

/-- One code point after the other. -/
def letters (t : Text) : List Expression := t.map fun c => .points (.single c)

section Ways

variable {t text : Text} {marks taken : Marks} {cursor behind : Cursor}

theorem has_single_iff {c d : CodePoint} : (PointSet.single c).has d = true ↔ d = c := by
  have hval : c.val = d.val ↔ c = d := ⟨fun h => by cases c; cases d; cases h; rfl, congrArg _⟩
  simp [PointSet.has, PointSet.same, PointSet.single, hval, eq_comm]

theorem way_row_cons_iff {expression : Expression} {rest : List Expression} :
    (row (expression :: rest)).Way text marks cursor taken behind ↔
      (expression.seq (row rest)).Way text marks cursor taken behind := by
  cases rest with
  | cons next rest => rfl
  | nil =>
    constructor
    · exact fun h => ⟨taken, behind, h, rfl, rfl⟩
    · rintro ⟨_, _, h, rfl, rfl⟩
      exact h

/-- Letters are read where their text lies ahead. -/
theorem way_letters_iff : (row (letters t)).Way text marks cursor taken behind ↔
    taken = marks ∧ t <+: cursor.rest ∧ behind = cursor.advance t.length := by
  induction t generalizing marks cursor with
  | nil => exact ⟨fun ⟨htaken, hbehind⟩ => ⟨htaken, List.nil_prefix, hbehind⟩, fun ⟨htaken, _, h⟩ => ⟨htaken, h⟩⟩
  | cons c t ih =>
    rw [letters, List.map_cons, way_row_cons_iff]
    constructor
    · rintro ⟨_, _, ⟨rfl, d, hd, ⟨rest, hrest⟩, rfl⟩, hway⟩
      obtain rfl := has_single_iff.1 hd
      obtain ⟨rfl, hstarts, rfl⟩ := ih.1 hway
      rw [Cursor.rest_advance, ← hrest] at hstarts
      refine ⟨rfl, ?_, ?_⟩
      · rw [← hrest]
        exact List.cons_prefix_cons.2 ⟨rfl, hstarts⟩
      · rw [← Cursor.advance_add, List.length_cons, Nat.add_comm]
    · rintro ⟨rfl, ⟨rest, hrest⟩, rfl⟩
      refine ⟨taken, cursor.advance 1, ⟨rfl, c, has_single_iff.2 rfl, ⟨t ++ rest, hrest⟩, rfl⟩, ih.2 ⟨rfl, ?_, ?_⟩⟩
      · rw [Cursor.rest_advance, ← hrest]
        exact List.prefix_append t rest
      · rw [← Cursor.advance_add, List.length_cons, Nat.add_comm]

end Ways

end Expression

namespace Following

open Expression

/-- A text that is quoted is looked for behind an occurrence. -/
theorem ofText_quoted {t : Text} (ht : t ≠ []) :
    ofText (Reader.quoted t) = .ok { next := .looksAhead true (row (letters t)) } := by
  have hempty : (Reader.quoted t).isEmpty = false := by
    obtain ⟨c, rest, rfl⟩ := List.exists_cons_of_ne_nil ht
    rw [Reader.quoted, List.flatMap_cons]
    by_cases hc : Reader.isAlphanumeric c = true
    · rw [if_pos hc]
      rfl
    · rw [if_neg hc]
      rfl
  have hletters : row (((t.map Reader.letter).reverse ++ []).reverse.map fun part : Part => part.expression) =
      row (letters t) := by
    rw [List.append_nil, List.reverse_reverse, List.map_map]
    rfl
  have hrun : Reader.run ("(?=" ++ Reader.quoted t ++ ")" : Text).length pairReader ("(?=" ++ Reader.quoted t ++ ")") =
      .ok { pairReader with group := { parts := [⟨⟨.looksAhead true (row (letters t)), .zero⟩, true⟩] } } := by
    have hopened : Reader.run ("(?=" ++ (Reader.quoted t ++ ")") : Text).length pairReader
        ("(?=" ++ (Reader.quoted t ++ ")")) = Reader.run (Reader.quoted t ++ ")" : Text).length
          (pairReader.open (.looksAhead true) {}) (Reader.quoted t ++ ")") := Reader.run_cons _ _ _
    rw [← hletters, List.append_assoc, hopened, Reader.run_quoted rfl]
    exact Reader.run_cons _ _ _
  unfold ofText
  rw [hempty, if_neg Bool.false_ne_true]
  dsimp only
  rw [hrun]
  rfl

/-- A text that is quoted has to follow as it is. -/
theorem find?_quoted {t : Text} {following : Following} (ht : t ≠ []) (h : ofText (Reader.quoted t) = .ok following)
    (text : Text) (marks : Marks) (cursor : Cursor) :
    following.next.find? text marks cursor = if t <+: cursor.rest then some (marks, cursor) else none := by
  rw [ofText_quoted ht] at h
  cases h
  have hbody : (row (letters t)).find? text marks cursor =
      if t <+: cursor.rest then some (marks, cursor.advance t.length) else none := by
    split_ifs with hstarts
    · obtain ⟨⟨taken, behind⟩, hfound⟩ := Option.ne_none_iff_exists'.1
        (find?_ne_none_iff.2 ⟨_, _, way_letters_iff.2 ⟨rfl, hstarts, rfl⟩⟩)
      obtain ⟨rfl, -, rfl⟩ := way_letters_iff.1 (way_of_find? hfound).1
      exact hfound
    · by_contra hfound
      obtain ⟨taken, behind, hway⟩ := find?_ne_none_iff.1 hfound
      exact hstarts (way_letters_iff.1 hway).2.1
  show look true ((row (letters t)).find? text marks cursor) done marks cursor = _
  rw [hbody]
  split_ifs <;> rfl

end Following

end Bilingual

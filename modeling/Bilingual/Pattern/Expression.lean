import Bilingual.Pattern.Recogniser
import Bilingual.Text.Case

set_option autoImplicit false

/-! # Expressions

What has to follow an occurrence is told by a regular expression. Here it is a tree of sets of code points, places,
groups and operators on them; how it is written is in `Bilingual.Pattern.Reader`. It is read by trying: every tree is
given what is to be read behind it, and of several ways to read, the next one is tried when the one before leads
nowhere. -/

namespace Bilingual

/-! ## Sets of code points -/

/-- A property of code points with a name. -/
inductive PointKind where
  | digit
  | space
  | word
deriving DecidableEq, Repr

/-- Whether a code point has a property, or has it and is an ASCII one. -/
def PointKind.has (ascii : Bool) (kind : PointKind) (c : CodePoint) : Bool :=
  (!ascii || c.val < 0x80) && match kind with
    | digit => c.decimalValue?.isSome
    | space => if ascii then c.isWhiteSpace else c.isSpace
    | word => c.isWord

/-- What a set of code points is put together from. -/
inductive PointMember where
  | point (c : CodePoint)
  | range (first last : CodePoint)
  | kind (negated : Bool) (property : PointKind)
deriving DecidableEq, Repr

/-- A set of code points: those of its members, or all others. -/
structure PointSet where
  negated : Bool := false
  members : List PointMember
  /-- Properties and letters are the ASCII ones. -/
  ascii : Bool := false
  ignoreCase : Bool := false
deriving DecidableEq, Repr

namespace PointSet

/-- The numbers of the code points that count as the same as a code point. -/
def same (set : PointSet) (c : CodePoint) : List Nat :=
  if set.ignoreCase then if set.ascii then c.asciiVariants else c.variants else [c.val]

/-- Whether a code point belongs to a set. -/
def has (set : PointSet) (c : CodePoint) : Bool :=
  let belongs := set.members.any fun
    | .point d => (set.same c).contains d.val
    | .range first last => (set.same c).any fun n => first.val ≤ n && n ≤ last.val
    | .kind negated property => property.has set.ascii c != negated
  belongs != set.negated

/-- The set of one code point. -/
def single (c : CodePoint) : PointSet where members := [.point c]

end PointSet

/-! ## Places -/

/-- A place that an expression asks for. -/
inductive Place where
  | textStart
  | textEnd
  | lineStart
  | lineEnd
  /-- The end of the text, or in front of a line break there. -/
  | lastLineEnd
  /-- Where a word begins or ends, or where none does. A text without code points has no such place. -/
  | wordEdge (negated ascii : Bool)
deriving DecidableEq, Repr

/-- Whether a cursor is at a place. A text ends where its window does. -/
def Place.holds : Place → Cursor → Bool
  | textStart, cursor => cursor.previous.isNone
  | textEnd, cursor => cursor.rest.isEmpty
  | lineStart, cursor => cursor.previous.all (· == ('\n' : CodePoint))
  | lineEnd, cursor => cursor.rest.head?.all (· == ('\n' : CodePoint))
  | lastLineEnd, cursor => cursor.rest.isEmpty || cursor.rest == "\n"
  | wordEdge negated ascii, cursor =>
    let isWord := PointKind.word.has ascii
    (cursor.previous.isSome || !cursor.rest.isEmpty) &&
      (cursor.previous.any isWord != cursor.rest.head?.any isWord) != negated

/-- The cursor `n` code points back in a text, as far as there are so many in front. -/
def Cursor.back? (text : Text) (n : Nat) (cursor : Cursor) : Option Cursor :=
  if n ≤ cursor.offset then
    some {
      offset := cursor.offset - n
      previous := text.before? (cursor.offset - n)
      rest := text.slice (cursor.offset - n) cursor.offset ++ cursor.rest }
  else none

/-! ## Trees -/

/-- A regular expression. Groups have numbers. -/
inductive Expression where
  | nothing
  | points (set : PointSet)
  | place (asked : Place)
  | seq (first rest : Expression)
  | either (first second : Expression)
  /-- The body as often as `least` says, and after that any number of times, at most `more` times if that is given; as
  often as possible, or as few times as possible. -/
  | times (least : Nat) (more : Option Nat) (few : Bool) (body : Expression)
  /-- The body, whose place is kept under a number. -/
  | group (number : Nat) (body : Expression)
  /-- What the group with a number took, once more. -/
  | again (number : Nat) (ignoreCase ascii : Bool)
  /-- One of two, depending on whether the group with a number took part. -/
  | ifTook (number : Nat) (yes no : Expression)
  /-- The body follows, or it does not. -/
  | looksAhead (wanted : Bool) (body : Expression)
  /-- The body, which has a fixed width, stands in front, or it does not. -/
  | looksBehind (width : Nat) (wanted : Bool) (body : Expression)
  /-- The first way to read the body and no other one. -/
  | atomic (body : Expression)
deriving DecidableEq, Repr

namespace Expression

/-- One after the other. -/
def row : List Expression → Expression
  | [] => nothing
  | [expression] => expression
  | expression :: rest => seq expression (row rest)

/-! ## Reading -/

/-- Where groups began and ended: the number of a mark, two of them for each group, with its offset, the latest
first. -/
abbrev Marks := List (Nat × Nat)

namespace Marks

/-- The mark where a group begins. -/
def opening (number : Nat) : Nat := 2 * number

/-- The mark where a group ends. -/
def closing (number : Nat) : Nat := 2 * number + 1

/-- The span of what a group took, if it took part. -/
def span? (marks : Marks) (number : Nat) : Option (Nat × Nat) := do
  let start ← marks.lookup (opening number)
  let stop ← marks.lookup (closing number)
  if start ≤ stop then some (start, stop) else none

end Marks

/-- How to read on at a cursor. -/
abbrev Continuation := Marks → Cursor → Option (Marks × Cursor)

/-- Nothing more to read. -/
def done : Continuation := fun marks cursor => some (marks, cursor)

/-- What the first of two comes to, or else the other one; in the other order if they are swapped. -/
def tryBoth (swapped : Bool) (first second : Unit → Option (Marks × Cursor)) : Option (Marks × Cursor) :=
  if swapped then (second ()).orElse first else (first ()).orElse second

/-- Read a number of times. -/
def repeated (body : Continuation → Continuation) : Nat → Continuation → Continuation
  | 0, next => next
  | n + 1, next => fun marks cursor => body (fun marks behind => repeated body n next marks behind) marks cursor

/-- Read some more times, at most the given number of times, and not again where the time before took nothing. -/
def further (body : Continuation → Continuation) (few : Bool) : Nat → Option Nat → Continuation → Continuation
  | 0, _, next => next
  | n + 1, last, next => fun marks cursor =>
    let more := fun _ : Unit =>
      if last = some cursor.offset then none
      else body (fun marks behind => further body few n (some cursor.offset) next marks behind) marks cursor
    tryBoth few more fun _ => next marks cursor

/-- Whether two code points are the same, or have the same small letter. -/
def samePoint (ignoreCase ascii : Bool) (c d : CodePoint) : Bool :=
  if ignoreCase then if ascii then c.asciiVariants.contains d.val else c.small == d.small else c == d

/-- Whether a text lies ahead of a cursor, up to what counts as the same code point. -/
def repeats (same : CodePoint → CodePoint → Bool) (t : Text) (cursor : Cursor) : Bool :=
  let found := cursor.rest.take t.length
  found.length = t.length && (t.zip found).all fun (c, d) => same c d

/-- Go on where the cursor is if something has been found, or if it has not. -/
def look (wanted : Bool) (found : Option (Marks × Cursor)) (next : Continuation) : Continuation := fun marks cursor =>
  match found with
  | some (taken, _) => if wanted then next taken cursor else none
  | none => if wanted then none else next marks cursor

/-- Read an expression, and what is to be read behind it. The cursor is in the given text, which also holds what stands
in front of the window. -/
def read (text : Text) : Expression → Continuation → Continuation
  | nothing, next => next
  | points set, next => fun marks cursor => match cursor.rest with
    | [] => none
    | c :: rest => if set.has c then next marks (cursor.step c rest) else none
  | place asked, next => fun marks cursor => if asked.holds cursor then next marks cursor else none
  | seq first rest, next => first.read text (rest.read text next)
  | either first second, next => fun marks cursor =>
    tryBoth false (fun _ => first.read text next marks cursor) fun _ => second.read text next marks cursor
  | times least more few body, next =>
    repeated (body.read text) least fun marks cursor =>
      -- every time but the last one takes a code point
      let most := cursor.rest.length + 1
      further (body.read text) few (more.elim most (min most)) none next marks cursor
  | group number body, next => fun marks cursor =>
    body.read text (fun marks behind => next ((Marks.closing number, behind.offset) :: marks) behind)
      ((Marks.opening number, cursor.offset) :: marks) cursor
  | again number ignoreCase ascii, next => fun marks cursor => do
    let (start, stop) ← marks.span? number
    let took := text.slice start stop
    if repeats (samePoint ignoreCase ascii) took cursor then next marks (cursor.advance took.length) else none
  | ifTook number yes no, next => fun marks cursor =>
    if (marks.span? number).isSome then yes.read text next marks cursor else no.read text next marks cursor
  | looksAhead wanted body, next => fun marks cursor =>
    look wanted (body.read text done marks cursor) next marks cursor
  | looksBehind width wanted body, next => fun marks cursor =>
    look wanted ((cursor.back? text width).bind fun back => body.read text done marks back) next marks cursor
  | atomic body, next => fun marks cursor => do
    let (marks, behind) ← body.read text done marks cursor
    next marks behind

/-- Read an expression in the first way there is. -/
def find? (expression : Expression) (text : Text) : Continuation := expression.read text done

end Expression

end Bilingual

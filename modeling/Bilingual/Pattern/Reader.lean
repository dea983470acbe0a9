import Bilingual.Pattern.Expression
import Bilingual.Text.Name

set_option autoImplicit false

/-! # How expressions are written

An expression is read code point by code point, with a stack of the groups that are open. What has to follow a pair is
written into the expression for the pair itself, as a group that looks ahead: so its groups are numbered behind those of
the two literals, it may refer to these, and it may close the group that it has been put in (`Following.ofText`). The
names of code points are not known here: an expression that has one is refused. -/

namespace Bilingual

/-- Why an expression cannot be read. -/
inductive Mistake where
  | malformed
  /-- The number of a repetition is too large. -/
  | tooLarge
deriving DecidableEq, Repr

namespace Expression

/-- What is found, or else the expression is not well formed. -/
def demand {α : Type} : Option α → Except Mistake α
  | some a => .ok a
  | none => .error .malformed

/-! ## Sets and escapes -/

/-- Letters with a meaning of their own behind a backslash, in a set and outside of one. -/
def escapes : List (CodePoint × PointMember) := [
  ('d', .kind false .digit), ('D', .kind true .digit), ('s', .kind false .space), ('S', .kind true .space),
  ('w', .kind false .word), ('W', .kind true .word), ('a', .point '\x07'), ('f', .point '\x0c'),
  ('n', .point '\n'), ('r', .point '\r'), ('t', .point '\t'), ('v', .point '\x0b')]

/-- How many hexadecimal digits have to follow a letter behind a backslash. -/
def hexLengths : List (CodePoint × Nat) := [('x', 2), ('u', 4), ('U', 8)]

/-- An octal digit. -/
def isOctal (c : CodePoint) : Bool := 0x30 ≤ c.val && c.val ≤ 0x37

/-- The code point with the number that the octal digits at the beginning of a text write, three of them at most, and
the text behind them. -/
def octal? (t : Text) : Option (CodePoint × Text) := do
  let digits := (t.take 3).takeWhile isOctal
  let n := digits.foldl (fun n c => n * 8 + (c.val - 0x30)) 0
  if digits.isEmpty || 0xFF < n then none else return (← CodePoint.ofNat? n, t.drop digits.length)

/-- What stands behind a backslash, if it is no digit, and the text behind it. -/
def escaped? : Text → Option (PointMember × Text)
  | [] => none
  | c :: rest =>
    match escapes.lookup c, hexLengths.lookup c with
    | some member, _ => some (member, rest)
    | none, some n => do
      if rest.length < n then none
      else
        let c ← CodePoint.ofNat? (← Text.hexNumber? (rest.take n))
        return (.point c, rest.drop n)
    | none, none => if c.isAsciiDigit || c.isAsciiLetter then none else some (.point c, rest)

/-- A member of a set, or the bound of a range, and the text behind it. -/
def member? : Text → Option (PointMember × Text)
  | [] => none
  | c :: rest =>
    if c = '\\' then
      if rest.head? = some ('b' : CodePoint) then some (.point '\x08', rest.tail)
      else if rest.head?.any CodePoint.isAsciiDigit then (octal? rest).map fun (c, behind) => (.point c, behind)
      else escaped? rest
    else some (.point c, rest)

/-- The range between two code points. -/
def range? : PointMember → PointMember → Option PointMember
  | .point first, .point last => if first.val ≤ last.val then some (.range first last) else none
  | _, _ => none

/-- The members of a set up to the bracket that closes it, and the text behind that. The first member may be that
bracket, and a hyphen in front of it stands for itself. -/
def members? : Nat → Bool → Text → Option (List PointMember × Text)
  | 0, _, _ => none
  | fuel + 1, first, t =>
    if !first && t.head? = some (']' : CodePoint) then some ([], t.tail)
    else do
      let (low, behind) ← member? t
      if behind.head? = some ('-' : CodePoint) && behind.tail.head? ≠ some (']' : CodePoint) then
        let (high, behind) ← member? behind.tail
        let range ← range? low high
        let (members, behind) ← members? fuel false behind
        return (range :: members, behind)
      else
        let (members, behind) ← members? fuel false behind
        return (low :: members, behind)

/-- A set, given the text behind the bracket that opens it: whether it is negated, its members, and the text behind
it. -/
def set? (t : Text) : Option (Bool × List PointMember × Text) := do
  let negated := t.head? = some ('^' : CodePoint)
  let (members, behind) ← members? (t.length + 1) true (if negated then t.tail else t)
  return (negated, members, behind)

/-! ## Repetitions -/

/-- The number written by the digits that a text begins with, if there are any, and the text behind them. -/
def number (t : Text) : Option Nat × Text :=
  (Text.decimalNumber? (t.takeWhile CodePoint.isAsciiDigit), t.dropWhile CodePoint.isAsciiDigit)

/-- How often something is to be repeated at least and at most, given the text behind an opening brace, and the text
behind the closing one. -/
def bounds? (t : Text) : Option (Nat × Option Nat × Text) :=
  let (least, behind) := number t
  match least, behind with
  | _, [] => none
  | least, c :: rest =>
    if c = ',' then
      let (most, behind) := number rest
      if behind.head? = some ('\x7d' : CodePoint) then some (least.getD 0, most, behind.tail) else none
    else if c = '\x7d' then least.map fun n => (n, some n, rest)
    else none

/-- How often something is to be repeated, if that is what a code point and the text behind it say, and the text behind
that. -/
def repetition? (c : CodePoint) (rest : Text) : Option (Nat × Option Nat × Text) :=
  if c = '*' then some (0, none, rest)
  else if c = '+' then some (1, none, rest)
  else if c = '?' then some (0, some 1, rest)
  else if c = '\x7b' then bounds? rest
  else none

/-- The numbers of repetitions are less than this. -/
def repetitionLimit : Nat := 4294967295

/-! ## Flags -/

/-- How a part of an expression is to be read. -/
structure Flags where
  ascii : Bool := false
  ignoreCase : Bool := false
  multiline : Bool := false
  dotAll : Bool := false
  /-- Whitespace and comments stand for nothing. -/
  verbose : Bool := false
deriving DecidableEq, Repr

namespace Flags

/-- The flags with some turned on and some turned off, each by its letter. -/
def change (flags : Flags) (on off : Text) : Flags where
  ascii := (flags.ascii || on.contains ('a' : CodePoint)) && !on.contains ('u' : CodePoint)
  ignoreCase := (flags.ignoreCase || on.contains ('i' : CodePoint)) && !off.contains ('i' : CodePoint)
  multiline := (flags.multiline || on.contains ('m' : CodePoint)) && !off.contains ('m' : CodePoint)
  dotAll := (flags.dotAll || on.contains ('s' : CodePoint)) && !off.contains ('s' : CodePoint)
  verbose := (flags.verbose || on.contains ('x' : CodePoint)) && !off.contains ('x' : CodePoint)

/-- The letters of the flags that may be turned off. -/
def offLetters : Text := "imsx"

/-- The letters of the flags that may be turned on; of the last two only one. -/
def onLetters : Text := "imsxau"

/-- The flags of a group that says how its body is to be read, given the text behind its question mark, and the text
behind its colon. -/
def changed? (flags : Flags) (t : Text) : Option (Flags × Text) :=
  let on := t.takeWhile onLetters.contains
  let behind := t.drop on.length
  let minus := behind.head? = some ('-' : CodePoint)
  let off := if minus then behind.tail.takeWhile offLetters.contains else []
  let behind := if minus then behind.tail.drop off.length else behind
  let wellFormed := (if minus then !off.isEmpty else !on.isEmpty) && !on.any off.contains &&
    !(on.contains ('a' : CodePoint) && on.contains ('u' : CodePoint)) && behind.head? = some (':' : CodePoint)
  if wellFormed then some (flags.change on off, behind.tail) else none

/-- The set with these members. -/
def pointSet (flags : Flags) (negated : Bool) (members : List PointMember) : PointSet where
  negated := negated
  members := members
  ascii := flags.ascii
  ignoreCase := flags.ignoreCase

/-- Letters for places behind a backslash. -/
def placeLetters (flags : Flags) : List (CodePoint × Place) :=
  [('A', .textStart), ('Z', .textEnd), ('b', .wordEdge false flags.ascii), ('B', .wordEdge true flags.ascii)]

end Flags

/-! ## Groups -/

/-- How many code points an expression takes at least and at most. -/
structure Width where
  least : Nat
  most : Nat
deriving DecidableEq, Repr

namespace Width

/-- More code points than anything that stands in front can have. -/
def unbounded : Nat := 18446744073709551616

/-- The width of nothing. -/
def zero : Width := ⟨0, 0⟩

/-- The width of one behind the other. -/
def add (first rest : Width) : Width := ⟨first.least + rest.least, first.most + rest.most⟩

/-- The width of one of two. -/
def either (first second : Width) : Width := ⟨min first.least second.least, max first.most second.most⟩

/-- The width of a number of times. -/
def times (width : Width) (least : Nat) (most : Option Nat) : Width where
  least := width.least * least
  most := match most with
    | some n => width.most * n
    | none => if width.most = 0 then 0 else unbounded

/-- Whether all there is has the same number of code points, and not too many of them. -/
def isFixed (width : Width) : Bool := width.least = width.most && width.least ≤ 0xFFFFFFFF

end Width

/-- An expression and how many code points it takes. -/
structure Measured where
  expression : Expression
  width : Width

/-- A part of a row. A place and a repetition may not be repeated. -/
structure Part extends Measured where
  repeatable : Bool := true

/-- What becomes of the body of a group. -/
inductive GroupKind where
  | plain
  | atomic
  | numbered (number : Nat)
  | looksAhead (wanted : Bool)
  /-- The outermost of several that look behind is marked. -/
  | looksBehind (wanted outermost : Bool)
  | ifTook (number : Nat)
deriving DecidableEq, Repr

/-- A group that is open: the alternatives that are complete and the parts of the next one, the latest first. -/
structure OpenGroup where
  kind : GroupKind := .plain
  flags : Flags := {}
  before : List Measured := []
  parts : List Part := []

namespace OpenGroup

/-- The alternative that is being read. -/
def last (group : OpenGroup) : Measured where
  expression := row (group.parts.reverse.map fun part => part.expression)
  width := group.parts.foldr (fun part width => width.add part.width) .zero

/-- All alternatives. -/
def body (group : OpenGroup) : Measured :=
  group.before.foldl (fun later earlier => ⟨earlier.expression.either later.expression,
    earlier.width.either later.width⟩) group.last

/-- The part that the group is, once it is closed. -/
def closed (group : OpenGroup) : Part :=
  match group.kind with
  | .plain => { group.body with }
  | .atomic => { group.body with expression := .atomic group.body.expression }
  | .numbered number => { group.body with expression := .group number group.body.expression }
  | .looksAhead wanted => ⟨⟨.looksAhead wanted group.body.expression, .zero⟩, true⟩
  | .looksBehind wanted _ => ⟨⟨.looksBehind group.body.width.least wanted group.body.expression, .zero⟩, true⟩
  | .ifTook number =>
    match group.before with
    | yes :: _ =>
      ⟨⟨.ifTook number yes.expression group.last.expression, yes.width.either group.last.width⟩, true⟩
    | [] => ⟨⟨.ifTook number group.last.expression .nothing, { group.last.width with least := 0 }⟩, true⟩

end OpenGroup

/-! ## Reading code point by code point -/

/-- An expression that has been read in part. -/
structure Reader where
  /-- The groups with a name and their numbers. -/
  names : List (Text × Nat) := []
  /-- The widths of the groups by number, from one on; none while a group is open. -/
  widths : List (Option Width) := []
  /-- Inside of what stands in front only groups with a lesser number can be referred to. -/
  limit : Option Nat := none
  /-- The greatest number of a group that something depends on. -/
  asked : Nat := 0
  /-- Something that stands in front has no fixed width. -/
  unfixed : Bool := false
  group : OpenGroup := {}
  around : List OpenGroup := []

namespace Reader

/-- Put a part behind what has been read. -/
def add (reader : Reader) (part : Part) : Reader :=
  { reader with group := { reader.group with parts := part :: reader.group.parts } }

/-- Put a set behind what has been read. -/
def addPoints (reader : Reader) (negated : Bool) (members : List PointMember) : Reader :=
  reader.add ⟨⟨.points (reader.group.flags.pointSet negated members), ⟨1, 1⟩⟩, true⟩

/-- Put a place behind what has been read. -/
def addPlace (reader : Reader) (asked : Place) : Reader := reader.add ⟨⟨.place asked, .zero⟩, false⟩

/-- Open a group. -/
def «open» (reader : Reader) (kind : GroupKind) (flags : Flags) : Reader :=
  { reader with group := { kind, flags }, around := reader.group :: reader.around }

/-- Open a group with the next number, and with a name if one is given. -/
def openNumbered (reader : Reader) (name : Option Text) : Reader :=
  let number := reader.widths.length + 1
  let named := { reader with
    names := name.toList.map (·, number) ++ reader.names
    widths := reader.widths ++ [none] }
  named.open (.numbered number) reader.group.flags

/-- Open a group that looks behind. -/
def openBehind (reader : Reader) (wanted : Bool) : Reader :=
  let opened := reader.open (.looksBehind wanted reader.limit.isNone) reader.group.flags
  { opened with limit := some (reader.limit.getD (reader.widths.length + 1)) }

/-- The width of what the group with a number takes, if it can be referred to. -/
def width? (reader : Reader) (number : Nat) : Option Width :=
  if number = 0 || reader.limit.any (· ≤ number) then none else (reader.widths[number - 1]?).join

/-- Put what a group took behind what has been read. -/
def addAgain (reader : Reader) (number : Nat) : Except Mistake Reader := do
  let width ← demand (reader.width? number)
  let flags := reader.group.flags
  return reader.add ⟨⟨.again number flags.ignoreCase flags.ascii, width⟩, true⟩

/-- Open a group whose body depends on the group with a number. -/
def openIfTook (reader : Reader) (number : Nat) : Except Mistake Reader := do
  if reader.limit.isSome then
    let _ ← demand (reader.width? number)
  return { reader.open (.ifTook number) reader.group.flags with asked := max reader.asked number }

/-- Begin the next alternative. -/
def bar (reader : Reader) : Except Mistake Reader :=
  let group := reader.group
  let complete : Bool := match group.kind, group.before with
    | .ifTook _, _ :: _ => true
    | _, _ => false
  if complete then .error .malformed
  else .ok { reader with group := { group with before := group.last :: group.before, parts := [] } }

/-- Close the group that has been opened last. -/
def close (reader : Reader) : Except Mistake Reader :=
  match reader.around with
  | [] => .error .malformed
  | outer :: around =>
    let part := reader.group.closed
    let closed := { reader with group := { outer with parts := part :: outer.parts }, around := around }
    .ok <| match reader.group.kind with
      | .numbered number => { closed with widths := closed.widths.set (number - 1) (some part.width) }
      | .looksBehind _ outermost => { closed with
          limit := if outermost then none else closed.limit
          unfixed := closed.unfixed || !reader.group.body.width.isFixed }
      | _ => closed

/-- Repeat the last part, and the text behind that: a question mark asks for few times first, a plus sign keeps to the
first way to read it each time, and to all those times. -/
def repeatLast (reader : Reader) (least : Nat) (most : Option Nat) (behind : Text) :
    Except Mistake (Reader × Text) := do
  if repetitionLimit ≤ least || most.any (repetitionLimit ≤ ·) then throw .tooLarge
  if most.any (· < least) then throw .malformed
  match reader.group.parts with
  | ⟨⟨expression, width⟩, true⟩ :: parts =>
    let few := behind.head? = some ('?' : CodePoint)
    let keeps := behind.head? = some ('+' : CodePoint)
    let body := if keeps then expression.atomic else expression
    let repeated := body.times least (most.map (· - least)) few
    let part : Part := ⟨⟨if keeps then repeated.atomic else repeated, width.times least most⟩, false⟩
    return ({ reader with group := { reader.group with parts := part :: parts } },
      if few || keeps then behind.tail else behind)
  | _ => throw .malformed

/-! ### What a parenthesis opens -/

/-- A text up to a code point, and the text behind that. -/
def until? (c : CodePoint) (t : Text) : Option (Text × Text) :=
  let found := t.takeWhile (· ≠ c)
  if found.length < t.length then some (found, t.drop (found.length + 1)) else none

/-- A name up to a code point, and the text behind that. -/
def name? (c : CodePoint) (t : Text) : Option (Text × Text) := do
  let (name, behind) ← until? c t
  if name.isName then some (name, behind) else none

/-- The number that the digits of a text write. There may be single underscores between them. -/
def groupNumberFrom? (n : Nat) : Text → Option Nat
  | [] => some n
  | c :: rest => match c.decimalValue?, rest with
    | some digit, rest => groupNumberFrom? (n * 10 + digit) rest
    | none, d :: rest =>
      if c = '_' then d.decimalValue?.bind fun digit => groupNumberFrom? (n * 10 + digit) rest else none
    | none, [] => none

/-- The number of a group that a text writes: digits of any script, with whitespace and a sign around them. -/
def groupNumber? (t : Text) : Option Nat :=
  let t := t.trim
  let digits := if t.head? = some ('+' : CodePoint) then t.tail else t
  if digits.head?.any (·.decimalValue?.isSome) then groupNumberFrom? 0 digits else none

/-- The text behind a comment, given the text behind its start. A backslash takes the next code point along. -/
def behindComment? (closing : CodePoint) : Text → Option Text
  | [] => none
  | [c] => if c = closing then some [] else none
  | c :: d :: rest =>
    if c = closing then some (d :: rest)
    else if c = '\\' then behindComment? closing rest
    else behindComment? closing (d :: rest)

/-- Go on behind the question mark that follows a parenthesis. -/
def extension (reader : Reader) : Text → Except Mistake (Reader × Text)
  | [] => .error .malformed
  | c :: rest => do
    let flags := reader.group.flags
    let behind := rest.tail
    if c = 'P' then
      if rest.head? = some ('<' : CodePoint) then
        let (name, behind) ← demand (name? '>' behind)
        if (reader.names.lookup name).isSome then throw .malformed
        return (reader.openNumbered (some name), behind)
      else if rest.head? = some ('=' : CodePoint) then
        let (name, behind) ← demand (name? ')' behind)
        return (← reader.addAgain (← demand (reader.names.lookup name)), behind)
      else throw .malformed
    else if c = ':' then return (reader.open .plain flags, rest)
    else if c = '#' then return (reader, ← demand (behindComment? ')' rest))
    else if c = '=' then return (reader.open (.looksAhead true) flags, rest)
    else if c = '!' then return (reader.open (.looksAhead false) flags, rest)
    else if c = '<' then
      if rest.head? = some ('=' : CodePoint) then return (reader.openBehind true, behind)
      else if rest.head? = some ('!' : CodePoint) then return (reader.openBehind false, behind)
      else throw .malformed
    else if c = '(' then
      let (name, behind) ← demand (until? ')' rest)
      let number ← demand (if name.isName then reader.names.lookup name else groupNumber? name)
      if number = 0 then throw .malformed
      return (← reader.openIfTook number, behind)
    else if c = '>' then return (reader.open .atomic flags, rest)
    else
      let (flags, behind) ← demand (flags.changed? (c :: rest))
      return (reader.open .plain flags, behind)

/-! ### One step -/

/-- Go on behind a backslash. -/
def escape (reader : Reader) (t : Text) : Except Mistake (Reader × Text) := do
  match t.head?.bind (List.lookup · reader.group.flags.placeLetters) with
  | some found => return (reader.addPlace found, t.tail)
  | none =>
    if t.head?.any CodePoint.isAsciiDigit then
      let digits := (t.take 3).takeWhile CodePoint.isAsciiDigit
      if t.head? = some ('0' : CodePoint) || (digits.length = 3 && digits.all isOctal) then
        let (c, behind) ← demand (octal? t)
        return (reader.addPoints false [.point c], behind)
      else
        let digits := digits.take 2
        let number ← demand (Text.decimalNumber? digits)
        return (← reader.addAgain number, t.drop digits.length)
    else
      let (member, behind) ← demand (escaped? t)
      return (reader.addPoints false [member], behind)

/-- Whitespace that stands for nothing where an expression is verbose. -/
def blanks : Text := " \t\n\r\x0b\x0c"

/-- Read a code point and what belongs to it, given the text behind it. -/
def step (reader : Reader) (c : CodePoint) (rest : Text) : Except Mistake (Reader × Text) := do
  let flags := reader.group.flags
  if c = '|' then return (← reader.bar, rest)
  else if c = ')' then return (← reader.close, rest)
  else if flags.verbose && blanks.contains c then return (reader, rest)
  else if flags.verbose && c = '#' then return (reader, (behindComment? '\n' rest).getD [])
  else if c = '\\' then reader.escape rest
  else if c = '.' then
    return (reader.addPoints true (if flags.dotAll then [] else [.point '\n']), rest)
  else if c = '^' then return (reader.addPlace (if flags.multiline then .lineStart else .textStart), rest)
  else if c = '$' then return (reader.addPlace (if flags.multiline then .lineEnd else .lastLineEnd), rest)
  else if c = '[' then
    let (negated, members, behind) ← demand (set? rest)
    return (reader.addPoints negated members, behind)
  else if c = '(' then
    if rest.head? = some ('?' : CodePoint) then reader.extension rest.tail
    else return (reader.openNumbered none, rest)
  else
    match repetition? c rest with
    | some (least, most, behind) => reader.repeatLast least most behind
    | none => return (reader.addPoints false [.point c], rest)

/-- Read a text. Every step takes a code point, so there are enough of them. -/
def run : Nat → Reader → Text → Except Mistake Reader
  | _, reader, [] => .ok reader
  | 0, _, _ :: _ => .error .malformed
  | fuel + 1, reader, c :: rest => do
    let (reader, behind) ← reader.step c rest
    run fuel reader behind

/-- Whether a text that has been read is an expression: all groups are closed, those that something depends on exist,
and what stands in front has a fixed width. -/
def isComplete (reader : Reader) : Bool :=
  reader.around.isEmpty && reader.asked ≤ reader.widths.length && !reader.unfixed

end Reader

end Expression

/-! ## What has to follow -/

/-- What comes behind an occurrence. -/
structure Following where
  /-- What is read behind it. -/
  next : Expression := .nothing
  /-- What may be read in place of the occurrence and all that follows it. -/
  instead : Option Expression := none
  /-- The number of the group named `key`. -/
  key : Option Nat := none
deriving DecidableEq, Repr

namespace Following

/-- The number of the group of the primary literal. -/
def primaryGroup : Nat := 1

/-- The number of the group of the secondary literal. -/
def secondaryGroup : Nat := 2

/-- An expression for a pair that has been read up to what has to follow. The literals are groups of it: two quotes and
any number of code points between them. -/
def pairReader : Expression.Reader where
  names := [("primary", primaryGroup), ("secondary", secondaryGroup)]
  widths := List.replicate 2 (some ⟨2, Expression.Width.unbounded⟩)

/-- What has to follow, given all that has been read. -/
def ofReader (reader : Expression.Reader) : Following where
  next := ((reader.group.before.getLast?).getD reader.group.last).expression
  instead := if reader.group.before.isEmpty then none
    else some { reader.group with before := reader.group.before.dropLast }.body.expression
  key := reader.names.lookup ("key" : Text)

/-- What has to follow, as a text writes it; nothing if the text is empty. -/
def ofText (written : Text) : Except Failure Following :=
  if written.isEmpty then .ok {}
  else
    let source : Text := "(?=" ++ written ++ ")"
    match Expression.Reader.run source.length pairReader source with
    | .error .tooLarge => .error .repetitionRange
    | .error .malformed => .error (.lookahead written)
    | .ok reader => if reader.isComplete then .ok (ofReader reader) else .error (.lookahead written)

end Following

end Bilingual

import Bilingual.Literal.Escape
import Bilingual.Text.Search
import Bilingual.Text.Word

set_option autoImplicit false

/-! # Recognisers

A recogniser reads a piece of text at a cursor. It gives all the ways to read, the preferred one first,
each with the cursor behind it, so that a longer shape can fall back to a later way when the preferred
one leads nowhere. What is behind the end of a search window is out of sight; what stands right in front
of the cursor is not. -/

namespace Bilingual

/-- A place in a text: its offset, the code point in front of it, and what lies ahead. -/
structure Cursor where
  offset : Nat
  previous : Option CodePoint
  rest : Text
deriving DecidableEq, Repr

namespace Cursor

/-- The start of a window. -/
def ofWindow (text : Text) (start stop : Nat) : Cursor where
  offset := start
  previous := if start = 0 then none else text[start - 1]?
  rest := text.slice start stop

/-- The cursor behind the next code point, given that code point and what follows it. -/
def step (cursor : Cursor) (c : CodePoint) (rest : Text) : Cursor where
  offset := cursor.offset + 1
  previous := some c
  rest := rest

/-- The cursor `n` code points ahead, as far as there are so many. -/
def advance : Nat → Cursor → Cursor
  | 0, cursor => cursor
  | n + 1, cursor => match cursor.rest with
    | [] => cursor
    | c :: rest => advance n (cursor.step c rest)

end Cursor

/-- All the ways to read a piece of text at a cursor, the preferred one first. -/
structure Recogniser (α : Type) where
  run : Cursor → List (α × Cursor)

namespace Recogniser

variable {α β : Type}

instance : Monad Recogniser where
  pure a := ⟨fun cursor => [(a, cursor)]⟩
  bind r f := ⟨fun cursor => (r.run cursor).flatMap fun (a, behind) => (f a).run behind⟩

/-- The preferred way to read at a cursor. -/
def first? (r : Recogniser α) (cursor : Cursor) : Option (α × Cursor) := (r.run cursor).head?

/-- No way to read at all. -/
def nothing : Recogniser Unit := ⟨fun _ => []⟩

/-- The ways of the first recogniser, then those of the second. -/
def orElse (r s : Recogniser α) : Recogniser α := ⟨fun cursor => r.run cursor ++ s.run cursor⟩

/-- Read with the first recogniser if it can, and nothing otherwise or if that leads nowhere. -/
def optional (r : Recogniser α) : Recogniser (Option α) :=
  orElse (some <$> r) (pure none)

/-- One code point with the given property. -/
def satisfying (p : CodePoint → Bool) : Recogniser CodePoint := ⟨fun cursor =>
  match cursor.rest with
  | [] => []
  | c :: rest => if p c then [(c, cursor.step c rest)] else []⟩

/-- One given code point. -/
def point (c : CodePoint) : Recogniser Unit := do
  let _ ← satisfying (· == c)

/-- A given text. -/
def exactly (t : Text) : Recogniser Unit := ⟨fun cursor =>
  if t.isPrefixOf cursor.rest then [((), cursor.advance t.length)] else []⟩

/-- The cursors behind none, one, two … code points with the given property. -/
def cursorsBehind (p : CodePoint → Bool) (cursor : Cursor) : Text → List Cursor
  | [] => [cursor]
  | c :: rest => cursor :: if p c then cursorsBehind p (cursor.step c rest) rest else []

/-- A run of code points with the given property, as long as possible or shorter. -/
def many (p : CodePoint → Bool) : Recogniser Unit := ⟨fun cursor =>
  (cursorsBehind p cursor cursor.rest).reverse.map fun behind => ((), behind)⟩

/-- The longest run of code points with the given property. There is one way to read it, so this is for
runs that nothing could follow which they hold themselves. -/
def longest (p : CodePoint → Bool) : Recogniser Text := ⟨fun cursor =>
  let run := cursor.rest.takeWhile p
  [(run, cursor.advance run.length)]⟩

/-- Any amount of whitespace. -/
def spaces : Recogniser Unit := many CodePoint.isSpace

/-- Read only where no identifier ends. -/
def atWordStart (r : Recogniser α) : Recogniser α := ⟨fun cursor =>
  match r.run cursor with
  | [] => []
  | ways => if cursor.previous.any CodePoint.isIdentifier then [] else ways⟩

/-- Read nothing, where the given recogniser could read. -/
def ahead (r : Recogniser α) : Recogniser Unit := ⟨fun cursor =>
  if (r.run cursor).isEmpty then [] else [((), cursor)]⟩

/-- Read nothing, at the end of the window. -/
def atEnd : Recogniser Unit := ⟨fun cursor => if cursor.rest.isEmpty then [((), cursor)] else []⟩

/-- The places between two cursors of a window where a recogniser reads something, from left to right
and without overlap. The first `skip` code points belong to the place before. -/
def allFrom (r : Recogniser α) (skip : Nat) (cursor : Cursor) : Text → List (Nat × α × Nat)
  | [] => []
  | c :: rest =>
    match skip with
    | skip + 1 => allFrom r skip (cursor.step c rest) rest
    | 0 => match r.first? cursor with
      | some (a, behind) =>
        (cursor.offset, a, behind.offset) ::
          allFrom r (behind.offset - cursor.offset - 1) (cursor.step c rest) rest
      | none => allFrom r 0 (cursor.step c rest) rest

/-- Every place where a recogniser reads in a window: where it starts, what it reads, and where it
ends. The recognisers of this library read at least one code point. -/
def all (r : Recogniser α) (text : Text) (start stop : Nat) : List (Nat × α × Nat) :=
  let cursor := Cursor.ofWindow text start stop
  allFrom r 0 cursor cursor.rest

/-- What a recogniser reads at the end of a window, where it may read nothing. -/
def atWindowEnd (r : Recogniser α) (text : Text) (stop : Nat) : List (Nat × α × Nat) :=
  let last := min stop text.length
  (r.first? (Cursor.ofWindow text last stop)).toList.map fun (a, behind) => (last, a, behind.offset)

/-- Every place where a recogniser reads in a window, its end among them. -/
def places (r : Recogniser α) (text : Text) (start stop : Nat) : List (Nat × α × Nat) :=
  r.all text start stop ++ if start ≤ min stop text.length then r.atWindowEnd text stop else []

/-- The leftmost place from a cursor on where a recogniser reads. -/
def findFrom? (r : Recogniser α) (cursor : Cursor) : Text → Option (Nat × α × Nat)
  | [] => none
  | c :: rest => match r.first? cursor with
    | some (a, behind) => some (cursor.offset, a, behind.offset)
    | none => findFrom? r (cursor.step c rest) rest

/-- The leftmost place where a recogniser reads in a window. -/
def find? (r : Recogniser α) (text : Text) (start stop : Nat) : Option (Nat × α × Nat) :=
  let cursor := Cursor.ofWindow text start stop
  findFrom? r cursor cursor.rest

end Recogniser

end Bilingual

import BitmapAsset.Blank
import BitmapAsset.Pattern.Fault

/-! # Reading a pattern

A cursor stands at a place of a pattern and holds what follows.  In a loose pattern it passes over blanks
and comments; a comment runs from a number sign to the end of its line.  A `Reading` moves the cursor
and fails with a fault. -/

namespace BitmapAsset.Pattern

/-- A place in a pattern and the rest of the pattern. -/
structure Cursor where
  place : Place
  rest : List Char
  /-- Whether blanks and comments are passed over. -/
  loose : Bool := false
deriving DecidableEq, Repr

namespace Cursor

/-- The start of a pattern. -/
def ofPattern (pattern : List Char) : Cursor := ⟨.start, pattern, false⟩

/-- The next character. -/
def head? (c : Cursor) : Option Char := c.rest.head?

/-- Whether the pattern is over. -/
def atEnd (c : Cursor) : Bool := c.rest.isEmpty

/-- The cursor after the next character. -/
def next (c : Cursor) : Cursor :=
  match c.rest with
  | [] => c
  | ch :: rest => { c with place := c.place.next ch, rest := rest }

/-- The place and the rest after blanks and comments. -/
def skipFrom (p : Place) : List Char → Bool → Place × List Char
  | [], _ => (p, [])
  | c :: rest, true => skipFrom (p.next c) rest (c ≠ '\n')
  | c :: rest, false =>
    if isBlank c then skipFrom (p.next c) rest false
    else if c = '#' then skipFrom (p.next c) rest true
    else (p, c :: rest)

/-- The cursor after what a loose pattern passes over. -/
def skip (c : Cursor) : Cursor :=
  if c.loose then
    let (place, rest) := skipFrom c.place c.rest false
    { c with place, rest }
  else c

/-- The cursor after the next character and what a loose pattern passes over then. -/
def step (c : Cursor) : Cursor := c.next.skip

/-- The empty span at the cursor. -/
def here (c : Cursor) : Span := .empty c.place

/-- The span of the next character. -/
def ahead (c : Cursor) : Span := ⟨c.place, c.next.place⟩

/-- The span from a place to the cursor. -/
def since (c : Cursor) (first : Place) : Span := ⟨first, c.place⟩

/-- The cursor after a text, if the text is next. -/
def after? (c : Cursor) : List Char → Option Cursor
  | [] => some c
  | ch :: text => if c.head? = some ch then c.next.after? text else none

/-- The character that comes after the next one and the blanks behind it.  One number sign among the
blanks is passed over with them, and where nothing else follows, blanks count. -/
def secondInSet? (c : Cursor) : Option Char :=
  if c.loose then
    let behind := c.rest.tail
    match behind.dropWhile isBlank with
    | '#' :: rest => (rest.dropWhile isBlank).head? <|> behind.head?
    | rest => rest.head? <|> behind.head?
  else c.rest.tail.head?

/-- The next characters as long as they pass a test, and the cursor after them. -/
def spanFrom (p : Char → Bool) (move : Cursor → Cursor) : Nat → Cursor → List Char × Cursor
  | 0, c => ([], c)
  | n + 1, c =>
    match c.head? with
    | some ch =>
      if p ch then
        let (more, c) := spanFrom p move n (move c)
        (ch :: more, c)
      else ([], c)
    | none => ([], c)

end Cursor

/-- A computation that reads a pattern. -/
abbrev Reading := StateT Cursor (Except Fault)

namespace Reading

/-- Fails because of a part of the pattern. -/
def fail {α : Type} (span : Span) (cause : Cause) : Reading α := throw ⟨span, cause, none⟩

/-- Goes past the next character. -/
def next : Reading Unit := modify Cursor.next

/-- Goes past the next character and what a loose pattern passes over then. -/
def step : Reading Unit := modify Cursor.step

/-- The next characters as long as they pass a test, moving on from each in the given way. -/
def takeWhile (p : Char → Bool) (move : Cursor → Cursor) : Reading (List Char) := do
  let c ← get
  let (found, c) := c.spanFrom p move c.rest.length
  set c
  return found

end Reading

end BitmapAsset.Pattern

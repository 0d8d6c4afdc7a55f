/-! # Places in a pattern

A place is known by its distance from the start and by its line and column, which count from one.  A span
runs from its first place up to the place past it. -/

namespace BitmapAsset.Pattern

/-- A place between two characters of a pattern. -/
structure Place where
  offset : Nat
  line : Nat
  column : Nat
deriving DecidableEq, Repr

namespace Place

/-- The place in front of everything. -/
def start : Place := ⟨0, 1, 1⟩

/-- The place after a character. -/
def next (p : Place) (c : Char) : Place :=
  if c = '\n' then ⟨p.offset + 1, p.line + 1, 1⟩ else ⟨p.offset + 1, p.line, p.column + 1⟩

end Place

/-- A part of a pattern. -/
structure Span where
  first : Place
  past : Place
deriving DecidableEq, Repr

namespace Span

/-- The span that holds nothing. -/
def empty (p : Place) : Span := ⟨p, p⟩

/-- Whether a span stays in its line. -/
def inOneLine (s : Span) : Bool := s.first.line == s.past.line

/-- How many columns are marked for a span in one line: at least one. -/
def width (s : Span) : Nat := max 1 (s.past.column - s.first.column)

end Span

end BitmapAsset.Pattern

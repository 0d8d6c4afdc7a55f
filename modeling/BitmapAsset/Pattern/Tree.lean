import BitmapAsset.Pattern.Expr
import BitmapAsset.Pattern.Place

/-! # Patterns as written

The parts of a pattern in the order they are written in, each with its place.  What they mean depends on the
settings in force. -/

namespace BitmapAsset.Pattern

/-- What can be set for a part of a pattern. -/
inductive Setting where
  /-- Letters stand for both cases. -/
  | caseless
  /-- Texts start and end at every line. -/
  | byLine
  /-- The dot stands for the end of a line too. -/
  | dotAll
  /-- Repetitions prefer to be short; this does not change what fits. -/
  | short
  /-- Characters of all scripts are known. -/
  | wide
  /-- A carriage return ends a line too. -/
  | carriageReturn
  /-- Blanks and comments are skipped in the pattern itself. -/
  | loose
deriving DecidableEq, Repr

/-- What is switched on and off, in order. -/
abbrev Switches := List (Setting × Bool)

/-- A character that stands for itself. -/
structure Literal where
  span : Span
  char : Char
  /-- Whether it was written as a byte with two digits. -/
  asByte : Bool := false
deriving DecidableEq, Repr

/-- What can be asked about a gap, as written. -/
inductive Assertion where
  | lineStart
  | lineEnd
  | textStart
  | textEnd
  | edge (e : Edge)
deriving DecidableEq, Repr

/-- How two sets are put together. -/
inductive SetOp where
  | inter
  | diff
  | symmDiff
deriving DecidableEq, Repr

/-- A set of characters as written. -/
inductive SetTree where
  | empty (span : Span)
  | literal (l : Literal)
  | range (span : Span) (first last : Literal)
  /-- A set of plain characters that is given by its name. -/
  | named (span : Span) (negated : Bool) (set : CharSet)
  /-- A set that is given by one letter. -/
  | brief (span : Span) (negated : Bool) (set : CharSet)
  /-- The characters with a property, which is given by its name. -/
  | property (span : Span) (name : List Char)
  | union (span : Span) (items : List SetTree)
  | combine (span : Span) (op : SetOp) (left right : SetTree)
  | bracket (span : Span) (negated : Bool) (content : SetTree)

namespace SetTree

/-- Where a set is written. -/
def span : SetTree → Span
  | empty s => s
  | literal l => l.span
  | range s _ _ => s
  | named s _ _ => s
  | brief s _ _ => s
  | property s _ => s
  | union s _ => s
  | combine s _ _ _ => s
  | bracket s _ _ => s

mutual

/-- The first set that lies deeper than so many levels. -/
def tooDeep? (levels : Nat) : SetTree → Option Span
  | union s items => match levels with
    | 0 => some s
    | n + 1 => anyTooDeep? n items
  | combine s _ left right => match levels with
    | 0 => some s
    | n + 1 => left.tooDeep? n <|> right.tooDeep? n
  | bracket s _ content => match levels with
    | 0 => some s
    | n + 1 => content.tooDeep? n
  | _ => none

/-- The first of several sets that lies too deep. -/
def anyTooDeep? (levels : Nat) : List SetTree → Option Span
  | [] => none
  | s :: rest => s.tooDeep? levels <|> anyTooDeep? levels rest

end

end SetTree

/-- A pattern as written. -/
inductive Tree where
  | empty (span : Span)
  | switches (span : Span) (s : Switches)
  | literal (l : Literal)
  | dot (span : Span)
  | assertion (span : Span) (a : Assertion)
  | set (s : SetTree)
  | times (span : Span) (least : Nat) (most : Option Nat) (t : Tree)
  /-- A group, and whether the place of what it fits is kept. -/
  | group (span : Span) (s : Switches) (kept : Bool) (t : Tree)
  | choice (span : Span) (ts : List Tree)
  | sequence (span : Span) (ts : List Tree)

namespace Tree

/-- Where a part is written. -/
def span : Tree → Span
  | empty s => s
  | switches s _ => s
  | literal l => l.span
  | dot s => s
  | assertion s _ => s
  | set s => s.span
  | times s _ _ _ => s
  | group s _ _ _ => s
  | choice s _ => s
  | sequence s _ => s

/-- Parts one after another. -/
def ofSequence (span : Span) : List Tree → Tree
  | [] => empty span
  | [t] => t
  | ts => sequence span ts

mutual

/-- The first part that lies deeper than so many levels. -/
def tooDeep? (levels : Nat) : Tree → Option Span
  | set s => s.tooDeep? levels
  | times s _ _ t => match levels with
    | 0 => some s
    | n + 1 => t.tooDeep? n
  | group s _ _ t => match levels with
    | 0 => some s
    | n + 1 => t.tooDeep? n
  | choice s ts => match levels with
    | 0 => some s
    | n + 1 => anyTooDeep? n ts
  | sequence s ts => match levels with
    | 0 => some s
    | n + 1 => anyTooDeep? n ts
  | _ => none

/-- The first of several parts that lies too deep. -/
def anyTooDeep? (levels : Nat) : List Tree → Option Span
  | [] => none
  | t :: rest => t.tooDeep? levels <|> anyTooDeep? levels rest

end

end Tree

end BitmapAsset.Pattern

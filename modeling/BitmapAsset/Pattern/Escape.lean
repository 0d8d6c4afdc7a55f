import BitmapAsset.Pattern.Cursor
import BitmapAsset.Pattern.Tree

/-! # Single parts of a pattern

An atom is a character, a dot, a question about the gap or a set that is written without brackets.  A
backslash takes its meaning from a character that has one, and gives a meaning to some letters. -/

namespace BitmapAsset.Pattern

/-- A part of a pattern that stands alone. -/
inductive Atom where
  | literal (l : Literal)
  | dot (span : Span)
  | assertion (span : Span) (a : Assertion)
  | set (s : SetTree)

namespace Atom

/-- Where an atom is written. -/
def span : Atom → Span
  | literal l => l.span
  | dot s => s
  | assertion s _ => s
  | set s => s.span

/-- An atom as a part of a pattern. -/
def toTree : Atom → Tree
  | literal l => .literal l
  | dot s => .dot s
  | assertion s a => .assertion s a
  | set s => .set s

end Atom

/-- Whether a character is a hexadecimal digit. -/
def isHexDigit (c : Char) : Bool :=
  c.isDigit || ('a' ≤ c && c ≤ 'f') || ('A' ≤ c && c ≤ 'F')

/-- The number that a digit stands for, in any base up to sixteen. -/
def digitValue (c : Char) : Nat :=
  if c.isDigit then c.toNat - '0'.toNat else c.toLower.toNat - 'a'.toNat + 10

/-- The number written with digits of a base. -/
def numberOf (base : Nat) (digits : List Char) : Nat :=
  digits.foldl (fun n c => base * n + digitValue c) 0

/-- The character that hexadecimal digits stand for. -/
def charOfHex? (digits : List Char) : Option Char :=
  let n := numberOf 16 digits
  if n.isValidChar then some (Char.ofNat n) else none

/-- Whether a backslash takes the meaning from a character: signs have none behind it, letters and digits
may have one, and angle brackets do. -/
def isEscapable (c : Char) : Bool :=
  c.toNat < 128 && !c.isAlphanum && c ≠ '<' && c ≠ '>'

/-- The control characters that have a letter. -/
def controlLetters : List (Char × Char) :=
  [('a', '\x07'), ('f', '\x0c'), ('t', '\t'), ('n', '\n'), ('r', '\r'), ('v', '\x0b')]

/-- The questions about the gap that have a letter. -/
def assertionLetters : List (Char × Assertion) :=
  [('A', .textStart), ('z', .textEnd), ('b', .edge .either), ('B', .edge .neither),
    ('<', .edge .start), ('>', .edge .stop)]

/-- The edges of words that have a name. -/
def edgeNames : List (String × Edge) :=
  [("start", .start), ("end", .stop), ("start-half", .notAfter), ("end-half", .notBefore)]

/-- The sets that have a letter; a capital letter stands for what is not in the set. -/
def briefSets : List (Char × CharSet) :=
  [('d', .digits), ('s', .blanks), ('w', .wordChars)]

/-- The number of digits of a character without braces, by the letter in front. -/
def hexLengths : List (Char × Nat) := [('x', 2), ('u', 4), ('U', 8)]

namespace Reading

/-- So many hexadecimal digits. -/
def hexDigits : Nat → Reading (List Char)
  | 0 => return []
  | n + 1 => do
    let c ← get
    match c.head? with
    | none => fail c.here .escapeAtEnd
    | some ch =>
      if isHexDigit ch then
        step
        let more ← hexDigits n
        return ch :: more
      else fail c.ahead .hexDigit

/-- A character by its number, from the letter on. -/
def hexChar (start : Place) (letter : Char) (count : Nat) : Reading Literal := do
  step
  let c ← get
  match c.head? with
  | none => fail c.here .escapeAtEnd
  | some '\x7b' =>
    step
    let digits ← takeWhile isHexDigit Cursor.step
    let past ← get
    match past.head? with
    | none => fail (past.since c.place) .escapeAtEnd
    | some '\x7d' =>
      step
      let done ← get
      if digits = [] then fail (done.since c.place) .hexEmpty
      match charOfHex? digits with
      | some char => return ⟨done.since start, char, false⟩
      | none => fail (past.since c.next.place) .hexValue
    | some _ => fail past.ahead .hexDigit
  | some _ =>
    let digits ← hexDigits count
    let done ← get
    match charOfHex? digits with
    | some char => return ⟨done.since start, char, letter = 'x'⟩
    | none => fail (done.since c.place) .hexValue

/-- A set by its property, from the letter on. -/
def property (start : Place) : Reading SetTree := do
  step
  let c ← get
  match c.head? with
  | none => fail c.here .escapeAtEnd
  | some '\x7b' =>
    step
    let name ← takeWhile (· ≠ '\x7d') Cursor.step
    let past ← get
    if past.atEnd then fail past.here .escapeAtEnd
    next
    return .property ((← get).since start) name
  | some '\\' => fail c.ahead .propertyEscape
  | some ch =>
    step
    return .property ((← get).since start) [ch]

/-- The name of an edge in braces, if what follows can be one; otherwise it is left alone. -/
def edgeName (start : Place) : Reading (Option Edge) := do
  let c ← get
  let inside := c.step
  match inside.head? with
  | none => fail (inside.since start) .edgeAtEnd
  | some ch =>
    if isNameChar ch then
      set inside
      let name ← takeWhile isNameChar Cursor.step
      let past ← get
      if past.head? = some '\x7d' then
        next
        match edgeNames.lookup (String.ofList name) with
        | some e => return some e
        | none => fail (past.since inside.place) .edgeUnknown
      else fail (past.since c.place) .edgeUnclosed
    else return none
where
  /-- Whether a character may stand in the name of an edge. -/
  isNameChar (c : Char) : Bool := c.isAlpha || c = '-'

/-- A question about the gap, after its letter. -/
def assertion (start : Place) (a : Assertion) : Reading Atom := do
  let c ← get
  if a = .edge .either ∧ c.head? = some '\x7b' then
    match ← edgeName start with
    | some e => return .assertion ((← get).since start) (.edge e)
    | none => return .assertion (c.since start) a
  else return .assertion (c.since start) a

/-- What a backslash and the characters behind it stand for. -/
def escape : Reading Atom := do
  let start := (← get).place
  next
  let c ← get
  match c.head? with
  | none => fail (c.since start) .escapeAtEnd
  | some ch =>
    if ch.isDigit then fail ⟨start, c.ahead.past⟩ .backreference
    if let some count := hexLengths.lookup ch then return .literal (← hexChar start ch count)
    if ch = 'p' ∨ ch = 'P' then return .set (← property start)
    next
    let span := (← get).since start
    if let some s := briefSets.lookup ch.toLower then return .set (.brief span ch.isUpper s)
    if isEscapable ch then return .literal ⟨span, ch, false⟩
    if let some control := controlLetters.lookup ch then return .literal ⟨span, control, false⟩
    match assertionLetters.lookup ch with
    | some a => assertion start a
    | none => fail span .escapeUnknown

/-- The character that is next, standing for itself. -/
def plain : Reading Literal := do
  let c ← get
  next
  return ⟨c.ahead, c.head?.getD '\x00', false⟩

/-- The atom that is next outside brackets. -/
def atom : Reading Atom := do
  let c ← get
  match c.head? with
  | some '\\' => escape
  | some '.' => do next; return .dot c.ahead
  | some '^' => do next; return .assertion c.ahead .lineStart
  | some '$' => do next; return .assertion c.ahead .lineEnd
  | _ => return .literal (← plain)

/-- The atom that is next inside brackets. -/
def setAtom : Reading Atom := do
  if (← get).head? = some '\\' then escape else return .literal (← plain)

end Reading

end BitmapAsset.Pattern

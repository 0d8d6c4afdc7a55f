import BitmapAsset.Pattern.Place

/-! # What is wrong with a pattern

A fault has a cause and a place, and sometimes an earlier place that it clashes with.  Its message
(`Fault.message`) shows the pattern with the places marked underneath.  The lines of a longer pattern are
numbered and stand between two dividers; a place that spans lines is told in words. -/

namespace BitmapAsset.Pattern

/-- How deep groups, repetitions and sets may lie in one another. -/
def depthLimit : Nat := 250

/-- The reasons to refuse a part of a pattern. -/
inductive Cause where
  | rangeBoundary
  | rangeOrder
  | setEscape
  | setUnclosed
  | numberEmpty
  | numberTooLarge
  | edgeUnclosed
  | edgeUnknown
  | edgeAtEnd
  | hexEmpty
  | hexValue
  | hexDigit
  | escapeAtEnd
  | escapeUnknown
  | backreference
  | switchDangling
  | switchTwice
  | switchNegatedTwice
  | switchAtEnd
  | switchUnknown
  | groupNameTwice
  | groupNameEmpty
  | groupNameChar
  | groupNameAtEnd
  | groupUnclosed
  | groupUnopened
  | lookAround
  | timesOrder
  | timesUnclosed
  | timesNothing
  | tooDeep
  | propertyEscape
  | onlyPlain
  | brokenBytes
  | propertyUnknown
  | propertyValueUnknown
  | briefUnknown
  | casesUnknown
deriving DecidableEq, Repr

namespace Cause

/-- The words for a cause. -/
def message : Cause → String
  | rangeBoundary => "invalid range boundary, must be a literal"
  | rangeOrder => "invalid character class range, the start must be <= the end"
  | setEscape => "invalid escape sequence found in character class"
  | setUnclosed => "unclosed character class"
  | numberEmpty => "repetition quantifier expects a valid decimal"
  | numberTooLarge => "decimal literal invalid"
  | edgeUnclosed =>
    "special word boundary assertion is either unclosed or contains an invalid character"
  | edgeUnknown =>
    "unrecognized special word boundary assertion, valid choices are: start, end, start-half or end-half"
  | edgeAtEnd =>
    "found either the beginning of a special word boundary or a bounded repetition on a \\b with an " ++
      "opening brace, but no closing brace"
  | hexEmpty => "hexadecimal literal empty"
  | hexValue => "hexadecimal literal is not a Unicode scalar value"
  | hexDigit => "invalid hexadecimal digit"
  | escapeAtEnd => "incomplete escape sequence, reached end of pattern prematurely"
  | escapeUnknown => "unrecognized escape sequence"
  | backreference => "backreferences are not supported"
  | switchDangling => "dangling flag negation operator"
  | switchTwice => "duplicate flag"
  | switchNegatedTwice => "flag negation operator repeated"
  | switchAtEnd => "expected flag but got end of regex"
  | switchUnknown => "unrecognized flag"
  | groupNameTwice => "duplicate capture group name"
  | groupNameEmpty => "empty capture group name"
  | groupNameChar => "invalid capture group character"
  | groupNameAtEnd => "unclosed capture group name"
  | groupUnclosed => "unclosed group"
  | groupUnopened => "unopened group"
  | lookAround => "look-around, including look-ahead and look-behind, is not supported"
  | timesOrder => "invalid repetition count range, the start must be <= the end"
  | timesUnclosed => "unclosed counted repetition"
  | timesNothing => "repetition operator missing expression"
  | tooDeep => s!"exceed the maximum number of nested parentheses/brackets ({depthLimit})"
  | propertyEscape => "invalid Unicode character class"
  | onlyPlain => "Unicode not allowed here"
  | brokenBytes => "pattern can match invalid UTF-8"
  | propertyUnknown => "Unicode property not found"
  | propertyValueUnknown => "Unicode property value not found"
  | briefUnknown =>
    "Unicode-aware Perl class not found (make sure the unicode-perl feature is enabled)"
  | casesUnknown =>
    "Unicode-aware case insensitivity matching is not available " ++
      "(make sure the unicode-case feature is enabled)"

end Cause

/-- A reason to refuse a pattern, with its place. -/
structure Fault where
  span : Span
  cause : Cause
  /-- The earlier place that this one clashes with. -/
  earlier : Option Span := none
deriving DecidableEq, Repr

/-- The lines of a pattern, without their ends. -/
def linesOf (pattern : List Char) : List (List Char) :=
  match (pattern.splitOn '\n').reverse with
  | [] => []
  | last :: before =>
    let before := (before.map dropReturn).reverse
    if last = [] then before else before ++ [last]
where
  /-- A line without the carriage return at its end. -/
  dropReturn (l : List Char) : List Char := if l.getLast? = some '\r' then l.dropLast else l

namespace Fault

/-- The places to show, in order. -/
def spans (f : Fault) : List Span := f.earlier.toList ++ [f.span]

/-- The marks under a line, for the spans in it. -/
def marks (spans : List Span) : String :=
  spans.foldl (fun text s => (text.pushn ' ' (s.first.column - 1 - text.length)).pushn '^' s.width) ""

/-- The lines of a pattern, each between its lead and the marks under it. -/
def annotated (f : Fault) (lead : Nat → String) (pattern : List Char) : List String :=
  (linesOf pattern).zipIdx.flatMap fun (l, i) =>
    let here := f.spans.filter fun s => s.inOneLine && s.first.line == i + 1
    let shown := lead (i + 1) ++ String.ofList l
    if here = [] then [shown] else [shown, "".pushn ' ' (lead (i + 1)).length ++ marks here]

/-- How a span over several lines is told. -/
def told (s : Span) : String :=
  s!"on line {s.first.line} (column {s.first.column}) " ++
    s!"through line {s.past.line} (column {s.past.column - 1})"

/-- What is said about a fault in a pattern. -/
def message (f : Fault) (pattern : List Char) : String :=
  let body :=
    if pattern.contains '\n' then
      let width := (toString ((pattern.splitOn '\n').length)).length
      let lead := fun n => "".pushn ' ' (width - (toString n).length) ++ toString n ++ ": "
      let divider := "".pushn '~' 79
      divider :: f.annotated lead pattern ++
        divider :: (f.spans.filter fun s => !s.inOneLine).map told
    else f.annotated (fun _ => "    ") pattern
  String.intercalate "\n" ("regex parse error:" :: body ++ ["error: " ++ f.cause.message])

end Fault

end BitmapAsset.Pattern

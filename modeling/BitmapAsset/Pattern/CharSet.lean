/-! # Sets of characters

A set of characters is written down as it was asked for, from ranges by union, intersection and
complement; `CharSet.mem` tells what is in it. -/

namespace BitmapAsset.Pattern

/-- A set of characters. -/
inductive CharSet where
  | none
  | range (first last : Char)
  | union (a b : CharSet)
  | inter (a b : CharSet)
  | compl (a : CharSet)
  /-- The set, and the plain letters that are in it in the other case. -/
  | caseless (a : CharSet)
deriving DecidableEq, Repr

namespace CharSet

/-- Whether a character is in a set. -/
def mem (c : Char) : CharSet → Bool
  | none => false
  | range first last => first ≤ c && c ≤ last
  | union a b => a.mem c || b.mem c
  | inter a b => a.mem c && b.mem c
  | compl a => !a.mem c
  | caseless a => a.mem c || a.mem c.toLower || a.mem c.toUpper

/-- The set of one character. -/
def single (c : Char) : CharSet := range c c

/-- Every character. -/
def all : CharSet := compl none

/-- What is in the first set and not in the second. -/
def diff (a b : CharSet) : CharSet := inter a (compl b)

/-- What is in one of two sets only. -/
def symmDiff (a b : CharSet) : CharSet := union (diff a b) (diff b a)

/-- The union of ranges. -/
def ofRanges : List (Char × Char) → CharSet
  | [] => none
  | [r] => range r.1 r.2
  | r :: rest => union (range r.1 r.2) (ofRanges rest)

/-- Whether a set holds none of the characters from 80 to FF. -/
def avoidsHighBytes (s : CharSet) : Bool :=
  (List.range 128).all fun i => !s.mem (Char.ofNat (128 + i))

/-- The plain digits. -/
def digits : CharSet := range '0' '9'

/-- The plain blanks. -/
def blanks : CharSet := union (range '\t' '\r') (single ' ')

/-- What words are made of: plain letters, plain digits and the underscore. -/
def wordChars : CharSet := ofRanges [('0', '9'), ('A', 'Z'), ('_', '_'), ('a', 'z')]

/-- The sets of plain characters that have a name. -/
def named : List (String × CharSet) :=
  [("alnum", ofRanges [('0', '9'), ('A', 'Z'), ('a', 'z')]),
    ("alpha", ofRanges [('A', 'Z'), ('a', 'z')]),
    ("ascii", range '\x00' '\x7f'),
    ("blank", ofRanges [('\t', '\t'), (' ', ' ')]),
    ("cntrl", ofRanges [('\x00', '\x1f'), ('\x7f', '\x7f')]),
    ("digit", digits),
    ("graph", range '!' '~'),
    ("lower", range 'a' 'z'),
    ("print", range ' ' '~'),
    ("punct", ofRanges [('!', '/'), (':', '@'), ('[', '\x60'), ('\x7b', '~')]),
    ("space", blanks),
    ("upper", range 'A' 'Z'),
    ("word", wordChars),
    ("xdigit", ofRanges [('0', '9'), ('A', 'F'), ('a', 'f')])]

/-- The set of the given name. -/
def named? (name : String) : Option CharSet := named.lookup name

end CharSet

end BitmapAsset.Pattern

/-! # Control sequences

Some characters are orders to a terminal and not text: single control characters, and sequences that
an escape starts.  Lines that no terminal reads are written without them (`plainText`).

* **Sequences.**  What follows the escape tells the kind: a bracket starts a control sequence, which
  a letter ends; other signs start a title, a message to the device or another string; nearly everything else ends
  the sequence at once.  An escape starts a new sequence wherever it stands, and two control characters
  break off the present one.
* **Layout.**  Tabulators and ends of lines are text.  Inside a sequence that is not a string they
  are shown too, and what follows them is shown as text until the next character that is not.
* **Strings.**  The byte 9C ends a string, also where it is a part of a longer character. -/

namespace BitmapAsset

/-- The character that starts a sequence. -/
def escapeChar : Char := '\x1b'

/-- Whether a control character breaks off a sequence. -/
def breaksOff (c : Char) : Bool := c = '\x18' || c = '\x1a'

/-- Whether a control character moves the text without being an order. -/
def isLayout (c : Char) : Bool := c = '\t' || c = '\n' || c = '\x0c' || c = '\r'

/-- Whether a character is text where no sequence is under way. -/
def isShown (c : Char) : Bool := isLayout c || (' ' ≤ c && c ≠ '\x7f')

/-- Whether a byte 9C follows the first byte of a character. -/
def holdsStringEnd (c : Char) : Bool :=
  (List.range (c.utf8Size - 1)).any fun i => (c.toNat >>> (6 * i)) % 64 = 0x1C

/-- How far a reader has come in a sequence. -/
inductive Sequence where
  /-- No sequence is under way. -/
  | outside
  | escape
  /-- After an escape and signs that leave the kind open. -/
  | escapeSigns
  | control
  /-- The start of a message to the device, before its parameters. -/
  | device
  | deviceParameters
  | deviceSigns
  | title
  | string
deriving DecidableEq, Repr

namespace Sequence

/-- Whether layout is shown inside a sequence. -/
def letsLayoutPass : Sequence → Bool
  | outside | escape | escapeSigns | control => true
  | device | deviceParameters | deviceSigns | title | string => false

/-- Whether a character in a sequence is shown. -/
def shows (s : Sequence) (c : Char) : Bool :=
  match s with
  | outside => isShown c
  | s => s.letsLayoutPass && isLayout c

/-- The kind of sequence that a character starts behind an escape. -/
def afterEscape (c : Char) : Sequence :=
  if c = '[' then control
  else if c = ']' then title
  else if c = 'P' then device
  else if c = 'X' ∨ c = '^' ∨ c = '_' then string
  else if '0' ≤ c ∧ c ≤ '~' then outside
  else if ' ' ≤ c ∧ c ≤ '/' then escapeSigns
  else escape

/-- The sequence after a character that is not shown. -/
def next (s : Sequence) (c : Char) : Sequence :=
  if c = escapeChar then escape
  else if breaksOff c then outside
  else
    match s with
    | outside => outside
    | escape => afterEscape c
    | escapeSigns => if '0' ≤ c ∧ c ≤ '~' then outside else escapeSigns
    | control => if '@' ≤ c ∧ c ≤ '~' then outside else control
    | device =>
      if '@' ≤ c ∧ c ≤ '~' then string
      else if '0' ≤ c ∧ c ≤ '?' then deviceParameters
      else if ' ' ≤ c ∧ c ≤ '/' then deviceSigns
      else device
    | deviceParameters =>
      if '<' ≤ c ∧ c ≤ '~' then string
      else if ' ' ≤ c ∧ c ≤ '/' then deviceSigns
      else deviceParameters
    | deviceSigns => if '0' ≤ c ∧ c ≤ '~' then string else deviceSigns
    | title => if c = '\x07' then outside else title
    | string => if holdsStringEnd c then outside else string

/-- What is shown of a text that starts in a sequence.  The flag tells that something has been shown since the
sequence was last read on: then characters are shown as outside of sequences. -/
def shown (s : Sequence) (showing : Bool) : List Char → List Char
  | [] => []
  | c :: rest =>
    if (if showing then outside else s).shows c then
      c :: shown (if c.toNat < 128 then s else outside) true rest
    else shown (s.next c) false rest

end Sequence

/-- A text without what is meant for a terminal. -/
def plainText (text : String) : String := String.ofList (Sequence.shown .outside false text.toList)

end BitmapAsset

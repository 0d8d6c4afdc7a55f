import BitmapAsset.Bytes

/-! # Text in arbitrary bytes

File names are byte strings that need not be UTF-8.  `lossyChars` reads one anyway: valid
characters as they are, and the replacement character U+FFFD for each longest start of a character
that breaks off.  The reader goes byte by byte and remembers only which character it is inside of
(`Unfinished`): how many bytes are still owed, between which bounds the next one lies, and the
value so far.  A byte that does not fit ends the character as broken and is then read afresh. -/

namespace BitmapAsset

/-- The character that stands for bytes that are not UTF-8. -/
def replacementChar : Char := '\uFFFD'

/-- A character of which some bytes were read and `owed` more must follow, the next one between
`least` and `most`. -/
structure Unfinished where
  owed : Nat
  least : UInt8
  most : UInt8
  value : Nat
deriving DecidableEq

namespace Unfinished

/-- The character that a first byte outside ASCII starts, if it may start one.  The bounds of the
second byte shut out overlong forms, surrogates and values past the last character. -/
def ofFirst? (b : UInt8) : Option Unfinished :=
  let v := b.toNat
  if b < 0xC2 then none
  else if b ≤ 0xDF then some ⟨1, 0x80, 0xBF, v - 0xC0⟩
  else if b = 0xE0 then some ⟨2, 0xA0, 0xBF, 0⟩
  else if b = 0xED then some ⟨2, 0x80, 0x9F, 0xD⟩
  else if b ≤ 0xEF then some ⟨2, 0x80, 0xBF, v - 0xE0⟩
  else if b = 0xF0 then some ⟨3, 0x90, 0xBF, 0⟩
  else if b ≤ 0xF3 then some ⟨3, 0x80, 0xBF, v - 0xF0⟩
  else if b = 0xF4 then some ⟨3, 0x80, 0x8F, 4⟩
  else none

/-- The value after one more byte, of which the low six bits count. -/
def extend (u : Unfinished) (b : UInt8) : Nat := u.value * 64 + b.toNat % 64

end Unfinished

/-- A byte read between two characters: what it yields and the character it leaves unfinished. -/
def readFirst (b : UInt8) : List Char × Option Unfinished :=
  if b < 0x80 then ([Char.ofNat b.toNat], none)
  else
    match Unfinished.ofFirst? b with
    | some u => ([], some u)
    | none => ([replacementChar], none)

/-- One byte: the characters it completes and the character it leaves unfinished. -/
def readByte : Option Unfinished → UInt8 → List Char × Option Unfinished
  | none, b => readFirst b
  | some u, b =>
    if u.least ≤ b ∧ b ≤ u.most then
      if u.owed ≤ 1 then ([Char.ofNat (u.extend b)], none)
      else ([], some ⟨u.owed - 1, 0x80, 0xBF, u.extend b⟩)
    else
      let (chars, next) := readFirst b
      (replacementChar :: chars, next)

/-- The characters of the bytes that follow an unfinished character. -/
def lossyFrom : Option Unfinished → Bytes → List Char
  | none, [] => []
  | some _, [] => [replacementChar]
  | state, b :: rest =>
    let (chars, next) := readByte state b
    chars ++ lossyFrom next rest

/-- The characters of a byte string. -/
def lossyChars (bytes : Bytes) : List Char := lossyFrom none bytes

/-- A byte string as text. -/
def lossyText (bytes : Bytes) : String := String.ofList (lossyChars bytes)

end BitmapAsset

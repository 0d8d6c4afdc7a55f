/-! # Byte strings

Everything the converter writes is a byte string: text as its UTF-8 bytes, numbers as decimal
digits, sixteen-bit words either as two bytes with the low one first (`Word.bytes`) or as four
hexadecimal digits (`Word.hex`).  `Word.ofBytes` and `Word.list` read the two-byte form back;
`Word.ofBytes_bytes` and `Word.list_bytes_append` say that nothing is lost on the way. -/

namespace BitmapAsset

/-- A string of bytes, first byte first. -/
abbrev Bytes := List UInt8

/-- The UTF-8 bytes of a text. -/
def utf8 (text : String) : Bytes := text.toUTF8.data.toList

theorem utf8_ofList (chars : List Char) : utf8 (String.ofList chars) = chars.flatMap String.utf8EncodeChar := by
  simp [utf8, String.ofList, List.utf8Encode]

theorem utf8_inj {a b : String} : utf8 a = utf8 b ↔ a = b := by
  refine ⟨fun h => ?_, fun h => h ▸ rfl⟩
  have h : a.toUTF8 = b.toUTF8 := by
    ext1
    simpa [utf8] using h
  exact String.toByteArray_inj.1 h

/-- The decimal digits of a number. -/
def decimal (n : Nat) : Bytes := utf8 (toString n)

/-! ### Words of sixteen bits -/

namespace Word

/-- The two bytes of a word, low byte first. -/
def bytes (w : UInt16) : Bytes := [w.toUInt8, (w >>> 8).toUInt8]

/-- The word with the given low and high bytes. -/
def ofBytes (low high : UInt8) : UInt16 := UInt16.ofNat (low.toNat + 256 * high.toNat)

/-- The words of a byte string, two bytes at a time.  A single byte left over is dropped. -/
def list : Bytes → List UInt16
  | low :: high :: rest => ofBytes low high :: list rest
  | _ => []

/-- The four hexadecimal digits of a word, highest first, as values below 16. -/
def digits (w : UInt16) : List Nat :=
  [w.toNat / 4096, w.toNat / 256 % 16, w.toNat / 16 % 16, w.toNat % 16]

/-- The four hexadecimal digits of a word in lower case. -/
def hex (w : UInt16) : Bytes := (digits w).map fun d => d.digitChar.toNat.toUInt8

/-- A word as source text writes it: 0x and four hexadecimal digits. -/
def literal (w : UInt16) : Bytes := utf8 "0x" ++ hex w

/-- The leading zeros of a word's digits; the last digit is none of them. -/
def leadingZeros (w : UInt16) : Nat := (((digits w).take 3).takeWhile (· == 0)).length

/-- The parts of a word's literal in the order they are written in: 0x, every leading zero for itself, and
the other digits together. -/
def pieces (w : UInt16) : List Bytes :=
  utf8 "0x" :: ((hex w).take (leadingZeros w)).map ([·]) ++ [(hex w).drop (leadingZeros w)]

/-- `Word.literal` as a text. -/
def literalText (w : UInt16) : String := "0x" ++ String.ofList ((digits w).map Nat.digitChar)

theorem bytes_length (w : UInt16) : (bytes w).length = 2 := rfl

theorem literal_length (w : UInt16) : (literal w).length = 6 := rfl

/-- The parts of a literal make up the literal. -/
@[simp] theorem flatten_pieces (w : UInt16) : (pieces w).flatten = literal w := by
  have single (l : Bytes) : (l.map ([·])).flatten = l := by
    rw [← List.flatMap_def, List.flatMap_singleton']
  rw [pieces, List.cons_append, List.flatten_cons, List.flatten_append, single, literal]
  simp

@[simp] theorem ofBytes_bytes (w : UInt16) : ofBytes w.toUInt8 (w >>> 8).toUInt8 = w := by
  apply UInt16.toNat_inj.1
  have := w.toNat_lt
  simp [ofBytes, UInt16.toNat_shiftRight, Nat.shiftRight_eq_div_pow]
  omega

@[simp] theorem list_bytes_append (w : UInt16) (rest : Bytes) :
    list (bytes w ++ rest) = w :: list rest := by
  simp [bytes, list]

end Word

end BitmapAsset

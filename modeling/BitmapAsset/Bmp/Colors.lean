import BitmapAsset.Bmp.Header
import BitmapAsset.Image

/-! # Colours of a bitmap

How the stored bytes of a pixel become a colour: through the palette of the file, or directly from its
channels. -/

namespace BitmapAsset.Bmp

/-- The colours of a palette.  Entries that the file does not have are black. -/
abbrev ColorTable := Array Pixel

namespace ColorTable

/-- The colour of an entry. -/
def color (table : ColorTable) (entry : Nat) : Pixel := table.getD entry Pixel.black

/-- The number of entries that the headers announce. -/
def announced (h : Header) : Except BitmapError Nat :=
  if h.colorsUsed = 0 then .ok (1 <<< h.bits)
  else if 1 <<< h.bits < h.colorsUsed then .error (.paletteSize h.colorsUsed h.bits)
  else .ok h.colorsUsed

/-- Reads entries of so many bytes: blue, green, red, and perhaps one that is ignored. -/
def readEntries (bytesPerColor : Nat) : Nat → Reading (List Pixel)
  | 0 => return []
  | n + 1 => do
    let blue ← Reading.byte
    let green ← Reading.byte
    let red ← Reading.byte
    Reading.skip (bytesPerColor - 3)
    let rest ← readEntries bytesPerColor n
    return Pixel.ofRgb (UInt8.ofNat red) (UInt8.ofNat green) (UInt8.ofNat blue) :: rest

/-- Reads the palette, which only a picture of palette entries has. -/
def read (h : Header) : Reading ColorTable := do
  if ! h.isIndexed then
    return #[]
  Reading.jump h.paletteOffset
  let count ← announced h
  return (← readEntries h.bytesPerColor count).toArray

end ColorTable

/-- The byte at a place; zero past the end. -/
def byteAt (data : Array UInt8) (place : Nat) : Nat := (data.getD place 0).toNat

/-- The 16-bit number at a place. -/
def wordAt (data : Array UInt8) (place : Nat) : Nat :=
  byteAt data place + 256 * byteAt data (place + 1)

/-- The 32-bit number at a place. -/
def longAt (data : Array UInt8) (place : Nat) : Nat :=
  wordAt data place + 65536 * wordAt data (place + 2)

/-- The pixel whose bits the masks tell apart. -/
def Masks.pixel (masks : Masks) (bits : Nat) : Pixel where
  red := masks.red.channel bits
  green := masks.green.channel bits
  blue := masks.blue.channel bits
  alpha := if masks.alpha.length = 0 then 255 else masks.alpha.channel bits

/-- Five bits for each channel, red highest. -/
def fiveBitMasks : Masks := ⟨⟨10, 5⟩, ⟨5, 5⟩, ⟨0, 5⟩, ⟨0, 0⟩⟩

/-- The entry of `bits` bits in column `x` of the row that begins at a place; entries fill a byte from its
high end. -/
def entryAt (data : Array UInt8) (row bits x : Nat) : Nat :=
  let perByte := 8 / bits
  let after := perByte - 1 - x % perByte
  (byteAt data (row + x / perByte) >>> (bits * after)) % (1 <<< bits)

/-- The pixel with blue, green and red in this order from a place on. -/
def blueGreenRedAt (data : Array UInt8) (place : Nat) : Pixel :=
  Pixel.ofRgb (data.getD (place + 2) 0) (data.getD (place + 1) 0) (data.getD place 0)

/-- The pixel in column `x` of the row that begins at a place; none where pixels are stored as runs. -/
def Storage.pixelAt (storage : Storage) (table : ColorTable) (data : Array UInt8) (row x : Nat) : Pixel :=
  match storage with
  | .indexed bits => table.color (entryAt data row bits x)
  | .fiveBits => fiveBitMasks.pixel (wordAt data (row + 2 * x))
  | .threeBytes => blueGreenRedAt data (row + 3 * x)
  | .fourBytes => blueGreenRedAt data (row + 4 * x)
  | .masked bits masks =>
    if bits = 16 then masks.pixel (wordAt data (row + 2 * x))
    else masks.pixel (longAt data (row + 4 * x))
  | .runs8 | .runs4 => Pixel.black

end BitmapAsset.Bmp

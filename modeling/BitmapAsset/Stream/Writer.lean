import BitmapAsset.Image
import BitmapAsset.RunWriter

/-! # Binary output

Both binary formats begin with the width and the height as two bytes each, low byte first, and refuse
a picture with a side that does not fit before anything is written.  The run-length stream
(`Stream.write`) goes on with the runs of the picture from the bottom row up; raw words
(`Stream.writeRaw`) with the colour of every pixel, column by column. -/

namespace BitmapAsset

/-- The longest side that the header of a binary format can tell. -/
def maxSide : Nat := 65535

namespace Image

/-- The colours of a picture column by column. -/
def columnColors (image : Image) : List UInt16 := image.columns.map Pixel.color

/-- The colours of a picture row by row from the bottom. -/
def scanlineColors (image : Image) : List UInt16 := image.scanlines.map Pixel.color

/-- The width and the height as words. -/
def header (image : Image) : Bytes :=
  Word.bytes (UInt16.ofNat image.width) ++ Word.bytes (UInt16.ofNat image.height)

/-- Whether the header of a binary format can tell the size of the picture. -/
def Fits (image : Image) : Prop := image.width ≤ maxSide ∧ image.height ≤ maxSide

instance (image : Image) : Decidable image.Fits := inferInstanceAs (Decidable (_ ∧ _))

end Image

namespace Stream

variable {W : Type} [Sink W]

/-- Writes the header of a binary format, with a remark, or refuses the picture. -/
def putHeader (image : Image) (remark : Event) : Writing W Unit := do
  if ¬ image.Fits then
    throw (.tooLarge image.width image.height)
  Writing.note remark
  Writing.put (Word.bytes (UInt16.ofNat image.width))
  Writing.put (Word.bytes (UInt16.ofNat image.height))

/-- Writes a picture as a run-length stream. -/
def write (image : Image) : Writing W Unit := do
  putHeader image (.streamHeader image.width image.height)
  RunWriter.writeAll image.scanlineColors

/-- Writes a picture as raw words. -/
def writeRaw (image : Image) : Writing W Unit := do
  putHeader image (.rawHeader image.width image.height)
  image.columnColors.forM fun color => Writing.put (Word.bytes color)

end Stream

end BitmapAsset

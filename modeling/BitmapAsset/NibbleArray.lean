import BitmapAsset.Image
import BitmapAsset.NibbleLiterals

/-! # Arrays of nibbles

A picture as the declaration of an array of bytes in source text, each byte holding the palette indices
of two pixels.  Pixels go column by column, each column from top to bottom. -/

namespace BitmapAsset

/-- The palette indices of a picture column by column. -/
def Image.columnIndices (image : Image) (palette : Palette) : List UInt8 :=
  image.columns.map palette.indexOf

namespace NibbleArray

variable {W : Type} [Sink W]

/-- The text in front of the nibbles, piece by piece. -/
def opening (name : String) (width height : Nat) : List String :=
  ["extern const uint8_t ", name, "[] =\n",
    "\x7b\t", toString width, ", ", toString height, ",\t// width, height\n\t"]

/-- The text behind the nibbles. -/
def closing : String := "\n\x7d;\n"

/-- Writes nibbles as byte literals. -/
def writeNibbles (nibbles : List UInt8) : Writing W Unit :=
  Writing.around NibbleLiterals.ofSink NibbleLiterals.sink do
    NibbleLiterals.updateAll nibbles
    NibbleLiterals.finish

/-- Writes a picture as an array of nibbles. -/
def write (image : Image) (name : String) (palette : Palette) : Writing W Unit := do
  Writing.note (.nibbleArray name image.width image.height palette.name)
  (opening name image.width image.height).forM Writing.putText
  writeNibbles (image.columnIndices palette)
  Writing.putText closing

end NibbleArray

end BitmapAsset

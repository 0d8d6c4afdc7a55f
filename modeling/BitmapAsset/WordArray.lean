import BitmapAsset.WordLiterals
import BitmapAsset.Stream.Writer

/-! # Arrays of words

A picture as the declaration of an array of sixteen-bit words in source text.  After the size of the
picture come either its colours column by column, or its runs from the bottom row up: then each pair of
words is the number of pixels less one and the colour, and no line break parts a pair. -/

namespace BitmapAsset.WordArray

variable {W : Type} [Sink W]

/-- The text in front of the words, piece by piece. -/
def opening (name : String) (width height : Nat) : List String :=
  ["// File generated by bmp2c\n", "\n", "#include <cstdint>\n", "\n",
    "extern const uint16_t ", name, "[] =\n", "\x7b\n",
    "\t", toString width, ", ", toString height, ",\t\t\t// width and height in pixels\n\t"]

/-- The text behind the words. -/
def closing : String := "\n\x7d;\n\n"

/-- Writes words as literals, with line breaks in front of any of them. -/
def writeWords (words : List UInt16) : Writing W Unit :=
  Writing.around (WordLiterals.ofSink 1) WordLiterals.sink do
    WordLiterals.updateAll words
    WordLiterals.finish

/-- Writes the runs of colours as literals, with line breaks in front of pairs only. -/
def writeRuns (colors : List UInt16) : Writing W Unit :=
  Writing.around (WordLiterals.ofSink 2) WordLiterals.sink do
    RunWriter.writeAll colors
    WordLiterals.finish

/-- Writes a picture as an array of words. -/
def write (image : Image) (name : String) (compressed : Bool) : Writing W Unit := do
  Writing.note (.wordArray name image.width image.height compressed)
  (opening name image.width image.height).forM Writing.putText
  if compressed then
    writeRuns image.scanlineColors
  else
    writeWords image.columnColors
  Writing.putText closing

end BitmapAsset.WordArray

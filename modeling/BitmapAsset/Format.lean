import BitmapAsset.Error
import BitmapAsset.Palette

/-! # Output formats

A format has a name by which it is asked for, in any case of letters, and decides where its output
goes: the binary ones hold a single picture, and some go to a file beside the input unless another
place is given. -/

namespace BitmapAsset

/-- What a picture is converted to. -/
inductive Format where
  /-- Source text: an array of bytes, two palette indices in each. -/
  | nibbles
  /-- Binary: runs of colour words. -/
  | rle
  /-- Source text: an array of colour words. -/
  | rgb565
  /-- Source text: an array of runs of colour words. -/
  | rgb565Rle
  /-- Binary: colour words. -/
  | raw
deriving DecidableEq, Repr

namespace Format

instance : Inhabited Format := ⟨nibbles⟩

/-- Every format. -/
def all : List Format := [nibbles, rle, rgb565, rgb565Rle, raw]

/-- The name by which a format is asked for. -/
def name : Format → String
  | nibbles => "nibbles"
  | rle => "rle"
  | rgb565 => "rgb565"
  | rgb565Rle => "rgb565-rle"
  | raw => "raw"

/-- The format of the given name, in any case of letters. -/
def ofName (s : String) : Except Error Format :=
  match all.find? fun f => sameName f.name s with
  | some f => .ok f
  | none => .error (.unknownFormat s)

/-- A binary format holds a single picture. -/
def isBinary : Format → Bool
  | rle | raw => true
  | nibbles | rgb565 | rgb565Rle => false

/-- Whether the output goes to a file beside the input when no other place is given. -/
def writesBesideInput : Format → Bool
  | rgb565 | rgb565Rle | raw => true
  | nibbles | rle => false

/-- The extension of output files. -/
def fileExtension (f : Format) : Bytes := utf8 (if f.isBinary then "bin" else "h")

/-- The output file beside an input. -/
def outputPath (f : Format) (input : Path) : Path := input.withExtension f.fileExtension

end Format

end BitmapAsset

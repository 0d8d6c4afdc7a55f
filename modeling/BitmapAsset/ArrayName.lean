import BitmapAsset.Path

/-! # Names of arrays

The array in the output is named after the input file.  Nibble arrays take the whole file name,
less the endings that mark the height of an icon (`variableName`); word arrays take the characters
of the stem that an identifier may hold (`identifier`). -/

namespace BitmapAsset

/-- A text without the given ending, if it has it. -/
def dropEnding (ending text : List Char) : List Char :=
  if ending.isSuffixOf text then text.take (text.length - ending.length) else text

/-- The endings that nibble arrays drop from the file name, each at most once, in this order. -/
def heightEndings : List String := ["_21h.bmp", "_30h.bmp"]

/-- The file name, without the endings that mark an icon's height. -/
def variableName (p : Path) : String :=
  let name := lossyChars (p.fileName?.getD [])
  String.ofList (heightEndings.foldl (fun text ending => dropEnding ending.toList text) name)

/-- Whether an identifier may hold a character: an ASCII letter or digit, or the underscore. -/
def isIdentifierChar (c : Char) : Bool := c.isAlphanum || c == '_'

/-- The characters of the file stem that an identifier may hold. -/
def identifier (p : Path) : String :=
  String.ofList ((lossyChars (p.fileStem?.getD [])).filter isIdentifierChar)

end BitmapAsset

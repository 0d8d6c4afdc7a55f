import BitmapAsset.LossyText

/-! # Paths

A path is the byte string that names a file.  Slashes cut it into segments; segments that are empty
or a single dot lead nowhere.  The last of the others is the file name (`Path.fileName?`), unless
it leads up.  A file name splits at its last dot into stem and extension, a dot in front of
everything not counting (`Path.splitName`).

`Path.withExtension` replaces the extension.  It first cuts the length of the old extension off the
end of the text, and only then looks for the stem and drops what follows it: a slash behind the name
is therefore counted with the text that is cut. -/

namespace BitmapAsset

/-- A path, as the bytes of its text. -/
abbrev Path := Bytes

/-- One name in a directory. -/
abbrev FileName := Bytes

namespace Path

/-- The byte between two segments. -/
def slash : UInt8 := 0x2F

/-- The byte in front of an extension. -/
def dot : UInt8 := 0x2E

/-- The segment that leads to the parent directory. -/
def up : FileName := [dot, dot]

/-- The pieces of the text between slashes, empty ones included. -/
def segments (p : Path) : List Bytes := p.splitOn slash

/-- Whether a segment leads nowhere. -/
def isIdle (segment : Bytes) : Bool := segment == [] || segment == [dot]

/-- The text in front of the file name, and the file name; what follows the name is dropped. -/
def splitLast? (p : Path) : Option (Bytes × FileName) :=
  match p.segments.reverse.dropWhile isIdle with
  | [] => none
  | name :: before =>
    if name = up then none else some (before.reverse.flatMap (· ++ [slash]), name)

/-- The file name: the last segment that leads anywhere, unless it leads up. -/
def fileName? (p : Path) : Option FileName := p.splitLast?.map Prod.snd

/-- A file name's stem and extension. -/
def splitName (name : FileName) : FileName × Option Bytes :=
  let afterDot := (name.reverse.takeWhile (· != dot)).reverse
  let stem := name.take (name.length - afterDot.length - 1)
  if stem = [] then (name, none) else (stem, some afterDot)

/-- The file name without its extension. -/
def fileStem? (p : Path) : Option FileName := p.fileName?.map fun name => (splitName name).1

/-- What follows the last dot of the file name. -/
def extension? (p : Path) : Option Bytes := p.fileName?.bind fun name => (splitName name).2

/-- The path with its extension put in place; a path without file name stays as it is. -/
def withExtension (p : Path) (ext : Bytes) : Path :=
  let cut : Path :=
    match p.extension? with
    | some old => p.take (p.length - old.length)
    | none => p
  match cut.splitLast? with
  | some (before, name) => before ++ (splitName name).1 ++ dot :: ext
  | none => cut

/-- The path as text. -/
def display (p : Path) : String := lossyText p

end Path

end BitmapAsset

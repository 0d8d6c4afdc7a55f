import BitmapAsset.Bitmap
import BitmapAsset.CommandLine
import BitmapAsset.Conversion
import BitmapAsset.Effects
import BitmapAsset.Log

/-! # A run of the program

`Program.run` takes a command line, a specification of what to log and a file tree, and tells everything
that the run leaves behind.

A run settles the format and the palette first.  Then it either writes each picture to a file beside
its input, or opens one output and writes all pictures to it in order.  The first
input that cannot be opened, decoded or converted stops the run. -/

namespace BitmapAsset

open CommandLine

namespace Program

/-- Opens and decodes an input. -/
def readPicture (file : Path) : Writing Effects Image := do
  Effects.remark (.reading file)
  let entry ← Effects.orCannotOpen file ((← get).tree.openToRead file)
  let decoded := entry.read.mapError BitmapError.os >>= Bitmap.decode
  match decoded with
  | .ok bitmap =>
    Effects.remark (.decoded bitmap.picture.width bitmap.picture.height bitmap.hasAlpha)
    return bitmap.picture
  | .error cause => throw (.bitmap cause)

/-- Converts one input to the file beside it. -/
def convertBeside (format : Format) (palette : Palette) (file : Path) : Writing Effects Unit := do
  let picture ← readPicture file
  let output := format.outputPath file
  Effects.remark (.writing output)
  let place ← Effects.create output
  Buffered.within place (format.convert picture file palette)

/-- Converts one input to an output that is open. -/
def convertShared (format : Format) (palette : Palette) (file : Path) : Writing Buffered Unit := do
  let picture ← Buffered.onEffects (readPicture file)
  format.convert picture file palette

/-- The argument that stands for standard output. -/
def stdoutName : String := "-"

/-- Opens the output that all inputs share. -/
def openOutput (outfile : String) : Writing Effects OutputPlace := do
  if outfile = stdoutName then
    return .stdout
  Effects.remark (.appending (utf8 outfile))
  Effects.openToAppend (utf8 outfile)

/-- The inputs that are converted: a binary format has room for one. -/
def taken (format : Format) (files : List String) : List String :=
  if format.isBinary then files.take 1 else files

/-- Does what the options say. -/
def convert (o : Options) : Writing Effects Unit := do
  if let some format := o.overridden? then
    Effects.remark (.formatOverridden format)
  let format := o.effectiveFormat
  let some palette := Palette.byName? o.paletteName
    | throw (.unknownPalette o.paletteName)
  if o.files.isEmpty then
    Effects.remark .noInputs
  if format.isBinary ∧ 1 < o.files.length then
    Effects.remark (.inputsIgnored format (o.files.length - 1))
  let inputs := (taken format o.files).map utf8
  if o.outfile.isNone ∧ format.writesBesideInput then
    inputs.forM (convertBeside format palette)
  else
    let place ← openOutput (o.outfile.getD stdoutName)
    Buffered.within place (inputs.forM (convertShared format palette))

/-- What a run leaves behind. -/
structure Outcome where
  /-- The exit status: 0 for success and 1 for failure. -/
  code : Nat
  stdout : Array UInt8
  stderr : String
  tree : FileTree

/-- Converts, and ends with a remark if that fails. -/
def finish (o : Options) (tree : FileTree) : Nat × Effects :=
  match convert o ⟨tree, #[], #[]⟩ with
  | .ok _ fx => (0, fx)
  | .error e fx => (1, fx.note (.failed e))

/-- Lines of text, each with its line break. -/
def lines (texts : List String) : String := String.join (texts.map (· ++ "\n"))

/-- Runs the program on the arguments behind its name. -/
def run (logSpec : Option String) (args : List String) (tree : FileTree) : Outcome :=
  let (filter, warnings) := Log.filterOf logSpec
  match parse (normalize args) with
  | .error e => ⟨1, #[], lines (warnings ++ [e.message]), tree⟩
  | .ok .help => ⟨0, (utf8 (lines [helpText])).toArray, lines warnings, tree⟩
  | .ok (.convert o) =>
    let (code, fx) := finish o tree
    let shown := fx.events.toList.filter filter.shows
    ⟨code, fx.stdout, lines warnings ++ String.join (shown.map Log.written), fx.tree⟩

/-- The paths that a run on these arguments may open. -/
def mentionedPaths (args : List String) : List Path :=
  match parse (normalize args) with
  | .ok (.convert o) =>
    let inputs := o.files.map utf8
    inputs ++ inputs.map o.effectiveFormat.outputPath ++ (o.outfile.map utf8).toList
  | _ => []

end Program

end BitmapAsset

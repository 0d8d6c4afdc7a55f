import BitmapAsset.BitmapError
import BitmapAsset.Path

/-! # What can go wrong

`Error` lists the causes for which a conversion stops, `WriteError` and `StreamError` the finer causes
behind two of them.  The wording of each is in its `message`. -/

namespace BitmapAsset

/-- Why bytes were not written. -/
inductive WriteError where
  /-- The sink takes no more bytes. -/
  | full
  /-- The first byte of a word came without the second one. -/
  | halfWord
  /-- The system refused. -/
  | os (cause : OsError)
deriving DecidableEq, Repr

/-- The wording of a refused write. -/
def WriteError.message : WriteError → String
  | full => "failed to write whole buffer"
  | halfWord => "dangling half word"
  | os cause => cause.message

/-- Why a byte string is no run-length stream. -/
inductive StreamError where
  | missingHeader
  | oddByte
  | tooManyPixels
  | countWithoutColor
  | tooFewPixels
deriving DecidableEq, Repr

/-- The wording of a refused stream. -/
def StreamError.message : StreamError → String
  | missingHeader => "missing size header"
  | oddByte => "odd trailing byte"
  | tooManyPixels => "more pixels than the header announces"
  | countWithoutColor => "run count without color"
  | tooFewPixels => "fewer pixels than the header announces"

/-- Why a conversion stops. -/
inductive Error where
  | write (cause : WriteError)
  | cannotOpen (path : Path) (cause : OsError)
  | bitmap (cause : BitmapError)
  /-- A side that does not fit the two bytes that the binary formats have for it. -/
  | tooLarge (width height : Nat)
  | unknownFormat (name : String)
  | unknownPalette (name : String)
  | malformed (cause : StreamError)
deriving DecidableEq, Repr

/-- The wording of an error. -/
def Error.message : Error → String
  | write cause => s!"io error: {cause.message}"
  | cannotOpen path cause => s!"cannot open {path.display}: {cause.message}"
  | bitmap cause => s!"bitmap decode error: {cause.message}"
  | tooLarge width height =>
    s!"image is {width}x{height}, binary output is limited to 65535x65535"
  | unknownFormat name => s!"unknown output format: {name}"
  | unknownPalette name => s!"unknown palette: {name}"
  | malformed cause => s!"malformed stream: {cause.message}"

end BitmapAsset

import BitmapAsset.Format
import BitmapAsset.Run

/-! # Events

What the converter remarks while it works.  An event is data; its level, the part of the program it
comes from and its text are functions of it, so that nothing is worded unless somebody listens. -/

namespace BitmapAsset

/-- How much an event matters, the most important level first. -/
inductive Level where
  | error
  | warn
  | info
  | debug
  | trace
deriving DecidableEq, Repr

namespace Level

/-- The place of a level in the order of detail, from 1. -/
def rank : Level → Nat
  | error => 1
  | warn => 2
  | info => 3
  | debug => 4
  | trace => 5

/-- The name of a level, in capitals. -/
def name : Level → String
  | error => "ERROR"
  | warn => "WARN"
  | info => "INFO"
  | debug => "DEBUG"
  | trace => "TRACE"

end Level

/-- Something that happened. -/
inductive Event where
  /-- An input is about to be opened. -/
  | reading (path : Path)
  /-- An input was decoded, with or without a channel for opacity. -/
  | decoded (width height : Nat) (alpha : Bool)
  /-- A colour reached the run writer. -/
  | color (color : UInt16)
  /-- A run began. -/
  | runStarted (run : Run)
  /-- A run is as long as runs can be. -/
  | runCut (count : Nat)
  /-- A run is about to be written. -/
  | runWritten (run : Run)
  /-- The run writer comes to its end with this run pending. -/
  | lastRun (pending : Option Run)
  /-- The header of a run-length stream is about to be written. -/
  | streamHeader (width height : Nat)
  /-- An array of words is about to be written. -/
  | wordArray (name : String) (width height : Nat) (compressed : Bool)
  /-- The header of raw words is about to be written. -/
  | rawHeader (width height : Nat)
  /-- A line of words ended after this many characters. -/
  | lineWrapped (length : Nat)
  /-- An array of nibbles is about to be written. -/
  | nibbleArray (name : String) (width height : Nat) (palette : String)
  /-- An odd number of nibbles is filled up. -/
  | nibblePadded (count : Nat)
  /-- The binary switch takes precedence over this format. -/
  | formatOverridden (format : Format)
  /-- There is nothing to convert. -/
  | noInputs
  /-- A binary format leaves this many inputs aside. -/
  | inputsIgnored (format : Format) (count : Nat)
  /-- An output file is about to be created. -/
  | writing (path : Path)
  /-- An output file is about to be opened for appending. -/
  | appending (path : Path)
  /-- The conversion stops. -/
  | failed (cause : Error)
deriving DecidableEq, Repr

namespace Event

/-- The level of an event. -/
def level : Event → Level
  | failed _ => .error
  | formatOverridden _ | noInputs | inputsIgnored .. => .warn
  | reading _ | writing _ | appending _ => .info
  | decoded .. | streamHeader .. | wordArray .. | rawHeader .. | nibbleArray .. => .debug
  | color _ | runStarted _ | runCut _ | runWritten _ | lastRun _ | lineWrapped _ | nibblePadded _ =>
    .trace

/-- The part of the program that an event comes from. -/
def target : Event → String
  | reading _ | decoded .. => "bmp2c::bitmap"
  | color _ | runStarted _ | runCut _ | runWritten _ | lastRun _ | streamHeader .. => "bmp2c::rle"
  | wordArray .. | rawHeader .. | lineWrapped _ => "bmp2c::words"
  | nibbleArray .. | nibblePadded _ => "bmp2c::carray"
  | formatOverridden _ | noInputs | inputsIgnored .. | writing _ | appending _ | failed _ => "bmp2c"

/-- The wording of an event. -/
def text : Event → String
  | reading path => s!"reading {path.display}"
  | decoded width height alpha =>
    s!"decoded {width}x{height} bitmap, " ++ (if alpha then "Rgba8" else "Rgb8")
  | color c => s!"update color {Word.literalText c}"
  | runStarted run => s!"transit to {Run.pendingText (some run)}"
  | runCut count => s!"cut! counter: {count}"
  | runWritten run => s!"encode run {Run.pendingText (some run)}"
  | lastRun pending => s!"last run: {Run.pendingText pending}"
  | streamHeader width height => s!"binary header {width}x{height}"
  | wordArray name width height compressed =>
    s!"rgb565 array {name}: {width}x{height}, compress {compressed}"
  | rawHeader width height => s!"raw header {width}x{height}"
  | lineWrapped length => s!"wrap after {length} chars"
  | nibbleArray name width height palette =>
    s!"text array {name}: {width}x{height}, palette {palette}"
  | nibblePadded count => s!"pad odd pixel count {count}"
  | formatOverridden format => s!"-binary overrides -format {format.name}"
  | noInputs => "no input files"
  | inputsIgnored format count => s!"{format.name} output takes one file, ignoring {count} more"
  | writing path => s!"writing {path.display}"
  | appending path => s!"appending to {path.display}"
  | failed cause => cause.message

end Event

end BitmapAsset

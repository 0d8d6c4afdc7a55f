import BitmapAsset.Format

/-! # The command line

A command line is read from left to right.  Options have names with two dashes; `normalize` first gives
the second dash to arguments that are such a name with one.  An option takes the next
argument as its value, whatever it is.  Two dashes alone end the options.  The request for help may stand
anywhere among the options, but no option may follow it.  What is not an option names an input. -/

namespace BitmapAsset

namespace CommandLine

/-- The names that may be written with a single dash. -/
def longFlags : List String := ["binary", "format", "outfile", "palette", "help"]

/-- An argument with its second dash, if it is the name of an option with one dash. -/
def normalizeArg (arg : String) : String :=
  match longFlags.find? fun flag => arg == "-" ++ flag with
  | some flag => "--" ++ flag
  | none => arg

/-- All arguments with their second dash. -/
def normalize (args : List String) : List String := args.map normalizeArg

/-- What a run is asked to do. -/
structure Options where
  /-- Whether run-length output is asked for by the switch. -/
  binary : Bool := false
  format : Option Format := none
  /-- Where output goes; `-` is standard output. -/
  outfile : Option String := none
  palette : Option String := none
  /-- The inputs, in order. -/
  files : List String := []
deriving DecidableEq

namespace Options

/-- The palette that is used when none is asked for. -/
def defaultPalette : String := "paneldue"

/-- The name of the palette to use. -/
def paletteName (o : Options) : String := o.palette.getD defaultPalette

/-- The format to use: the binary switch goes before a format. -/
def effectiveFormat (o : Options) : Format := if o.binary then .rle else o.format.getD default

/-- The format that the binary switch puts aside, if it differs from its own. -/
def overridden? (o : Options) : Option Format :=
  if o.binary then o.format.filter (· ≠ .rle) else none

end Options

/-- The options that take a value. -/
inductive ValueOption where
  | format
  | outfile
  | palette
deriving DecidableEq, Repr

namespace ValueOption

/-- The name of an option, with its dashes. -/
def name : ValueOption → String
  | format => "--format"
  | outfile => "--outfile"
  | palette => "--palette"

/-- The option of a name. -/
def ofName? (arg : String) : Option ValueOption :=
  [format, outfile, palette].find? fun o => o.name == arg

end ValueOption

/-- Why a command line cannot be read. -/
inductive UsageError where
  | unrecognized (arg : String)
  | missingValue (option : ValueOption)
  | badValue (option : ValueOption) (value reason : String)
  /-- An option after the request for help. -/
  | optionAfterHelp
deriving DecidableEq, Repr

namespace UsageError

/-- The wording of an error, with the line break that most of them end with. -/
def message : UsageError → String
  | unrecognized arg => s!"Unrecognized argument: {arg}\n"
  | missingValue option => s!"No value provided for option '{option.name}'.\n"
  | badValue option value reason =>
    s!"Error parsing option '{option.name}' with value '{value}': {reason}\n"
  | optionAfterHelp => "Trailing arguments are not allowed after `help`."

end UsageError

/-- Why an option that has its value takes no second one. -/
def duplicateReason : String := "duplicate values provided"

/-- Gives an option its value. -/
def Options.set (o : Options) (option : ValueOption) (value : String) : Except UsageError Options :=
  let taken : Except UsageError Options := .error (.badValue option value duplicateReason)
  match option with
  | .format =>
    if o.format.isSome then taken
    else
      match Format.ofName value with
      | .ok f => .ok { o with format := some f }
      | .error e => .error (.badValue option value e.message)
  | .outfile => if o.outfile.isSome then taken else .ok { o with outfile := some value }
  | .palette => if o.palette.isSome then taken else .ok { o with palette := some value }

/-- What a command line asks for. -/
inductive Request where
  | help
  | convert (options : Options)
deriving DecidableEq

/-- How far a command line has been read. -/
structure ParseState where
  options : Options := {}
  /-- Whether help has been asked for. -/
  help : Bool := false
  /-- Whether the options have ended. -/
  ended : Bool := false
deriving DecidableEq

namespace ParseState

/-- Adds an input. -/
def addFile (s : ParseState) (arg : String) : ParseState :=
  { s with options := { s.options with files := s.options.files ++ [arg] } }

/-- What the arguments read so far ask for. -/
def request (s : ParseState) : Request := if s.help then .help else .convert s.options

end ParseState

/-- The arguments that ask for help. -/
def helpTriggers : List String := ["--help", "help"]

/-- Whether an argument looks like an option. -/
def startsWithDash (arg : String) : Bool := arg.toList.head? == some '-'

/-- Reads arguments from a state on. -/
def parseFrom (s : ParseState) : List String → Except UsageError Request
  | [] => .ok s.request
  | arg :: rest =>
    if s.ended then parseFrom (s.addFile arg) rest
    else if arg ∈ helpTriggers then parseFrom { s with help := true } rest
    else if ! startsWithDash arg then parseFrom (s.addFile arg) rest
    else if arg = "--" then parseFrom { s with ended := true } rest
    else if s.help then .error .optionAfterHelp
    else if arg = "--binary" then
      parseFrom { s with options := { s.options with binary := true } } rest
    else
      match ValueOption.ofName? arg, rest with
      | none, _ => .error (.unrecognized arg)
      | some option, [] => .error (.missingValue option)
      | some option, value :: rest =>
        match s.options.set option value with
        | .ok options => parseFrom { s with options } rest
        | .error e => .error e

/-- Reads a command line whose options have two dashes. -/
def parse (args : List String) : Except UsageError Request := parseFrom {} args

/-- The text that answers a request for help. -/
def helpText : String :=
  "Usage: bmp2c [--binary] [--format <format>] [--outfile <outfile>] [--palette <palette>] [--] [<files...>]

Convert bitmaps into C arrays of palette indices or RLE RGB565 streams

Positional Arguments:
  files             input bitmap files

Options:
  --binary          binary run-length output, same as `-format rle`
  --format          output format: nibbles (default), rle, rgb565, rgb565-rle or
                    raw
  --outfile         existing file to append to, \"-\" for stdout; rgb565,
                    rgb565-rle and raw output otherwise go to a .h or .bin file
                    beside each input
  --palette         palette used for nibbles output
  --help, help      display usage information
"

end CommandLine

end BitmapAsset

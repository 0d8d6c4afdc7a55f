/-! # Why a bitmap cannot be read

`OsError` lists what the system may answer, `BitmapError` every reason for which a bitmap is
refused.  Reasons are data; their wording is in `OsError.message` and `BitmapError.message`. -/

namespace BitmapAsset

/-- What the operating system may answer instead of doing as asked. -/
inductive OsError where
  | noEntry
  | notDirectory
  | isDirectory
  | noSpace
  | nameTooLong
deriving DecidableEq, Repr

/-- The system's wording, with its number. -/
def OsError.message : OsError → String
  | noEntry => "No such file or directory (os error 2)"
  | notDirectory => "Not a directory (os error 20)"
  | isDirectory => "Is a directory (os error 21)"
  | noSpace => "No space left on device (os error 28)"
  | nameTooLong => "File name too long (os error 36)"

/-- The ways to store pixels that restrict the number of bits in a pixel. -/
inductive BitLayout where
  | plain
  | runs8
  | runs4
  | masks
deriving DecidableEq, Repr

/-- The word for a layout in a message. -/
def BitLayout.name : BitLayout → String
  | plain => "RGB"
  | runs8 => "RLE8"
  | runs4 => "RLE4"
  | masks => "bitfields"

/-- Why a bitmap is refused. -/
inductive BitmapError where
  /-- The bytes end too early. -/
  | endOfData
  /-- The system does not hand out the bytes. -/
  | os (cause : OsError)
  /-- The picture would take more memory than is allowed. -/
  | memoryLimit
  | badSignature
  | headerTooSmall (size : Nat)
  | unknownHeader (size : Nat)
  /-- A width or height of zero. -/
  | noPixels (width height : Nat)
  | planes
  | bitCount (layout : BitLayout) (bits : Nat)
  | negativeWidth (width : Int)
  | sizeLimit (width height : Int)
  | invalidHeight
  /-- Rows from the top together with a compression that only goes from the bottom. -/
  | topDown (compression : Nat)
  | jpeg
  | png
  | cmyk
  | unknownCompression (compression : Nat)
  | scatteredMask
  | maskTooLong
  | missingMask (bits : Nat)
  | paletteSize (size bits : Nat)
  | corruptRuns
deriving DecidableEq, Repr

namespace BitmapError

/-- The bytes do not follow the format. -/
def malformed (detail : String) : String := "Format error decoding Bmp: " ++ detail

/-- The bytes ask for something that is not supported. -/
def unsupported (detail : String) : String :=
  "The decoder for Bmp does not support the format features " ++ detail

/-- The wording of a refusal. -/
def message : BitmapError → String
  | endOfData => "failed to fill whole buffer"
  | os cause => cause.message
  | memoryLimit => "Memory limit exceeded"
  | badSignature => malformed "BMP signature not found"
  | headerTooSmall size => malformed s!"Bitmap header too small ({size} bytes)"
  | unknownHeader size => unsupported s!"Unknown bitmap header type (size={size})"
  | noPixels width height =>
    unsupported s!"Image dimensions ({width}x{height} w/3 channels) are too large"
  | planes => malformed "More than one plane"
  | bitCount layout bits =>
    malformed s!"Invalid channel bit count for {layout.name}: {bits}"
  | negativeWidth width => malformed s!"Negative width ({width})"
  | sizeLimit width height =>
    malformed s!"Image too large (one of ({width}, {height}) > soft limit of 65535)"
  | invalidHeight => malformed "Invalid height"
  | topDown compression =>
    malformed s!"Invalid image type {compression} for top-down image."
  | jpeg => unsupported "JPEG compression"
  | png => unsupported "PNG compression"
  | cmyk => unsupported "CMYK format"
  | unknownCompression compression =>
    malformed s!"Unknown image compression type {compression}"
  | scatteredMask => malformed "Non-contiguous bitfield mask"
  | maskTooLong => malformed "Invalid bitfield mask"
  | missingMask bits => malformed s!"Missing {bits}-bit bitfield mask"
  | paletteSize size bits =>
    malformed s!"Palette size {size} exceeds maximum size for BMP with bit count of {bits}"
  | corruptRuns => malformed "Corrupt RLE data"

end BitmapError

end BitmapAsset

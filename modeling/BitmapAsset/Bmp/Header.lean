import BitmapAsset.Bmp.Mask

/-! # Bitmap headers

A bitmap file begins with a file header, which tells where the pixels are, and an information header of
one of six sizes.  `Header.read` reads both, field by field in the order of the file, and refuses the file
at the first field that is out of order, so of two faults the earlier one is reported. -/

namespace BitmapAsset.Bmp

/-- The longest side that a header may ask for, rows from the top apart. -/
def sideLimit : Int := 65535

/-- The bytes in front of the information header. -/
def fileHeaderSize : Nat := 14

/-- How pixels are stored. -/
inductive Storage where
  /-- Palette entries of one, two, four or eight bits. -/
  | indexed (bits : Nat)
  /-- Two bytes with five bits for each channel. -/
  | fiveBits
  /-- Three bytes: blue, green, red. -/
  | threeBytes
  /-- Four bytes: blue, green, red and one that is ignored. -/
  | fourBytes
  /-- Two or four bytes, with a mask for each channel. -/
  | masked (bits : Nat) (masks : Masks)
  /-- Runs of palette entries of eight bits. -/
  | runs8
  /-- Runs of palette entries of four bits. -/
  | runs4
deriving DecidableEq, Repr

/-- What the headers tell. -/
structure Header where
  /-- Where the pixels begin. -/
  dataOffset : Nat
  /-- The size of the information header. -/
  size : Nat
  width : Nat
  height : Nat
  /-- Whether the first row stored is the top one. -/
  topDown : Bool
  /-- The bits of a pixel. -/
  bits : Nat
  storage : Storage
  /-- The number of palette entries, or 0 for as many as the bits of a pixel can tell apart. -/
  colorsUsed : Nat
deriving DecidableEq, Repr

namespace Header

/-- The size of the oldest information header. -/
def coreSize : Nat := 12

/-- The sizes of the other information headers. -/
def infoSizes : List Nat := [40, 52, 56, 108, 124]

/-- The sizes of the information headers that hold a mask for opacity. -/
def alphaSizes : List Nat := [56, 108, 124]

/-- Reads the number of planes, which must be one. -/
def readPlanes : Reading Unit := do
  if (← Reading.word) ≠ 1 then
    throw .planes

/-- Refuses a picture without pixels. -/
def checkSides (width height : Nat) : Reading Unit := do
  if width = 0 ∨ height = 0 then
    throw (.noPixels width height)

/-- Reads the rest of the oldest information header. -/
def readCore (dataOffset : Nat) : Reading Header := do
  let width ← Reading.word
  let height ← Reading.word
  checkSides width height
  readPlanes
  let bits ← Reading.word
  let storage ←
    match bits with
    | 1 | 4 | 8 => pure (Storage.indexed bits)
    | 24 => pure .threeBytes
    | _ => throw (.bitCount .plain bits)
  return { dataOffset, size := coreSize, width, height, topDown := false, bits, storage, colorsUsed := 0 }

/-- Reads the width, the height and whether rows go from the top, which a negative height tells. -/
def readSides : Reading (Nat × Nat × Bool) := do
  let width ← Reading.signedLong
  let height ← Reading.signedLong
  if width < 0 then
    throw (.negativeWidth width)
  if sideLimit < width ∨ sideLimit < height then
    throw (.sizeLimit width height)
  if height = -0x80000000 then
    throw .invalidHeight
  checkSides width.natAbs height.natAbs
  return (width.natAbs, height.natAbs, height < 0)

/-- How pixels without masks are stored, for a compression and a number of bits; with masks, none. -/
def storageOf (compression bits : Nat) : Except BitmapError (Option Storage) :=
  match compression with
  | 0 =>
    match bits with
    | 1 | 2 | 4 | 8 => .ok (some (.indexed bits))
    | 16 => .ok (some .fiveBits)
    | 24 => .ok (some .threeBytes)
    | 32 => .ok (some .fourBytes)
    | _ => .error (.bitCount .plain bits)
  | 1 => if bits = 8 then .ok (some .runs8) else .error (.bitCount .runs8 bits)
  | 2 => if bits = 4 then .ok (some .runs4) else .error (.bitCount .runs4 bits)
  | 3 => if bits = 16 ∨ bits = 32 then .ok none else .error (.bitCount .masks bits)
  | 4 => .error .jpeg
  | 5 => .error .png
  | 11 | 12 | 13 => .error .cmyk
  | _ => .error (.unknownCompression compression)

/-- Reads the masks of pixels of so many bits.  They follow the first forty bytes of the information
header, whatever its size; only some sizes have one for opacity. -/
def readMasks (size bits : Nat) : Reading Masks := do
  let red ← Reading.long
  let green ← Reading.long
  let blue ← Reading.long
  let alpha ← if size ∈ alphaSizes then Reading.long else pure 0
  Masks.ofBits bits red green blue alpha

/-- Reads the rest of an information header of one of the newer sizes. -/
def readInfo (dataOffset size : Nat) : Reading Header := do
  let (width, height, topDown) ← readSides
  readPlanes
  let bits ← Reading.word
  let compression ← Reading.long
  if topDown ∧ compression ≠ 0 ∧ compression ≠ 3 then
    throw (.topDown compression)
  let plain ← storageOf compression bits
  Reading.skip 12
  let colorsUsed ← Reading.long
  Reading.skip 4
  let storage ←
    match plain with
    | some storage => pure storage
    | none => do
      let masks ← readMasks size bits
      pure (.masked bits masks)
  return { dataOffset, size, width, height, topDown, bits, storage, colorsUsed }

/-- Reads both headers. -/
def read : Reading Header := do
  let b ← Reading.byte
  let m ← Reading.byte
  if b ≠ 0x42 ∨ m ≠ 0x4D then
    throw .badSignature
  Reading.skip 8
  let dataOffset ← Reading.long
  let size ← Reading.long
  if size = coreSize then readCore dataOffset
  else if size ∈ infoSizes then readInfo dataOffset size
  else if size < coreSize then throw (.headerTooSmall size)
  else throw (.unknownHeader size)

/-- Where the palette begins. -/
def paletteOffset (h : Header) : Nat := fileHeaderSize + h.size

/-- The bytes of a palette entry. -/
def bytesPerColor (h : Header) : Nat := if h.size = coreSize then 3 else 4

/-- Whether pixels are entries of a palette. -/
def isIndexed (h : Header) : Bool :=
  match h.storage with
  | .indexed _ | .runs8 | .runs4 => true
  | _ => false

/-- Whether the picture has a channel for opacity. -/
def hasAlpha (h : Header) : Bool :=
  match h.storage with
  | .masked _ masks => masks.alpha.length ≠ 0
  | _ => false

/-- The bytes of a pixel in the decoded picture. -/
def channels (h : Header) : Nat := if h.hasAlpha then 4 else 3

end Header

end BitmapAsset.Bmp

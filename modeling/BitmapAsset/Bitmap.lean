import BitmapAsset.Bmp.Runs

/-! # Reading bitmaps

`Bitmap.decode` reads the bytes of a bitmap file: the headers, the palette, then the pixels, in this order.
Pixels stored as they are fill rows of a multiple of four bytes; the bytes of all rows must be there, those
behind the last pixel of a row included. -/

namespace BitmapAsset

/-- A decoded bitmap. -/
structure Bitmap where
  picture : Image
  /-- Whether the file has a channel for opacity. -/
  hasAlpha : Bool

namespace Bitmap

open Bmp

/-- The most memory that the decoded pixels may take. -/
def memoryLimit : Nat := 512 * 1024 * 1024

/-- The bytes of a row of so many pixels, filled up to a multiple of four. -/
def rowSize (width bits : Nat) : Nat := (width * bits + 31) / 32 * 4

/-- Reads the pixels of a file with the given headers and palette. -/
def readPixels (h : Header) (table : ColorTable) (data : Array UInt8) : Except BitmapError Image :=
  match h.storage with
  | .runs8 => (Canvas.blank h.width h.height).drawAll false table (data.toList.drop h.dataOffset)
  | .runs4 => (Canvas.blank h.width h.height).drawAll true table (data.toList.drop h.dataOffset)
  | storage =>
    let size := rowSize h.width h.bits
    if data.size < h.dataOffset + size * h.height then .error .endOfData
    else
      .ok (Image.generate h.width h.height fun x y =>
        let row := if h.topDown then y else h.height - 1 - y
        storage.pixelAt table data (h.dataOffset + size * row) x)

/-- Reads a bitmap file. -/
def decode (data : Array UInt8) : Except BitmapError Bitmap := do
  let headers : Reading (Header × ColorTable) := do
    let h ← Header.read
    return (h, ← ColorTable.read h)
  let ((h, table), _) ← (headers.run data).run 0
  if memoryLimit < h.width * h.height * h.channels then
    throw .memoryLimit
  return ⟨← readPixels h table data, h.hasAlpha⟩

end Bitmap

end BitmapAsset

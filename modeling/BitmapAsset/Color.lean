/-! # Pixels and colour words

A decoded picture holds 8-bit channels with opacity; the display takes words of sixteen bits with
five bits of red, six of green and five of blue.  `rgb565` drops the low bits of each channel, and
opacity plays no part. -/

namespace BitmapAsset

/-- One pixel of a decoded picture. -/
structure Pixel where
  red : UInt8
  green : UInt8
  blue : UInt8
  alpha : UInt8
deriving DecidableEq, Inhabited, Repr

/-- Five bits of red, six of green and five of blue, red highest. -/
def rgb565 (red green blue : UInt8) : UInt16 :=
  ((red.toUInt16 &&& 0xF8) <<< 8) ||| ((green.toUInt16 &&& 0xFC) <<< 3) |||
    ((blue.toUInt16 &&& 0xF8) >>> 3)

namespace Pixel

/-- The colour word of a pixel; opacity is ignored. -/
def color (p : Pixel) : UInt16 := rgb565 p.red p.green p.blue

/-- Opaque black. -/
def black : Pixel := ⟨0, 0, 0, 255⟩

/-- An opaque pixel of the given channels. -/
def ofRgb (red green blue : UInt8) : Pixel := ⟨red, green, blue, 255⟩

end Pixel

end BitmapAsset

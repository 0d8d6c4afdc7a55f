import BitmapAsset.Bmp.Cursor

/-! # Channel masks

A bitmap may tell by masks which bits of a pixel hold which channel.  A mask must be one group of adjacent
bits inside the pixel; of a group of more than eight bits the top eight count.  `Mask.channel` widens
the bits of a pixel to eight. -/

namespace BitmapAsset.Bmp

/-- The place of a channel's lowest bit that counts, and the number of its bits, at most eight. -/
structure Mask where
  shift : Nat
  length : Nat
deriving DecidableEq, Repr

/-- The place of the lowest one bit of a 32-bit number; 0 for the number 0. -/
def lowestBit (n : Nat) : Nat := ((List.range 32).find? n.testBit).getD 0

namespace Mask

/-- Reads a mask for pixels of so many bits. -/
def ofBits (pixelBits bits : Nat) : Except BitmapError Mask :=
  if bits = 0 then .ok ⟨0, 0⟩
  else
    let shift := lowestBit bits
    let group := bits >>> shift
    let length := (group + 1).log2
    if group &&& (group + 1) ≠ 0 then .error .scatteredMask
    else if pixelBits < length + shift then .error .maskTooLong
    else if 8 < length then .ok ⟨shift + (length - 8), 8⟩
    else .ok ⟨shift, length⟩

/-- A value of so many bits, at most eight, on the scale of eight bits: rounded to the nearest value up
to six bits, with its top bit repeated below for seven. -/
def widen (length value : Nat) : Nat :=
  if length ≤ 6 then
    let most := (1 <<< length) - 1
    (2 * value * 255 + most) / (2 * most)
  else if length = 7 then value * 2 + value / 64
  else value

/-- The channel of a pixel that the mask selects. -/
def channel (m : Mask) (pixel : Nat) : UInt8 :=
  UInt8.ofNat (widen m.length ((pixel >>> m.shift) % (1 <<< m.length)))

end Mask

/-- The masks of the channels. -/
structure Masks where
  red : Mask
  green : Mask
  blue : Mask
  alpha : Mask
deriving DecidableEq, Repr

namespace Masks

/-- Reads the masks of all channels in turn.  Only opacity may do without bits. -/
def ofBits (pixelBits red green blue alpha : Nat) : Except BitmapError Masks := do
  let red ← Mask.ofBits pixelBits red
  let green ← Mask.ofBits pixelBits green
  let blue ← Mask.ofBits pixelBits blue
  let alpha ← Mask.ofBits pixelBits alpha
  if red.length = 0 ∨ green.length = 0 ∨ blue.length = 0 then
    throw (.missingMask pixelBits)
  return ⟨red, green, blue, alpha⟩

end Masks

end BitmapAsset.Bmp

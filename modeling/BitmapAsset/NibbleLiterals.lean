import BitmapAsset.Sink

/-! # Nibbles as source text

A nibble writer stands in front of a sink and packs values below 16 into byte literals, the first of two
as the high digit.  Literals are separated by a comma and a blank, and a line breaks after every
twelfth of them.  Half a literal is written as soon as its first nibble comes; `finish` adds a zero to
a half literal at the end.  A nibble counts once its digit has been written. -/

namespace BitmapAsset

/-- The nibbles written, and the sink behind. -/
structure NibbleLiterals (W : Type) where
  nibbles : Nat
  sink : W
deriving DecidableEq

namespace NibbleLiterals

variable {W : Type} [Sink W]

/-- The nibbles of a line. -/
def perLine : Nat := 24

/-- A writer at the start of its text. -/
def ofSink (sink : W) : NibbleLiterals W := ⟨0, sink⟩

/-- Does something to the sink behind. -/
@[inline] def onSink {α : Type} (action : Writing W α) : Writing (NibbleLiterals W) α
  | ⟨nibbles, sink⟩ =>
    match action sink with
    | .ok a sink => .ok a ⟨nibbles, sink⟩
    | .error e sink => .error e ⟨nibbles, sink⟩

/-- Counts one more nibble. -/
@[inline] def count : Writing (NibbleLiterals W) Unit
  | ⟨nibbles, sink⟩ => .ok () ⟨nibbles + 1, sink⟩

/-- The hexadecimal digit of a nibble, in lower case. -/
def digit (nibble : UInt8) : Bytes := [((nibble &&& 0x0F).toNat.digitChar).toNat.toUInt8]

/-- Writes what stands in front of the next digit: nothing inside a literal. -/
def separate : Writing (NibbleLiterals W) Unit := do
  let nibbles := (← get).nibbles
  if nibbles % 2 = 0 then
    if nibbles ≠ 0 then
      onSink (Writing.putText ", ")
      if nibbles % perLine = 0 then
        onSink (Writing.putText "\n\t")
    onSink (Writing.putText "0x")

/-- Writes one nibble; its high four bits are ignored. -/
def update (nibble : UInt8) : Writing (NibbleLiterals W) Unit := do
  separate
  onSink (Writing.put (digit nibble))
  count

/-- Writes nibbles in order, up to the first that fails. -/
def updateAll (nibbles : List UInt8) : Writing (NibbleLiterals W) Unit := nibbles.forM update

/-- Completes a literal of which only the first digit has been written. -/
def finish : Writing (NibbleLiterals W) Unit := do
  let nibbles := (← get).nibbles
  if nibbles % 2 = 1 then
    onSink (Writing.note (.nibblePadded nibbles))
    onSink (Writing.putText "0")

end NibbleLiterals

end BitmapAsset

import BitmapAsset.BitmapError

/-! # Reading numbers from bytes

Headers are read field by field.  A reading knows all bytes and its place among them, may jump, and fails
when it runs past the end.  Numbers have their low byte first. -/

namespace BitmapAsset.Bmp

/-- A computation that reads from given bytes at a moving place. -/
abbrev Reading := ReaderT (Array UInt8) (StateT Nat (Except BitmapError))

namespace Reading

/-- The next byte. -/
def byte : Reading Nat := do
  let place ← get
  match (← read)[place]? with
  | some b =>
    set (place + 1)
    return b.toNat
  | none => throw .endOfData

/-- The next number of so many bytes. -/
def number : Nat → Reading Nat
  | 0 => return 0
  | n + 1 => do
    let low ← byte
    let high ← number n
    return low + 256 * high

/-- The next 16-bit number. -/
def word : Reading Nat := number 2

/-- The next 32-bit number. -/
def long : Reading Nat := number 4

/-- The next 32-bit number with a sign. -/
def signedLong : Reading Int := do
  let n ← long
  return if n < 0x80000000 then n else (n : Int) - 0x100000000

/-- Passes over so many bytes, which must be there. -/
def skip (count : Nat) : Reading Unit := do
  let _ ← number count

/-- Goes to a place, which may lie past the end. -/
def jump (place : Nat) : Reading Unit := set place

end Reading

end BitmapAsset.Bmp

import BitmapAsset.Bmp.Colors
import BitmapAsset.Bytes

/-! # Bitmaps stored as runs

The pixels of such a bitmap are painted by orders on a black canvas, row by row from the bottom: runs of one
entry (in the form of four bits, of two entries that alternate), literal entries, skips, the end of a row, the end
of the picture.  `Order.next?` reads one order and shortens the input (`Order.next_length`), which is
why `Canvas.drawAll` ends.  No order may leave its row to the right or the picture at the top. -/

namespace BitmapAsset.Bmp

/-- The high and the low half of a byte. -/
def halves (b : UInt8) : List Nat := [b.toNat / 16, b.toNat % 16]

/-- What to paint next. -/
inductive Order where
  /-- Paint these palette entries from left to right. -/
  | entries (values : List Nat)
  /-- Go up so many rows, then right so many pixels. -/
  | skip (right up : Nat)
  | endOfRow
  | endOfPicture
deriving DecidableEq, Repr

namespace Order

/-- `count` entries that take turns, the first of them first. -/
def alternate (count first second : Nat) : List Nat :=
  (List.range count).map fun i => if i % 2 = 0 then first else second

/-- The entries of a run of `count` pixels given by one byte. -/
def runEntries (nibbles : Bool) (count : Nat) (value : UInt8) : List Nat :=
  if nibbles then alternate count (value.toNat / 16) (value.toNat % 16)
  else List.replicate count value.toNat

/-- The bytes that hold `count` literal entries, filled up to an even number. -/
def literalSize (nibbles : Bool) (count : Nat) : Nat :=
  let size := if nibbles then (count + 1) / 2 else count
  size + size % 2

/-- The literal entries in bytes. -/
def literalEntries (nibbles : Bool) (count : Nat) (bytes : Bytes) : List Nat :=
  (if nibbles then bytes.flatMap halves else bytes.map UInt8.toNat).take count

/-- The order to paint `count` literal entries, and the bytes behind it. -/
def nextLiteral (nibbles : Bool) (count : Nat) (bytes : Bytes) : Except BitmapError (Order × Bytes) :=
  if bytes.length < literalSize nibbles count then .error .endOfData
  else
    .ok (.entries (literalEntries nibbles count (bytes.take (literalSize nibbles count))),
      bytes.drop (literalSize nibbles count))

/-- The next order and the bytes behind it. -/
def next (nibbles : Bool) : Bytes → Except BitmapError (Order × Bytes)
  | 0 :: 0 :: rest => .ok (.endOfRow, rest)
  | 0 :: 1 :: rest => .ok (.endOfPicture, rest)
  | 0 :: 2 :: right :: up :: rest => .ok (.skip right.toNat up.toNat, rest)
  | 0 :: 2 :: _ => .error .endOfData
  | 0 :: count :: rest => nextLiteral nibbles count.toNat rest
  | count :: value :: rest => .ok (.entries (runEntries nibbles count.toNat value), rest)
  | _ => .error .endOfData

theorem nextLiteral_length {nibbles : Bool} {count : Nat} {bytes rest : Bytes} {order : Order}
    (h : nextLiteral nibbles count bytes = .ok (order, rest)) : rest.length ≤ bytes.length := by
  unfold nextLiteral at h
  split at h
  · cases h
  · cases h
    simp

/-- An order takes up at least one byte. -/
theorem next_length {nibbles : Bool} {bytes rest : Bytes} {order : Order}
    (h : next nibbles bytes = .ok (order, rest)) : rest.length < bytes.length := by
  unfold next at h
  split at h
  case h_5 count rest' _ _ _ =>
    have := nextLiteral_length h
    simp only [List.length_cons]
    omega
  all_goals cases h
  all_goals simp only [List.length_cons]
  all_goals omega

end Order

/-- The picture so far and the place to paint next, rows counted from the bottom. -/
structure Canvas where
  picture : Image
  row : Nat
  column : Nat

namespace Canvas

/-- A black picture, to be painted from the bottom left corner on. -/
def blank (width height : Nat) : Canvas := ⟨Image.uniform width height Pixel.black, 0, 0⟩

/-- Paints one entry and moves on by one pixel. -/
def paint (table : ColorTable) (c : Canvas) (entry : Nat) : Canvas :=
  match c with
  | ⟨picture, row, column⟩ =>
    let y := picture.height - 1 - row
    ⟨picture.paint column y (table.color entry), row, column + 1⟩

/-- Follows one order; with `true` when the picture is complete. -/
def draw (table : ColorTable) (c : Canvas) : Order → Except BitmapError (Canvas × Bool)
  | .entries values =>
    if c.picture.width < c.column + values.length then .error .corruptRuns
    else .ok (values.foldl (paint table) c, false)
  | .skip right up =>
    if c.picture.height ≤ c.row + up ∨ c.picture.width < c.column + right then .error .corruptRuns
    else .ok ({ c with row := c.row + up, column := c.column + right }, false)
  | .endOfRow => .ok ({ c with row := c.row + 1, column := 0 }, c.row + 1 = c.picture.height)
  | .endOfPicture => .ok (c, true)

/-- Follows orders until the picture is complete. -/
def drawAll (nibbles : Bool) (table : ColorTable) (c : Canvas) (bytes : Bytes) :
    Except BitmapError Image :=
  match h : Order.next nibbles bytes with
  | .error e => .error e
  | .ok (order, rest) =>
    have := Order.next_length h
    match c.draw table order with
    | .error e => .error e
    | .ok (c, true) => .ok c.picture
    | .ok (c, false) => drawAll nibbles table c rest
termination_by bytes.length

end Canvas

end BitmapAsset.Bmp

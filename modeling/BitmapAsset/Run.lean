import BitmapAsset.Bytes

/-! # Runs

A run is a number of equal colours in a row.  It is written as four bytes: the number of pixels
less one, then the colour, each with its low byte first (`Run.bytes`).  A run of at most
`Run.maxCount` pixels fits. -/

namespace BitmapAsset

/-- `count` pixels of one colour. -/
structure Run where
  color : UInt16
  count : Nat
deriving DecidableEq, Repr

namespace Run

/-- The most pixels that one run can describe. -/
def maxCount : Nat := 65536

/-- The pixels less one, then the colour, each as two bytes. -/
def bytes (r : Run) : Bytes := Word.bytes (UInt16.ofNat (r.count - 1)) ++ Word.bytes r.color

/-- The colours that a run stands for. -/
def colors (r : Run) : List UInt16 := List.replicate r.count r.color

/-- A pending run as log lines show it. -/
def pendingText : Option Run → String
  | none => "Wait"
  | some r => s!"Run \x7b color: \"{Word.literalText r.color}\", counter: {r.count} \x7d"

end Run

end BitmapAsset

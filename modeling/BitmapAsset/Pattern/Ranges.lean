import BitmapAsset.Pattern.CharSet

/-! # Sets as ranges

A set of characters as the ranges of code points that it is made of, in order and as few as
possible (`CharSet.ranges`), and as the ranges of bytes that its characters are written with
(`byteRanges`).  Code points from D800 to DFFF belong to no character and are stepped over. -/

namespace BitmapAsset.Pattern

/-- The last code point. -/
def lastCode : Nat := 0x10FFFF

/-- The code point of the character after a code point. -/
def nextCode (n : Nat) : Nat := if n = 0xD7FF then 0xE000 else n + 1

/-- The code point of the character before a code point. -/
def previousCode (n : Nat) : Nat := if n = 0xE000 then 0xD7FF else n - 1

/-- Ranges in order, with those joined that meet. -/
def joinFrom (r : Nat × Nat) : List (Nat × Nat) → List (Nat × Nat)
  | [] => [r]
  | s :: rest => if s.1 ≤ r.2 + 1 then joinFrom (r.1, max r.2 s.2) rest else r :: joinFrom s rest

/-- Ranges put in order and joined where they meet. -/
def joined (ranges : List (Nat × Nat)) : List (Nat × Nat) :=
  match ranges.mergeSort fun r s => r.1 ≤ s.1 with
  | [] => []
  | r :: rest => joinFrom r rest

/-- What lies between ranges in order, from a code point on. -/
def gapsFrom (start : Nat) : List (Nat × Nat) → List (Nat × Nat)
  | [] => if start ≤ lastCode then [(start, lastCode)] else []
  | r :: rest =>
    (if start < r.1 then [(start, previousCode r.1)] else []) ++ gapsFrom (nextCode r.2) rest

/-- What lies in two ranges. -/
def overlap? (r s : Nat × Nat) : Option (Nat × Nat) :=
  if max r.1 s.1 ≤ min r.2 s.2 then some (max r.1 s.1, min r.2 s.2) else none

/-- What lies in two lists of ranges. -/
def overlaps (rs ss : List (Nat × Nat)) : List (Nat × Nat) :=
  rs.flatMap fun r => ss.filterMap (overlap? r)

/-- The plain letters of ranges in the other case. -/
def otherCase (rs : List (Nat × Nat)) : List (Nat × Nat) :=
  (overlaps rs [(0x41, 0x5A)]).map (fun r => (r.1 + 0x20, r.2 + 0x20)) ++
    (overlaps rs [(0x61, 0x7A)]).map fun r => (r.1 - 0x20, r.2 - 0x20)

/-- The ranges of a set. -/
def CharSet.ranges : CharSet → List (Nat × Nat)
  | none => []
  | range first last => if first ≤ last then [(first.toNat, last.toNat)] else []
  | union a b => joined (a.ranges ++ b.ranges)
  | inter a b => overlaps a.ranges b.ranges
  | compl a => gapsFrom 0 a.ranges
  | caseless a => joined (a.ranges ++ otherCase a.ranges)

/-! ### Bytes -/

/-- The bytes of a code point, first byte first. -/
def codeBytes (n : Nat) : List Nat :=
  if n < 0x80 then [n]
  else if n < 0x800 then [0xC0 + n / 64, 0x80 + n % 64]
  else if n < 0x10000 then [0xE0 + n / 4096, 0x80 + n / 64 % 64, 0x80 + n % 64]
  else [0xF0 + n / 262144, 0x80 + n / 4096 % 64, 0x80 + n / 64 % 64, 0x80 + n % 64]

/-- Where a range has to be cut so that its characters are written with all combinations of one range for
every byte: the end of the first part and the start of the second. -/
def cut? (first last : Nat) : Option (Nat × Nat) :=
  if first < 0xE000 ∧ 0xD7FF < last then some (0xD7FF, 0xE000)
  else
    match [0x7F, 0x7FF, 0xFFFF].find? fun m => first ≤ m && m < last with
    | some m => some (m, m + 1)
    | none =>
      if last ≤ 0x7F then none
      else [64, 4096, 262144].findSome? fun block =>
        if first / block = last / block then none
        else if first % block ≠ 0 then
          let m := (first / block + 1) * block - 1
          some (m, m + 1)
        else if last % block ≠ block - 1 then
          let m := last / block * block - 1
          some (m, m + 1)
        else none

/-- The ranges of bytes for a range of code points, cut at most so many times in a row. -/
def byteRangesFrom : Nat → Nat → Nat → List (List (Nat × Nat))
  | 0, _, _ => []
  | n + 1, first, last =>
    if last < first then []
    else
      match cut? first last with
      | some (a, b) => byteRangesFrom n first a ++ byteRangesFrom n b last
      | none => [(codeBytes first).zip (codeBytes last)]

/-- The ranges of bytes for the characters in a range of code points. -/
def byteRanges (r : Nat × Nat) : List (List (Nat × Nat)) := byteRangesFrom 32 r.1 r.2

end BitmapAsset.Pattern

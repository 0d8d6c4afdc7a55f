import BitmapAsset.Pattern.Form

/-! # The size of a pattern

A pattern is refused if it would become too large as a machine that reads bytes.  Two machines are built for
it, one that reads forward and one that reads backward, and both have to stay within `sizeLimit`.

* **States** are all of one size.  A literal has one for every byte; repetitions are written out.
* **Branches** cost extra for each way out of a state, and so do the ranges of a set.
* **Sets** beyond the plain characters have one state for every place in the tree of their bytes.  Reading
  forward, places from which the same bytes can follow are one; reading backward, places that the
  same bytes lead to.
* **Choices** between literals are a tree of their bytes, which keeps the order of the branches: what comes
  after a branch that has ended there starts anew. -/

namespace BitmapAsset.Pattern

/-- The size above which a pattern is refused. -/
def sizeLimit : Nat := 10485760

/-- The size of one state. -/
def stateSize : Nat := 32

/-- The size of one way out of a state with several. -/
def wayOut : Nat := 4

/-- The size of one range in a state that reads ranges. -/
def rangeSize : Nat := 8

/-- Words grouped by what they begin with: every beginning with what follows it, in order. -/
def grouped {α : Type} [BEq α] (words : List (List α)) : List (α × List (List α)) :=
  (words.filterMap List.head?).eraseDups.map fun a =>
    (a, words.filterMap fun
      | [] => none
      | b :: rest => if b == a then some rest else none)

/-! ### Sets -/

/-- The places in a tree of words, each as the words that can follow, up to a depth. -/
def placesFrom {α : Type} [BEq α] : Nat → List (List α) → List (List (List α))
  | 0, _ => []
  | n + 1, words =>
    if words.all List.isEmpty then []
    else words :: (grouped words).flatMap fun g => placesFrom n g.2

/-- All beginnings of words but the empty one. -/
def beginnings {α : Type} [BEq α] (words : List (List α)) : List (List α) :=
  (words.flatMap fun w => (List.range w.length).map fun i => w.take (i + 1)).eraseDups

/-- The size of a step through ranges of characters. -/
def rangesSize (backward : Bool) (ranges : List (Nat × Nat)) : Nat :=
  if ranges.all fun r => r.2 < 128 then 2 * stateSize + rangeSize * ranges.length
  else
    let words := ranges.flatMap byteRanges
    if backward then
      2 * stateSize + wayOut * words.length + stateSize * (beginnings words).length
    else
      stateSize +
        ((placesFrom 4 words).eraseDups.map fun p => stateSize + rangeSize * (grouped p).length).foldr (· + ·) 0

/-! ### Choices between literals -/

/-- The bytes of a text. -/
def textBytes (text : List Char) : List Nat := text.flatMap fun c => codeBytes c.toNat

/-- Words cut where one of them has ended.  Where nothing can follow, a second end is not noticed. -/
def stages (words : List (List Nat)) : List (List (List Nat)) :=
  match words with
  | [] :: rest => ([] :: rest.dropWhile List.isEmpty).splitOn []
  | _ => words.splitOn []

/-- The size of a place in a tree of words and of everything after it, up to a depth. -/
def treeSize : Nat → List (List Nat) → Nat
  | 0, _ => 0
  | n + 1, words =>
    if words.all List.isEmpty then 0
    else
      let all := stages words
      let used := all.filter (!·.isEmpty)
      stateSize + wayOut * (used.length + all.length - 1) +
        (used.map fun stage =>
          let groups := grouped stage
          (if groups.length = 1 then stateSize else stateSize + rangeSize * groups.length) +
            (groups.map fun g => treeSize n g.2).foldr (· + ·) 0).foldr (· + ·) 0

/-- The texts of branches, if each of them is a literal. -/
def literals? : List Form → Option (List (List Char))
  | [] => some []
  | .literal text :: rest => (literals? rest).map (text :: ·)
  | _ => none

/-! ### Forms -/

namespace Form

mutual

/-- Whether a form is known to take a character at least. -/
def takesSome : Form → Bool
  | nothing => false
  | literal text => !text.isEmpty
  | one s => !s.ranges.isEmpty
  | look _ => false
  | kept a => a.takesSome
  | times least _ a => 0 < least && a.takesSome
  | sequence ps => anyTakesSome ps
  | choice bs => allTakeSome bs

/-- Whether one of several forms takes a character at least. -/
def anyTakesSome : List Form → Bool
  | [] => false
  | a :: rest => a.takesSome || anyTakesSome rest

/-- Whether each of several forms takes a character at least. -/
def allTakeSome : List Form → Bool
  | [] => true
  | a :: rest => a.takesSome && allTakeSome rest

end

mutual

/-- Whether a form fits at the start of a text only or, backward, at its end only. -/
def anchored (backward : Bool) : Form → Bool
  | look l => l == if backward then .textEnd else .textStart
  | kept a => a.anchored backward
  | times least _ a => 0 < least && a.anchored backward
  | sequence ps => if backward then lastAnchored ps else firstAnchored ps
  | choice bs => allAnchored backward bs
  | _ => false

/-- Whether a sequence fits at the start of a text only. -/
def firstAnchored : List Form → Bool
  | [] => false
  | a :: rest => a.anchored false || (a.takesNothing && firstAnchored rest)

/-- Whether a sequence fits at the end of a text only. -/
def lastAnchored : List Form → Bool
  | [] => false
  | a :: rest => lastAnchored rest || (allTakeNothing rest && a.anchored true)

/-- Whether every branch is anchored. -/
def allAnchored (backward : Bool) : List Form → Bool
  | [] => true
  | a :: rest => a.anchored backward && allAnchored backward rest

end

mutual

/-- The size of a form. -/
def size (backward : Bool) : Form → Nat
  | nothing => stateSize
  | literal text => stateSize * (textBytes text).length
  | one s => rangesSize backward s.ranges
  | look _ => stateSize
  | kept a => a.size backward + if backward then 0 else 2 * stateSize
  | times least most a =>
    let each := a.size backward
    match least, most with
    | 0, some 1 => each + 2 * stateSize + 2 * wayOut
    | 0, none =>
      if a.takesSome then each + stateSize + 2 * wayOut else each + 3 * stateSize + 4 * wayOut
    | n, none => n * each + stateSize + 2 * wayOut
    | n, some m =>
      (if n = 0 then stateSize else n * each) +
        if n = m then 0 else stateSize + (m - n) * (each + stateSize + 2 * wayOut)
  | sequence ps => sizeAll backward ps
  | choice bs =>
    match literals? bs with
    | some texts =>
      let words := texts.map fun t => if backward then (textBytes t).reverse else textBytes t
      stateSize + treeSize ((words.map List.length).foldl max 0 + 1) words
    | none => sizeAll backward bs + 2 * stateSize + wayOut * bs.length

/-- The size of several forms together. -/
def sizeAll (backward : Bool) : List Form → Nat
  | [] => 0
  | a :: rest => a.size backward + sizeAll backward rest

end

/-- The size of a whole machine: a loop in front that passes over what comes before, unless the form is
anchored, a last state, and forward two states that keep the place of the whole. -/
def machineSize (backward : Bool) (a : Form) : Nat :=
  (if a.anchored backward then stateSize else 3 * stateSize + rangeSize + 2 * wayOut) +
    a.size backward + stateSize + if backward then 0 else 2 * stateSize

end Form

end BitmapAsset.Pattern

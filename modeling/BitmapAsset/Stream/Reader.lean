import BitmapAsset.Error

/-! # Reading run-length streams

A stream is a header, which tells the width and the height of the picture, and runs, each a word that
tells the number of pixels less one and a word of colour.  `Stream.decode` expands the runs and accepts
the stream if they give exactly the pixels that the header announces.  It looks at the number of pixels after
every word, so a stream with too many is refused at the run that goes too far.

The loop over the words is written with a watcher (`Stream.decodeWith`), which is shown every round before the
word is fed.  `Stream.decode` is this reader with nobody watching. -/

namespace BitmapAsset

namespace Stream

/-- A stream expanded into colours: the bottom row first, each row from left to right. -/
structure Decoded where
  width : UInt16
  height : UInt16
  colors : Array UInt16
deriving DecidableEq

/-- The colours so far, and the count of a run whose colour is still missing. -/
structure Expansion where
  repeats : Option UInt16
  colors : Array UInt16
deriving DecidableEq

namespace Expansion

/-- Nothing read yet. -/
def empty : Expansion := ⟨none, #[]⟩

/-- Reads one word: the count of a run, or the colour that completes it. -/
def feed : Expansion → UInt16 → Expansion
  | ⟨none, colors⟩, word => ⟨some word, colors⟩
  | ⟨some repeats, colors⟩, word => ⟨none, colors ++ Array.replicate (repeats.toNat + 1) word⟩

end Expansion

/-- One round of the loop over the words: the expansion that it finds, and the word that it feeds. -/
structure Round where
  before : Expansion
  word : UInt16
deriving DecidableEq

/-- The expansion right after the word. -/
def Round.after (r : Round) : Expansion := r.before.feed r.word

section
variable {m : Type → Type} [Monad m] (watch : Round → m Unit)

/-- One round of the loop: shows it to the watcher, feeds the word, and refuses more colours than expected. -/
def feedWith (expected : Nat) (s : Expansion) (word : UInt16) : ExceptT StreamError m Expansion := do
  watch ⟨s, word⟩
  let s := s.feed word
  if expected < s.colors.size then
    throw .tooManyPixels
  return s

/-- Expands the runs behind a header that announces so many pixels, with a watcher. -/
def expandWith (expected : Nat) (body : Bytes) : ExceptT StreamError m (Array UInt16) := do
  if body.length % 2 = 1 then
    throw .oddByte
  let s ← (Word.list body).foldlM (feedWith watch expected) Expansion.empty
  if s.repeats.isSome then
    throw .countWithoutColor
  if s.colors.size ≠ expected then
    throw .tooFewPixels
  return s.colors

/-- Reads a stream with a watcher. -/
def decodeWith : Bytes → ExceptT StreamError m Decoded
  | w₀ :: w₁ :: h₀ :: h₁ :: body => do
    let width := Word.ofBytes w₀ w₁
    let height := Word.ofBytes h₀ h₁
    let colors ← expandWith watch (width.toNat * height.toNat) body
    return ⟨width, height, colors⟩
  | _ => throw .missingHeader

end

/-- The watcher that takes no notice. -/
def unwatched (_ : Round) : Id Unit := pure ()

/-- Expands the runs behind a header that announces so many pixels. -/
def expand (expected : Nat) (body : Bytes) : Except StreamError (Array UInt16) :=
  Id.run (expandWith unwatched expected body).run

/-- Reads a stream. -/
def decode (b : Bytes) : Except StreamError Decoded := Id.run (decodeWith unwatched b).run

end Stream

end BitmapAsset

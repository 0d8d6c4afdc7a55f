import BitmapAsset.Sink

/-! # Words as source text

A literal writer stands in front of a sink and writes words as literals with a comma and a blank between
them.  It breaks the line in front of a group of words once the line is longer than 80 characters,
the last separator included.

It takes words (`update`), or bytes (`writeBytes`), of which two make a word, low byte first; a first
byte waits for its partner in `low`.  Bytes make it a sink, so that a run writer can stand in front of
it.  Its counters move with every piece that the sink has taken, so when the sink refuses a literal,
the separator in front of it stays counted. -/

namespace BitmapAsset

/-- What has been laid out so far, and the sink behind. -/
structure WordLiterals (W : Type) where
  /-- Lines break only in front of a multiple of so many words. -/
  group : Nat
  /-- Words written. -/
  words : Nat
  /-- Characters in the current line, its leading tabulator apart. -/
  lineLength : Nat
  /-- The first byte of a word whose second byte is still missing. -/
  low : Option UInt8
  sink : W
deriving DecidableEq

namespace WordLiterals

variable {W : Type} [Sink W]

/-- A line longer than so many characters ends in front of the next group. -/
def lineLimit : Nat := 80

/-- A writer at the start of its text. -/
def ofSink (group : Nat) (sink : W) : WordLiterals W := ⟨group, 0, 0, none, sink⟩

/-- Does something to the sink behind. -/
@[inline] def onSink {α : Type} (action : Writing W α) : Writing (WordLiterals W) α
  | ⟨group, words, lineLength, low, sink⟩ =>
    match action sink with
    | .ok a sink => .ok a ⟨group, words, lineLength, low, sink⟩
    | .error e sink => .error e ⟨group, words, lineLength, low, sink⟩

/-- Counts what has been written: so many more words, and the length that the line now has. -/
@[inline] def count (more lineLength : Nat) : Writing (WordLiterals W) Unit
  | ⟨group, words, _, low, sink⟩ => .ok () ⟨group, words + more, lineLength, low, sink⟩

/-- Puts a byte in the place of the one that waits for its partner. -/
@[inline] def setLow (low : Option UInt8) : Writing (WordLiterals W) Unit
  | ⟨group, words, lineLength, _, sink⟩ => .ok () ⟨group, words, lineLength, low, sink⟩

/-- Whether the line breaks in front of the next word. -/
def breaksLine (s : WordLiterals W) : Bool :=
  s.words % s.group == 0 && lineLimit < s.lineLength

/-- Writes what stands between the words so far and the next one. -/
def separate : Writing (WordLiterals W) Unit := do
  if (← get).words ≠ 0 then
    onSink (Writing.putText ", ")
    count 0 ((← get).lineLength + 2)
    if (← get).breaksLine then
      onSink (Writing.note (.lineWrapped (← get).lineLength))
      onSink (Writing.putText "\n\t")
      count 0 0

/-- Writes one word, part by part: a buffer behind that is nearly full still takes the parts that fit. -/
def update (word : UInt16) : Writing (WordLiterals W) Unit := do
  separate
  onSink (Writing.putAll (Word.pieces word))
  count 1 ((← get).lineLength + 6)

/-- Writes words in order, up to the first that fails. -/
def updateAll (words : List UInt16) : Writing (WordLiterals W) Unit := words.forM update

/-- Takes one byte: keeps it, or writes the word that it completes.  The byte that was kept is given
up even if writing then fails. -/
def writeByte (byte : UInt8) : Writing (WordLiterals W) Unit := do
  match (← get).low with
  | none => setLow (some byte)
  | some low =>
    setLow none
    update (Word.ofBytes low byte)

/-- Takes bytes in order, up to the first that fails. -/
def writeBytes (bytes : Bytes) : Writing (WordLiterals W) Unit := bytes.forM writeByte

/-- Ends the text, which must not end inside a word. -/
def finish : Writing (WordLiterals W) Unit := do
  if (← get).low.isSome then
    throw (.write .halfWord)

instance : Sink (WordLiterals W) where
  put := writeBytes
  flush := onSink Sink.flush
  note event := fun ⟨group, words, lineLength, low, sink⟩ =>
    ⟨group, words, lineLength, low, Sink.note event sink⟩

end WordLiterals

end BitmapAsset

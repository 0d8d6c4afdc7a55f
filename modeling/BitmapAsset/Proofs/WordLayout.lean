import BitmapAsset.WordLiterals
import BitmapAsset.Proofs.Pair
import BitmapAsset.Proofs.Writes
import Mathlib.Tactic.SplitIfs

/-! # What a literal writer writes

What a literal writer lays out depends on its counters and on the byte that waits for its partner, not
on the sink: `WordLiterals.Layout` is the writer without its sink.  A layout tells the text of the
words that come next (`Layout.text`) and, as bytes come in one by one, the text of the words that they
complete (`Layout.bytesText`).  With no byte waiting, the bytes of words give the text of the words
(`Layout.bytesText_flatMap_bytes`).

The writer writes these texts to any sink behind it (`WordLiterals.updateAll_emits`,
`WordLiterals.writeBytes_emits`).  It is a sink itself: whatever writes bytes to it, in pieces of any
size, has it write the text of the bytes (`WordLiterals.emits_of_writes`). -/

namespace BitmapAsset.WordLiterals

/-- A literal writer without its sink. -/
structure Layout where
  group : ℕ
  words : ℕ
  lineLength : ℕ
  low : Option UInt8
deriving DecidableEq, Repr

namespace Layout

/-- The layout of a text that begins. -/
def start (group : ℕ) : Layout := ⟨group, 0, 0, none⟩

/-- The writer that stands in front of a sink. -/
def inFront {W : Type} (l : Layout) (sink : W) : WordLiterals W :=
  ⟨l.group, l.words, l.lineLength, l.low, sink⟩

/-! ### Words -/

/-- Whether the line breaks in front of the next word, the comma and the blank included in the line. -/
def Breaks (l : Layout) : Prop := l.words % l.group = 0 ∧ lineLimit < l.lineLength + 2

instance (l : Layout) : Decidable l.Breaks := inferInstanceAs (Decidable (_ ∧ _))

/-- What stands between the words so far and the next one. -/
def separator (l : Layout) : Bytes :=
  if l.words = 0 then [] else utf8 ", " ++ if l.Breaks then utf8 "\n\t" else []

/-- The length of the line behind the separator. -/
def indent (l : Layout) : ℕ :=
  if l.words = 0 then l.lineLength else if l.Breaks then 0 else l.lineLength + 2

/-- The layout behind one more word. -/
def afterWord (l : Layout) : Layout := ⟨l.group, l.words + 1, l.indent + 6, l.low⟩

/-- The text of words, with what stands in front of the first one. -/
def text (l : Layout) : List UInt16 → Bytes
  | [] => []
  | w :: rest => l.separator ++ Word.literal w ++ l.afterWord.text rest

/-- The layout behind words. -/
def afterWords (l : Layout) : List UInt16 → Layout
  | [] => l
  | _ :: rest => l.afterWord.afterWords rest

theorem low_afterWords (l : Layout) (words : List UInt16) : (l.afterWords words).low = l.low := by
  induction words generalizing l with
  | nil => rfl
  | cons w rest ih => exact ih l.afterWord

theorem text_append (l : Layout) (a b : List UInt16) : l.text (a ++ b) = l.text a ++ (l.afterWords a).text b := by
  induction a generalizing l with
  | nil => rfl
  | cons w rest ih =>
      simp only [List.cons_append, text, ih, List.append_assoc]
      rfl

theorem afterWords_append (l : Layout) (a b : List UInt16) :
    l.afterWords (a ++ b) = (l.afterWords a).afterWords b := by
  induction a generalizing l with
  | nil => rfl
  | cons w rest ih => rw [List.cons_append, afterWords, ih, afterWords]

/-! ### Bytes -/

/-- The layout with the given byte waiting for its partner, or none. -/
def withLow (l : Layout) (low : Option UInt8) : Layout := ⟨l.group, l.words, l.lineLength, low⟩

/-- The words that a byte completes. -/
def completed (l : Layout) (byte : UInt8) : List UInt16 := (l.low.map (Word.ofBytes · byte)).toList

/-- The byte that waits behind one more byte. -/
def waiting (l : Layout) (byte : UInt8) : Option UInt8 := if l.low.isSome then none else some byte

/-- The text of the words that bytes complete. -/
def bytesText (l : Layout) : Bytes → Bytes
  | [] => []
  | byte :: rest =>
      (l.withLow (l.waiting byte)).text (l.completed byte) ++
        ((l.withLow (l.waiting byte)).afterWords (l.completed byte)).bytesText rest

/-- The layout behind bytes. -/
def afterBytes (l : Layout) : Bytes → Layout
  | [] => l
  | byte :: rest => ((l.withLow (l.waiting byte)).afterWords (l.completed byte)).afterBytes rest

theorem bytesText_append (l : Layout) (a b : Bytes) :
    l.bytesText (a ++ b) = l.bytesText a ++ (l.afterBytes a).bytesText b := by
  induction a generalizing l with
  | nil => rfl
  | cons byte rest ih => rw [List.cons_append, bytesText, bytesText, ih, List.append_assoc, afterBytes]

theorem afterBytes_append (l : Layout) (a b : Bytes) :
    l.afterBytes (a ++ b) = (l.afterBytes a).afterBytes b := by
  induction a generalizing l with
  | nil => rfl
  | cons byte rest ih => rw [List.cons_append, afterBytes, ih, afterBytes]

theorem bytesText_bytes {l : Layout} (h : l.low = none) (w : UInt16) :
    l.bytesText (Word.bytes w) = l.text [w] ∧ l.afterBytes (Word.bytes w) = l.afterWord := by
  obtain ⟨group, words, lineLength, low⟩ := l
  obtain rfl : low = none := h
  constructor
  · show text _ [Word.ofBytes w.toUInt8 (w >>> 8).toUInt8] ++ [] = _
    rw [List.append_nil, Word.ofBytes_bytes]
    rfl
  · rfl

/-- With no byte waiting, the bytes of words give the text of the words. -/
theorem bytesText_flatMap_bytes {l : Layout} (h : l.low = none) (words : List UInt16) :
    l.bytesText (words.flatMap Word.bytes) = l.text words ∧
      l.afterBytes (words.flatMap Word.bytes) = l.afterWords words := by
  induction words generalizing l with
  | nil => exact ⟨rfl, rfl⟩
  | cons w rest ih =>
      obtain ⟨ht, ha⟩ := bytesText_bytes h w
      obtain ⟨iht, iha⟩ := ih (l := l.afterWord) h
      rw [List.flatMap_cons, bytesText_append, afterBytes_append, ht, ha, iht, iha]
      exact ⟨by rw [text, text, text, List.append_nil], rfl⟩

end Layout

/-! ### The writer -/

open Layout (inFront)

variable {W : Type} [Sink W]

theorem onSink_emits {action : Writing W Unit} {bytes : Bytes} (h : Writes action bytes) (l : Layout) :
    Emits inFront (onSink action) l l bytes :=
  .behind h (by
    intro sink
    cases hs : action sink <;> simp only [onSink, inFront, hs])

theorem count_emits (more lineLength : ℕ) (l : Layout) :
    Emits (W := W) inFront (count more lineLength) l ⟨l.group, l.words + more, lineLength, l.low⟩ [] :=
  .move fun _ => rfl

theorem setLow_emits (low : Option UInt8) (l : Layout) :
    Emits (W := W) inFront (setLow low) l (l.withLow low) [] := .move fun _ => rfl

theorem breakLine_inFront (l : Layout) (sink : W) :
    (do
        if (← get).breaksLine then
          onSink (Writing.note (.lineWrapped (← get).lineLength))
          onSink (Writing.putText "\n\t")
          count 0 0 : Writing (WordLiterals W) Unit)
      (inFront ⟨l.group, l.words, l.lineLength + 2, l.low⟩ sink) =
    (if l.Breaks then (do
        onSink (Writing.note (.lineWrapped (l.lineLength + 2)))
        onSink (Writing.putText "\n\t")
        count 0 0)
      else pure () : Writing (WordLiterals W) Unit)
      (inFront ⟨l.group, l.words, l.lineLength + 2, l.low⟩ sink) := by
  have agrees : (inFront ⟨l.group, l.words, l.lineLength + 2, l.low⟩ sink).breaksLine = true ↔ l.Breaks := by
    unfold breaksLine
    rw [Bool.and_eq_true, beq_iff_eq, decide_eq_true_iff]
    exact Iff.rfl
  show (if (inFront _ sink).breaksLine = true then _ else _ : Writing (WordLiterals W) Unit) _ = _
  by_cases breaks : l.Breaks
  · rw [if_pos breaks, if_pos (agrees.mpr breaks)]
    rfl
  · rw [if_neg breaks, if_neg (mt agrees.mp breaks)]

theorem separate_inFront (l : Layout) (sink : W) : separate (inFront l sink) =
    (if l.words = 0 then pure ()
      else do
        onSink (Writing.putText ", ")
        count 0 (l.lineLength + 2)
        if l.Breaks then
          onSink (Writing.note (.lineWrapped (l.lineLength + 2)))
          onSink (Writing.putText "\n\t")
          count 0 0 : Writing (WordLiterals W) Unit) (inFront l sink) := by
  by_cases first : l.words = 0
  · rw [if_pos first]
    show (if l.words ≠ 0 then _ else pure () : Writing (WordLiterals W) Unit) _ = _
    rw [if_neg (not_not_intro first)]
  · rw [if_neg first]
    show (if l.words ≠ 0 then _ else pure () : Writing (WordLiterals W) Unit) _ = _
    rw [if_pos first]
    simp only [bind, EStateM.bind, onSink, inFront, Writing.putText]
    cases (Sink.put (utf8 ", ") : Writing W Unit) sink with
    | error e sink => rfl
    | ok _ sink => exact breakLine_inFront l sink

theorem separate_emits (l : Layout) :
    Emits (W := W) inFront separate l ⟨l.group, l.words, l.indent, l.low⟩ l.separator := by
  refine Emits.of_eq (separate_inFront l) ?_
  unfold Layout.indent Layout.separator
  by_cases first : l.words = 0
  · simp only [if_pos first]
    exact .pure l
  · have comma := onSink_emits (W := W) (.putText ", ") l
    have counted := count_emits (W := W) 0 (l.lineLength + 2) l
    simp only [if_neg first]
    by_cases breaks : l.Breaks
    · have newLine := (onSink_emits (W := W) (.note (.lineWrapped (l.lineLength + 2))) _).seq
        ((onSink_emits (.putText "\n\t") _).seq
          (count_emits 0 0 ⟨l.group, l.words, l.lineLength + 2, l.low⟩))
      simp only [if_pos breaks]
      exact comma.seq (counted.seq newLine)
    · simp only [if_neg breaks]
      exact comma.seq (counted.seq (.pure _))

theorem update_emits (l : Layout) (w : UInt16) :
    Emits (W := W) inFront (update w) l l.afterWord (l.text [w]) := by
  have pieces := onSink_emits (W := W) (.putAll (Word.pieces w)) ⟨l.group, l.words, l.indent, l.low⟩
  rw [Word.flatten_pieces] at pieces
  have counted : Emits (W := W) inFront (do count 1 ((← get).lineLength + 6))
      ⟨l.group, l.words, l.indent, l.low⟩ l.afterWord [] := .move fun _ => rfl
  rw [Layout.text, Layout.text, List.append_assoc]
  exact (separate_emits l).seq (pieces.seq counted)

/-- Words are written as the text of the layout. -/
theorem updateAll_emits (l : Layout) (words : List UInt16) :
    Emits (W := W) inFront (updateAll words) l (l.afterWords words) (l.text words) := by
  induction words generalizing l with
  | nil => exact .pure l
  | cons w rest ih =>
      have h := (update_emits l w).seq (ih l.afterWord)
      rw [Layout.text, Layout.text, List.append_nil] at h
      exact h

theorem writeByte_emits (l : Layout) (byte : UInt8) :
    Emits (W := W) inFront (writeByte byte) l
      ((l.withLow (l.waiting byte)).afterWords (l.completed byte))
      ((l.withLow (l.waiting byte)).text (l.completed byte)) := by
  obtain ⟨group, words, lineLength, low⟩ := l
  cases low with
  | none => exact (setLow_emits (some byte) _).of_eq fun _ => rfl
  | some low =>
      have h := (setLow_emits (W := W) none ⟨group, words, lineLength, some low⟩).seq
        (update_emits _ (Word.ofBytes low byte))
      exact h.of_eq fun _ => rfl

/-- Bytes are written as the text of the words that they complete. -/
theorem writeBytes_emits (l : Layout) (bytes : Bytes) :
    Emits (W := W) inFront (writeBytes bytes) l (l.afterBytes bytes) (l.bytesText bytes) := by
  induction bytes generalizing l with
  | nil => exact .pure l
  | cons byte rest ih => exact (writeByte_emits l byte).seq (ih _)

/-- As a sink, a literal writer writes the text of all bytes that it is given. -/
theorem emits_of_writes {f : Writing (WordLiterals W) Unit} {bytes : Bytes} (h : Writes f bytes)
    (l : Layout) : Emits inFront f l (l.afterBytes bytes) (l.bytesText bytes) := by
  induction h generalizing l with
  | done => exact .pure l
  | put bytes => exact writeBytes_emits l bytes
  | note event => exact (onSink_emits (.note event) l).of_eq fun _ => rfl
  | seq _ _ ihf ihg =>
      rw [Layout.bytesText_append, Layout.afterBytes_append]
      exact (ihf l).seq (ihg _)

theorem finish_emits {l : Layout} (h : l.low = none) : Emits (W := W) inFront finish l l [] := by
  obtain ⟨group, words, lineLength, low⟩ := l
  obtain rfl : low = none := h
  exact .move fun _ => rfl

end BitmapAsset.WordLiterals

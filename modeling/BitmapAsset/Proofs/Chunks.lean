import BitmapAsset.Proofs.WordLayout
import Mathlib.Algebra.Order.Ring.Canonical
import Mathlib.Algebra.Order.Ring.Nat

/-! # Bytes in chunks

A literal writer is called with words, with chunks of bytes, and to flush (`WordLiterals.Call`).  No sink can
tell in what chunks the bytes came (`performAll_singles`).

What is written is told without the writer's slot for a first byte.  All bytes so far make the words
`Word.list`, whatever was called in between, and a chunk adds those that were not complete before it
(`Word.completed`); a word given as such comes at its own place among them (`rendered`).  The step lemma is
`Call.perform_emits`: if the byte that waits is the one left over from all bytes so far, one more call writes the
words that it adds, and again the byte left over waits.

Main statement: `WordLiterals.performAll_chunks`. -/

namespace BitmapAsset

/-! ### Words and the byte left over -/

namespace Word

/-- The byte that has no partner. -/
def leftover (bytes : Bytes) : Option UInt8 := if Odd bytes.length then bytes.getLast? else none

/-- The words that bytes complete, begun by these bytes or those before them. -/
def completed (before bytes : Bytes) : List UInt16 := (list (before ++ bytes)).drop (list before).length

example : completed [0x01, 0x02, 0x03] [0x04, 0x05] = [0x0403] := by decide

theorem isSome_leftover (bytes : Bytes) : (leftover bytes).isSome ↔ Odd bytes.length := by
  unfold leftover
  by_cases odd : Odd bytes.length
  · have some : bytes ≠ [] := List.ne_nil_of_length_pos odd.pos
    rw [if_pos odd, List.getLast?_isSome]
    exact ⟨fun _ => odd, fun _ => some⟩
  · rw [if_neg odd]
    exact iff_of_false Bool.false_ne_true odd

theorem leftover_append_singleton (bytes : Bytes) (byte : UInt8) :
    leftover (bytes ++ [byte]) = if (leftover bytes).isSome then none else some byte := by
  rw [leftover, List.length_append, List.length_singleton, List.getLast?_concat]
  by_cases odd : Odd bytes.length
  · rw [if_neg (Nat.not_odd_iff_even.mpr odd.add_one), if_pos ((isSome_leftover bytes).mpr odd)]
  · rw [if_pos (Nat.not_odd_iff_even.mp odd).add_one, if_neg (mt (isSome_leftover bytes).mp odd)]

theorem leftover_cons_cons (low high : UInt8) (rest : Bytes) : leftover (low :: high :: rest) = leftover rest := by
  have same : Odd (rest.length + 1 + 1) ↔ Odd rest.length := by
    rw [Nat.odd_add_one, Nat.odd_add_one, not_not]
  unfold leftover
  rw [List.length_cons, List.length_cons]
  by_cases odd : Odd rest.length
  · obtain ⟨byte, rest, rfl⟩ := List.exists_cons_of_length_pos odd.pos
    rw [if_pos (same.mpr odd), if_pos odd, List.getLast?_cons_cons, List.getLast?_cons_cons]
  · rw [if_neg (mt same.mp odd), if_neg odd]

theorem list_append_singleton (bytes : Bytes) (byte : UInt8) :
    list (bytes ++ [byte]) = list bytes ++ ((leftover bytes).map (ofBytes · byte)).toList := by
  induction bytes using list.induct with
  | case1 low high rest ih =>
      rw [List.cons_append, List.cons_append, list, list, ih, leftover_cons_cons, List.cons_append]
  | case2 bytes short =>
      rcases bytes with _ | ⟨low, _ | ⟨high, rest⟩⟩
      · rfl
      · rfl
      · exact absurd rfl (short low high rest)

theorem list_append (before bytes : Bytes) : list (before ++ bytes) = list before ++ completed before bytes := by
  have front : list before <+: list (before ++ bytes) := by
    induction bytes using List.reverseRecOn with
    | nil => exact ⟨[], by rw [List.append_nil, List.append_nil]⟩
    | append_singleton bytes byte ih =>
        rw [← List.append_assoc, list_append_singleton]
        exact ih.trans (List.prefix_append _ _)
  exact (List.prefix_iff_eq_append.mp front).symm

theorem completed_nil (before : Bytes) : completed before [] = [] := by
  rw [completed, List.append_nil, List.drop_length]

theorem completed_cons (before : Bytes) (byte : UInt8) (bytes : Bytes) : completed before (byte :: bytes) =
    ((leftover before).map (ofBytes · byte)).toList ++ completed (before ++ [byte]) bytes := by
  have all : list (before ++ byte :: bytes) = list ((before ++ [byte]) ++ bytes) := by rw [List.append_cons]
  rw [list_append, list_append, list_append_singleton, List.append_assoc] at all
  exact List.append_cancel_left all

end Word

namespace WordLiterals

/-! ### Calls -/

/-- What a literal writer is called to do. -/
inductive Call where
  | word (word : UInt16)
  | bytes (bytes : Bytes)
  | flush
deriving DecidableEq, Repr

namespace Call

/-- Does what is called for. -/
def perform {W : Type} [Sink W] : Call → Writing (WordLiterals W) Unit
  | word w => update w
  | bytes b => Sink.put b
  | flush => Sink.flush

/-- The same with a call for each byte of a chunk. -/
def singles : Call → List Call
  | bytes b => b.map fun byte => bytes [byte]
  | call => [call]

/-- The bytes of a chunk. -/
def given : Call → Bytes
  | bytes b => b
  | word _ | flush => []

/-- The words that a call adds behind bytes. -/
def rendered (before : Bytes) : Call → List UInt16
  | word w => [w]
  | bytes b => Word.completed before b
  | flush => []

end Call

/-- Does what is called for in order, up to the first call that fails. -/
def performAll {W : Type} [Sink W] (calls : List Call) : Writing (WordLiterals W) Unit :=
  calls.forM Call.perform

/-- The bytes of all chunks. -/
def stream (calls : List Call) : Bytes := calls.flatMap Call.given

/-- The words that calls add behind bytes, each at the call that gives it or completes it. -/
def rendered (before : Bytes) : List Call → List UInt16
  | [] => []
  | call :: rest => call.rendered before ++ rendered (before ++ call.given) rest

example : rendered [] [.bytes [0x01], .word 7, .bytes [], .bytes [0x02, 0x03]] = [7, 0x0201] := by decide

/-! ### Chunks do not matter -/

section

variable {W : Type} [Sink W]

theorem Call.performAll_singles (call : Call) :
    (performAll call.singles : Writing (WordLiterals W) Unit) = call.perform := by
  cases call with
  | word w => exact bind_pure_unit
  | bytes b =>
      have one (byte : UInt8) : (perform (bytes [byte]) : Writing (WordLiterals W) Unit) = writeByte byte := by
        show (do writeByte byte; pure PUnit.unit) = _
        exact bind_pure_unit
      rw [performAll, singles, List.forM_eq_forM, List.forM_map]
      simp only [one]
      rfl
  | flush => exact bind_pure_unit

/-- No sink can tell in what chunks the bytes came. -/
theorem performAll_singles (calls : List Call) :
    (performAll (calls.flatMap Call.singles) : Writing (WordLiterals W) Unit) = performAll calls := by
  induction calls with
  | nil => rfl
  | cons call rest ih =>
      rw [performAll, List.flatMap_cons, List.forM_eq_forM, List.forM_append]
      show (performAll call.singles >>= fun _ => performAll (rest.flatMap Call.singles) :
        Writing (WordLiterals W) Unit) = _
      rw [call.performAll_singles, ih]
      rfl

end

/-! ### What the calls write -/

namespace Layout

theorem text_withLow (l : Layout) (low : Option UInt8) (words : List UInt16) :
    (l.withLow low).text words = l.text words := by
  induction words generalizing l with
  | nil => rfl
  | cons w rest ih =>
      rw [text, text, ← ih l.afterWord]
      rfl

theorem afterWords_withLow (l : Layout) (low : Option UInt8) (words : List UInt16) :
    (l.withLow low).afterWords words = (l.afterWords words).withLow low := by
  induction words generalizing l with
  | nil => rfl
  | cons w rest ih => exact ih l.afterWord

/-- A chunk gives the text of the words that it completes, if the byte left over so far waits; and then the
byte left over behind it waits. -/
theorem bytesText_completed {l : Layout} {before : Bytes} (h : l.low = Word.leftover before) (bytes : Bytes) :
    l.bytesText bytes = l.text (Word.completed before bytes) ∧
      l.afterBytes bytes =
        (l.afterWords (Word.completed before bytes)).withLow (Word.leftover (before ++ bytes)) := by
  induction bytes generalizing l before with
  | nil =>
      rw [Word.completed_nil, List.append_nil, ← h]
      exact ⟨rfl, rfl⟩
  | cons byte rest ih =>
      have waits : l.waiting byte = Word.leftover (before ++ [byte]) := by
        rw [waiting, h, Word.leftover_append_singleton]
      have next : ((l.withLow (l.waiting byte)).afterWords (l.completed byte)).low =
          Word.leftover (before ++ [byte]) := by
        rw [low_afterWords]
        exact waits
      obtain ⟨text, after⟩ := ih next
      rw [Word.completed_cons, ← h, text_append, afterWords_append, bytesText, afterBytes, text, after,
        text_withLow, afterWords_withLow, text_withLow, afterWords_withLow, List.append_cons before byte rest]
      exact ⟨rfl, rfl⟩

end Layout

open Layout (inFront)

/-- One more call writes the words that it adds, and the byte left over waits as before. -/
theorem Call.perform_emits {l : Layout} {before : Bytes} (h : l.low = Word.leftover before) (call : Call) :
    Emits (W := BoundedSink) inFront call.perform l
      ((l.afterWords (call.rendered before)).withLow (Word.leftover (before ++ call.given)))
      (l.text (call.rendered before)) := by
  cases call with
  | word w =>
      rw [given, List.append_nil, ← h]
      exact update_emits l w
  | bytes b =>
      obtain ⟨text, after⟩ := Layout.bytesText_completed h b
      rw [rendered, ← text, given, ← after]
      exact writeBytes_emits l b
  | flush =>
      rw [given, List.append_nil, ← h]
      exact (onSink_emits .done l).of_eq fun _ => rfl

theorem performAll_emits {l : Layout} {before : Bytes} (h : l.low = Word.leftover before) (calls : List Call) :
    Emits (W := BoundedSink) inFront (performAll calls) l
      ((l.afterWords (rendered before calls)).withLow (Word.leftover (before ++ stream calls)))
      (l.text (rendered before calls)) := by
  induction calls generalizing l before with
  | nil =>
      rw [stream, List.flatMap_nil, List.append_nil, ← h]
      exact .pure l
  | cons call rest ih =>
      have waits : ((l.afterWords (call.rendered before)).withLow (Word.leftover (before ++ call.given))).low =
          Word.leftover (before ++ call.given) := rfl
      have step := (call.perform_emits h).seq (ih waits)
      rw [Layout.text_withLow, Layout.afterWords_withLow, ← Layout.text_append, ← Layout.afterWords_append,
        List.append_assoc] at step
      exact step

/-- **What is written does not depend on how the bytes are chunked.**  Two lists of calls that are the same byte
by byte do the same to every sink.  One that never refuses gets the words that are called for and those that
two bytes of the stream make, each at the call that gives or completes it, and ends with the text of these words.
The text may end behind an even number of bytes and no other. -/
theorem performAll_chunks {calls calls' : List Call}
    (same : calls.flatMap Call.singles = calls'.flatMap Call.singles) :
    (∀ (W : Type) [Sink W], (performAll calls : Writing (WordLiterals W) Unit) = performAll calls') ∧
    ∀ group, ∃ s t, performAll calls (ofSink group (⟨#[], none⟩ : BoundedSink)) = .ok () s ∧
      performAll calls' (ofSink group (⟨#[], none⟩ : BoundedSink)) = .ok () s ∧
      updateAll (rendered [] calls) (ofSink group (⟨#[], none⟩ : BoundedSink)) = .ok () t ∧
      s = { t with low := Word.leftover (stream calls) } ∧
      s.sink.toList = (Layout.start group).text (rendered [] calls) ∧
      (Odd (stream calls).length →
        ∃ cause, finish s = .error (.write cause) s ∧ cause.message = "dangling half word") ∧
      (Even (stream calls).length → finish s = .ok () s) := by
  have alike (W : Type) [Sink W] : (performAll calls : Writing (WordLiterals W) Unit) = performAll calls' := by
    rw [← performAll_singles calls, same, performAll_singles]
  refine ⟨alike, ?_⟩
  intro group
  have start : (Layout.start group).low = Word.leftover [] := rfl
  have done := (performAll_emits start calls).unlimited #[]
  have words := (updateAll_emits (W := BoundedSink) (Layout.start group) (rendered [] calls)).unlimited #[]
  refine ⟨_, _, done, alike BoundedSink ▸ done, words, rfl, ?_, ?_, ?_⟩
  · simp [inFront, BoundedSink.toList]
  · intro odd
    obtain ⟨byte, left⟩ := Option.isSome_iff_exists.mp ((Word.isSome_leftover _).mpr odd)
    refine ⟨.halfWord, ?_, rfl⟩
    rw [List.nil_append, left]
    rfl
  · intro even
    have left : Word.leftover (stream calls) = none := by
      rw [← Option.not_isSome_iff_eq_none, Word.isSome_leftover, Nat.not_odd_iff_even]
      exact even
    rw [List.nil_append, left]
    rfl

/-- A word called for between the two bytes of another, an empty chunk, and a byte left over. -/
theorem performAll_chunks_straddle :
    [Call.bytes [1], .word 7, .bytes [2, 3]].flatMap Call.singles =
      [Call.bytes [1], .bytes [], .word 7, .bytes [2], .bytes [3]].flatMap Call.singles ∧
    ∃ s t, performAll [.bytes [1], .word 7, .bytes [2, 3]] (ofSink 2 (⟨#[], none⟩ : BoundedSink)) = .ok () s ∧
      performAll [.bytes [1], .bytes [], .word 7, .bytes [2], .bytes [3]] (ofSink 2 (⟨#[], none⟩ : BoundedSink)) =
        .ok () s ∧
      updateAll [7, 0x0201] (ofSink 2 (⟨#[], none⟩ : BoundedSink)) = .ok () t ∧ s = { t with low := some 3 } ∧
      s.sink.toList = utf8 "0x0007, 0x0201" ∧
      ∃ cause, finish s = .error (.write cause) s ∧ cause.message = "dangling half word" := by
  have same : [Call.bytes [1], .word 7, .bytes [2, 3]].flatMap Call.singles =
      [Call.bytes [1], .bytes [], .word 7, .bytes [2], .bytes [3]].flatMap Call.singles := by decide
  obtain ⟨s, t, done, done', words, waits, text, refused, -⟩ := (performAll_chunks same).2 2
  exact ⟨same, s, t, done, done', words, waits, text.trans (by decide), refused (by decide)⟩

end WordLiterals

end BitmapAsset

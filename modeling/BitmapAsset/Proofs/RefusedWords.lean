import BitmapAsset.Proofs.Chunks

/-! # What a refused call leaves behind

When the sink refuses a part of what a literal writer is called to write, the call fails.  It could be repeated as if
nothing had happened if the writer were what it was before; but the counters move with every piece that the
sink takes, and the byte that waits is given up before its word is written.  So the line may count a comma
twice and break early, and a word given in bytes may lose its first one.

`Staged` says of work in front of a sink in memory what it leaves for every room that the sink may have.  Such
statements follow one another (`Staged.seq`), so a call is told from its steps: the separator
(`separate_staged`), the word (`update_staged`), the bytes of a chunk (`writeBytes_staged`).  What is left of
a word is `Layout.refused`, and of a chunk `Layout.refusedBytes`.

Main statements: `perform_refused` says what every call that fails leaves behind, exactly when this is all that was
there before, and what the repeated call adds; `not_forall_untouched` says that it is not always all. -/

namespace BitmapAsset

/-! ### Work that stops half-way -/

section staged

variable {σ S : Type} {wrap : σ → BoundedSink → S}

/-- `work`, begun in the state `a`, hands `bytes` to a sink in memory and ends in the state `b`.  Where the sink
has too little room for the bytes, the work stops, and how much room there was tells the state that it leaves. -/
def Staged (wrap : σ → BoundedSink → S) (work : Writing S Unit) (a b : σ) (bytes : Bytes) (left : ℕ → σ) : Prop :=
  ∀ sink, work (wrap a sink) =
    match BoundedSink.put bytes sink with
    | .ok _ sink' => .ok () (wrap b sink')
    | .error e sink' => .error e (wrap (left (sink.room.getD 0)) sink')

namespace Staged

variable {f g : Writing S Unit} {a b c : σ} {x y : Bytes} {left left' : ℕ → σ}

theorem move (h : ∀ sink, f (wrap a sink) = .ok () (wrap b sink)) : Staged wrap f a b [] (fun _ => a) := by
  intro sink
  rw [BoundedSink.put_nil, h]
  rfl

theorem pure (a : σ) : Staged wrap (Pure.pure ()) a a [] (fun _ => a) := move fun _ => rfl

theorem behind {inner : Writing BoundedSink Unit} (hw : Writes inner x)
    (h : ∀ sink, f (wrap a sink) =
      match inner sink with
      | .ok u sink => .ok u (wrap a sink)
      | .error e sink => .error e (wrap a sink)) : Staged wrap f a a x (fun _ => a) := by
  intro sink
  rw [h, hw.eq_put]

theorem of_eq (h : ∀ sink, f (wrap a sink) = g (wrap a sink)) (hg : Staged wrap g a b x left) :
    Staged wrap f a b x left := by
  intro sink
  rw [h]
  exact hg sink

theorem congr (h : Staged wrap f a b x left) (same : ∀ room < x.length, left room = left' room) :
    Staged wrap f a b x left' := by
  intro sink
  rw [h sink]
  obtain ⟨written, room⟩ := sink
  cases room with
  | none => rfl
  | some room =>
      by_cases fits : x.length ≤ room
      · simp only [BoundedSink.put, if_pos fits]
      · simp only [BoundedSink.put, if_neg fits, Option.getD_some, same room (by omega)]

theorem seq (hf : Staged wrap f a b x left) (hg : Staged wrap g b c y left') :
    Staged wrap (f >>= fun _ => g) a c (x ++ y)
      (fun room => if room < x.length then left room else left' (room - x.length)) := by
  intro sink
  simp only [BoundedSink.put_append, bind, EStateM.bind, hf sink]
  obtain ⟨written, room⟩ := sink
  cases room with
  | none => exact hg _
  | some room =>
      by_cases fits : x.length ≤ room
      · have less : ¬ room < x.length := by omega
        simp only [BoundedSink.put, if_pos fits, Option.getD_some, if_neg less]
        exact hg _
      · have less : room < x.length := by omega
        simp only [BoundedSink.put, if_neg fits, Option.getD_some, if_pos less]

end Staged

end staged

namespace WordLiterals

namespace Layout

/-- The layout that is left of one more word if the sink has too little room for it: the comma counts once it
is written, and so does the line break; the word itself does not. -/
def refused (l : Layout) (room : ℕ) : Layout :=
  ⟨l.group, l.words,
    if l.words = 0 ∨ room < 2 then l.lineLength else if l.Breaks ∧ 4 ≤ room then 0 else l.lineLength + 2, l.low⟩

/-- The layout that is left of bytes if the sink has too little room for their text: words that are complete are
written and counted, and of the word that is refused the byte that waited is given up. -/
def refusedBytes (l : Layout) : Bytes → ℕ → Layout
  | [], _ => l
  | byte :: rest, room =>
      let text := (l.withLow (l.waiting byte)).text (l.completed byte)
      if room < text.length then (l.withLow none).refused room
      else ((l.withLow (l.waiting byte)).afterWords (l.completed byte)).refusedBytes rest (room - text.length)

end Layout

open Layout (inFront)

theorem onSink_staged {action : Writing BoundedSink Unit} {bytes : Bytes} (h : Writes action bytes) (l : Layout) :
    Staged inFront (onSink action) l l bytes (fun _ => l) :=
  .behind h (by
    intro sink
    cases hs : action sink <;> simp only [onSink, inFront, hs])

theorem count_staged (more lineLength : ℕ) (l : Layout) :
    Staged inFront (count more lineLength) l ⟨l.group, l.words + more, lineLength, l.low⟩ [] (fun _ => l) :=
  .move fun _ => rfl

theorem separate_staged (l : Layout) :
    Staged inFront separate l ⟨l.group, l.words, l.indent, l.low⟩ l.separator l.refused := by
  refine Staged.of_eq (separate_inFront l) ?_
  unfold Layout.indent Layout.separator
  by_cases first : l.words = 0
  · simp only [if_pos first]
    exact (Staged.pure l).congr fun room none => absurd none (Nat.not_lt_zero room)
  · have comma := onSink_staged (.putText ", ") l
    have counted := count_staged 0 (l.lineLength + 2) l
    simp only [if_neg first]
    by_cases breaks : l.Breaks
    · have newLine := (onSink_staged (.note (.lineWrapped (l.lineLength + 2))) _).seq
        ((onSink_staged (.putText "\n\t") _).seq
          (count_staged 0 0 ⟨l.group, l.words, l.lineLength + 2, l.low⟩))
      simp only [if_pos breaks]
      refine (comma.seq (counted.seq newLine)).congr ?_
      intro room few
      have four : room < 4 := few
      have two : (utf8 ", ").length = 2 := rfl
      have two' : (utf8 "\n\t").length = 2 := rfl
      by_cases less : room < 2
      · simp [Layout.refused, two, less]
      · have rest : room - 2 < 2 := by omega
        simp [Layout.refused, two, two', first, less, rest, four]
    · simp only [if_neg breaks]
      refine (comma.seq (counted.seq (.pure _))).congr ?_
      intro room few
      have less : room < 2 := few
      have two : (utf8 ", ").length = 2 := rfl
      simp [Layout.refused, two, less]

theorem Layout.refused_of_separated (l : Layout) {room : ℕ} (separated : l.separator.length ≤ room) :
    l.refused room = ⟨l.group, l.words, l.indent, l.low⟩ := by
  have two : (utf8 ", ").length = 2 := rfl
  have two' : (utf8 "\n\t").length = 2 := rfl
  unfold separator at separated
  unfold refused indent
  by_cases first : l.words = 0
  · simp only [first, true_or, if_true]
  · rw [if_neg first] at separated
    by_cases breaks : l.Breaks
    · rw [if_pos breaks, List.length_append, two, two'] at separated
      have less : ¬ room < 2 := by omega
      simp only [first, less, or_false, if_false, breaks, separated, and_self, if_true]
    · rw [if_neg breaks, List.append_nil, two] at separated
      have less : ¬ room < 2 := by omega
      simp only [first, less, or_false, if_false, breaks, false_and]

/-- A word that is refused is not counted, but what was written of its separator is. -/
theorem update_staged (l : Layout) (w : UInt16) :
    Staged inFront (update w) l l.afterWord (l.text [w]) l.refused := by
  have literal := onSink_staged (.putAll (Word.pieces w)) ⟨l.group, l.words, l.indent, l.low⟩
  have counted : Staged inFront (do count 1 ((← get).lineLength + 6)) ⟨l.group, l.words, l.indent, l.low⟩ l.afterWord
    [] (fun _ => ⟨l.group, l.words, l.indent, l.low⟩) := .move fun _ => rfl
  rw [Word.flatten_pieces] at literal
  rw [Layout.text, Layout.text, List.append_assoc]
  refine ((separate_staged l).seq (literal.seq counted)).congr ?_
  intro room _
  split_ifs with inside
  · rfl
  · exact (l.refused_of_separated (Nat.le_of_not_lt inside)).symm
  · exact (l.refused_of_separated (Nat.le_of_not_lt inside)).symm

/-- A byte that completes a word gives up the one that waited, also if the word is refused. -/
theorem writeByte_staged (l : Layout) (byte : UInt8) :
    Staged inFront (writeByte byte) l ((l.withLow (l.waiting byte)).afterWords (l.completed byte))
      ((l.withLow (l.waiting byte)).text (l.completed byte)) (l.withLow none).refused := by
  obtain ⟨group, words, lineLength, low⟩ := l
  cases low with
  | none =>
      have kept : Staged inFront (setLow (some byte)) ⟨group, words, lineLength, none⟩
        ⟨group, words, lineLength, some byte⟩ [] _ := .move fun _ => rfl
      refine Staged.of_eq (fun _ => rfl) (kept.congr ?_)
      intro room none
      exact absurd none (Nat.not_lt_zero room)
  | some low =>
      have given : Staged inFront (setLow none) ⟨group, words, lineLength, some low⟩ ⟨group, words, lineLength, none⟩
        [] _ := .move fun _ => rfl
      refine Staged.of_eq (fun _ => rfl) ((given.seq (update_staged _ (Word.ofBytes low byte))).congr ?_)
      intro room _
      rfl

/-- A chunk that is refused leaves the layout of the words that were complete, and no byte waits. -/
theorem writeBytes_staged (l : Layout) (bytes : Bytes) :
    Staged inFront (writeBytes bytes) l (l.afterBytes bytes) (l.bytesText bytes) (l.refusedBytes bytes) := by
  induction bytes generalizing l with
  | nil => exact .pure l
  | cons byte rest ih => exact (writeByte_staged l byte).seq (ih _)

/-! ### What a refused call leaves -/

namespace Layout

theorem words_afterWords (l : Layout) (words : List UInt16) :
    (l.afterWords words).words = l.words + words.length := by
  induction words generalizing l with
  | nil => rfl
  | cons w rest ih =>
      have one : l.afterWord.words = l.words + 1 := rfl
      rw [afterWords, ih, one, List.length_cons]
      omega

theorem words_afterBytes (l : Layout) (bytes : Bytes) :
    (l.afterBytes bytes).words = l.words + (l.low.toList.length + bytes.length) / 2 := by
  induction bytes generalizing l with
  | nil => cases l.low <;> simp [afterBytes]
  | cons byte rest ih =>
      rw [afterBytes, ih, words_afterWords, low_afterWords]
      cases h : l.low with
      | none => simp [withLow, waiting, completed, h]; omega
      | some low => simp [withLow, waiting, completed, h]; omega

theorem group_refusedBytes (l : Layout) (bytes : Bytes) (room : ℕ) : (l.refusedBytes bytes room).group = l.group := by
  have words (l : Layout) (words : List UInt16) : (l.afterWords words).group = l.group := by
    induction words generalizing l with
    | nil => rfl
    | cons w rest ih => exact ih l.afterWord
  induction bytes generalizing l room with
  | nil => rfl
  | cons byte rest ih =>
      rw [refusedBytes]
      split_ifs
      · rfl
      · rw [ih, words]
        rfl

theorem length_text_ge (l : Layout) (words : List UInt16) : 6 * words.length ≤ (l.text words).length := by
  induction words generalizing l with
  | nil => exact Nat.le_refl 0
  | cons w rest ih =>
      have others := ih l.afterWord
      rw [text, List.length_append, List.length_append, Word.literal_length, List.length_cons]
      omega

theorem length_bytesText_ge (l : Layout) (bytes : Bytes) :
    6 * ((l.low.toList.length + bytes.length) / 2) ≤ (l.bytesText bytes).length := by
  induction bytes generalizing l with
  | nil => cases l.low <;> simp
  | cons byte rest ih =>
      have others := ih ((l.withLow (l.waiting byte)).afterWords (l.completed byte))
      have first := (l.withLow (l.waiting byte)).length_text_ge (l.completed byte)
      rw [low_afterWords] at others
      rw [bytesText, List.length_append]
      cases h : l.low with
      | none =>
          simp only [withLow, waiting, completed, h, Option.isSome_none, Bool.false_eq_true, if_false, Option.map_none,
            Option.toList_none, Option.toList_some, List.length_nil, List.length_singleton] at others first ⊢
          rw [List.length_cons]
          omega
      | some low =>
          simp only [withLow, waiting, completed, h, Option.isSome_some, if_true, Option.map_some, Option.toList_none,
            Option.toList_some, List.length_nil, List.length_singleton] at others first ⊢
          rw [List.length_cons]
          omega

/-- A chunk is refused at a byte that completes a word: the words in front of it are there and counted, and no
byte waits. -/
theorem exists_refusedBytes {l : Layout} {bytes : Bytes} {room : ℕ} (few : room < (l.bytesText bytes).length) :
    ∃ before low byte after, bytes = before ++ byte :: after ∧ (l.afterBytes before).low = some low ∧
      (l.bytesText before).length ≤ room ∧ room < (l.bytesText (before ++ [byte])).length ∧
      l.refusedBytes bytes room =
        ((l.afterBytes before).withLow none).refused (room - (l.bytesText before).length) := by
  induction bytes generalizing l room with
  | nil => exact absurd few (Nat.not_lt_zero room)
  | cons byte rest ih =>
      rw [refusedBytes]
      split_ifs with here
      · cases waits : l.low with
        | none => simp [completed, waits, text] at here
        | some low =>
            refine ⟨[], low, byte, rest, rfl, waits, Nat.zero_le room, ?_, rfl⟩
            rw [List.nil_append, bytesText, bytesText, List.append_nil]
            exact here
      · rw [bytesText, List.length_append] at few
        have later : room - ((l.withLow (l.waiting byte)).text (l.completed byte)).length <
            (((l.withLow (l.waiting byte)).afterWords (l.completed byte)).bytesText rest).length := by omega
        obtain ⟨before, low, byte', after, rfl, waits, fits, stops, left⟩ := ih later
        refine ⟨byte :: before, low, byte', after, rfl, waits, ?_, ?_, ?_⟩
        · rw [bytesText, List.length_append]
          omega
        · rw [List.cons_append, bytesText, List.length_append]
          omega
        · rw [left, bytesText, List.length_append, Nat.sub_sub]
          rfl

theorem lineLength_refused_iff (l : Layout) (room : ℕ) :
    (l.refused room).lineLength = l.lineLength ↔ l.words = 0 ∨ room < 2 := by
  unfold refused
  dsimp only
  split_ifs with none breaks
  · exact iff_of_true rfl none
  · have long : 80 < l.lineLength + 2 := breaks.1.2
    exact iff_of_false (by omega) none
  · exact iff_of_false (by omega) none

theorem length_text_first {l : Layout} (first : l.words = 0) (w : UInt16) : (l.text [w]).length = 6 := by
  rw [text, text, separator, if_pos first, List.append_nil, List.nil_append, Word.literal_length]

theorem bytesText_two {l : Layout} (free : l.low = none) (first second : UInt8) :
    l.bytesText [first] = [] ∧ (l.afterBytes [first]).withLow none = l ∧
      l.bytesText [first, second] = l.text [Word.ofBytes first second] := by
  obtain ⟨group, words, lineLength, low⟩ := l
  obtain rfl : low = none := free
  exact ⟨rfl, rfl, List.append_nil _⟩

theorem exists_singleton {l : Layout} (free : l.low = none) {bytes : Bytes} {low : UInt8}
    (waits : (l.afterBytes bytes).low = some low) (few : bytes.length < 2) : ∃ byte, bytes = [byte] := by
  match bytes, waits with
  | [], waits =>
      rw [afterBytes, free] at waits
      cases waits
  | [byte], _ => exact ⟨byte, rfl⟩

/-- A chunk leaves all as it was if no byte waited before it and its first word is refused, with not even a comma
in front of it written. -/
theorem refusedBytes_untouched_iff {l : Layout} {bytes : Bytes} {room : ℕ} (few : room < (l.bytesText bytes).length) :
    (l.refusedBytes bytes room).words = l.words ∧ (l.refusedBytes bytes room).lineLength = l.lineLength ∧
      (l.refusedBytes bytes room).low = l.low ↔ l.low = none ∧ (l.words = 0 ∧ room < 6 ∨ room < 2) := by
  obtain ⟨before, low, byte, after, rfl, waits, fits, stops, left⟩ := exists_refusedBytes few
  have words := l.words_afterBytes before
  have complete := l.length_bytesText_ge before
  rw [left]
  constructor
  · rintro ⟨counted, line, lost⟩
    have free : l.low = none := lost.symm
    have counted : (l.afterBytes before).words = l.words := counted
    rw [words, free, Option.toList_none, List.length_nil] at counted
    obtain ⟨first, rfl⟩ := exists_singleton free waits (by omega)
    obtain ⟨nothing, same, second⟩ := bytesText_two free first byte
    rw [same, nothing, List.length_nil, Nat.sub_zero, lineLength_refused_iff] at line
    refine ⟨free, line.imp_left fun first => ⟨first, ?_⟩⟩
    rwa [List.singleton_append, second, length_text_first first] at stops
  · rintro ⟨free, early⟩
    rw [free, Option.toList_none, List.length_nil] at complete
    obtain ⟨first, rfl⟩ := exists_singleton free waits (by omega)
    obtain ⟨nothing, same, -⟩ := bytesText_two free first byte
    rw [same, nothing, List.length_nil, Nat.sub_zero, lineLength_refused_iff]
    exact ⟨rfl, early.imp_left And.left, rfl⟩

end Layout

namespace Call

/-- The text of a call. -/
def text (l : Layout) : Call → Bytes
  | word w => l.text [w]
  | bytes b => l.bytesText b
  | flush => []

/-- The layout behind a call. -/
def after (l : Layout) : Call → Layout
  | word _ => l.afterWord
  | bytes b => l.afterBytes b
  | flush => l

/-- The layout that is left of a call if the sink has too little room for its text. -/
def left (l : Layout) (room : ℕ) : Call → Layout
  | word _ => l.refused room
  | bytes b => l.refusedBytes b room
  | flush => l

theorem perform_staged (l : Layout) (call : Call) :
    Staged inFront call.perform l (call.after l) (call.text l) (call.left l) := by
  cases call with
  | word w => exact update_staged l w
  | bytes b => exact writeBytes_staged l b
  | flush => exact (onSink_staged .done l).of_eq fun _ => rfl

end Call

/-- The writer without its sink. -/
def layout {W : Type} (s : WordLiterals W) : Layout := ⟨s.group, s.words, s.lineLength, s.low⟩

/-- The writer when the sink behind takes bytes without limit from now on. -/
def resumed (s : WordLiterals BoundedSink) : WordLiterals BoundedSink :=
  { s with sink := { s.sink with room := none } }

/-- Nothing of a call has been taken in: the counters and the byte that waits are what they were. -/
structure Untouched (s s' : WordLiterals BoundedSink) : Prop where
  words_eq : s'.words = s.words
  lineLength_eq : s'.lineLength = s.lineLength
  low_eq : s'.low = s.low

theorem Call.perform_resumed (call : Call) (s : WordLiterals BoundedSink) :
    ∃ t, call.perform s.resumed = .ok () t ∧ t.layout = call.after s.layout ∧
      t.sink.toList = s.sink.toList ++ call.text s.layout := by
  obtain ⟨group, words, lineLength, low, written, room⟩ := s
  refine ⟨_, call.perform_staged ⟨group, words, lineLength, low⟩ ⟨written, none⟩, rfl, ?_⟩
  simp only [inFront, BoundedSink.toList, Array.toList_append]
  rfl

/-- What is left of a call for whose text the sink has too little room. -/
structure Refused (call : Call) (s : WordLiterals BoundedSink) (room : ℕ) (s' : WordLiterals BoundedSink) : Prop where
  few : room < (call.text s.layout).length
  /-- The sink is filled up with the front of the text. -/
  sink_eq : s'.sink = ⟨s.sink.written ++ ((call.text s.layout).take room).toArray, some 0⟩
  group_eq : s'.group = s.group
  /-- A word given as such is not counted, but the parts of the separator in front of it are. -/
  word : ∀ w, call = .word w → s'.words = s.words ∧ s'.low = s.low ∧ s'.lineLength =
    if s.words = 0 ∨ room < 2 then s.lineLength
    else if s.layout.Breaks ∧ 4 ≤ room then 0 else s.lineLength + 2
  /-- A chunk is refused at a byte that completes a word.  The words in front of it are written and counted, and
  the byte that waited for this one is lost. -/
  bytes : ∀ b, call = .bytes b → s'.low = none ∧ ∃ before low byte after, b = before ++ byte :: after ∧
    (s.layout.afterBytes before).low = some low ∧ (s.layout.bytesText before).length ≤ room ∧
    s'.words = s.words + (s.low.toList.length + before.length) / 2
  /-- All is as before exactly if no byte waited for the chunk, and its first word was refused with not even a
  comma in front of it written. -/
  untouched_iff : Untouched s s' ↔ (∀ b, call = .bytes b → s.low = none) ∧ (s.words = 0 ∧ room < 6 ∨ room < 2)
  /-- Repeated once the sink takes bytes again, the call adds its text as the counters have it now; if all is as
  before, this is what it would have added, and the writer is where it would be. -/
  again : ∃ t t', call.perform s.resumed = .ok () t ∧ call.perform s'.resumed = .ok () t' ∧
    t.sink.toList = s.sink.toList ++ call.text s.layout ∧ t'.sink.toList = s'.sink.toList ++ call.text s'.layout ∧
    (Untouched s s' → call.text s'.layout = call.text s.layout ∧ t'.layout = t.layout)

theorem Untouched.layout_eq {s s' : WordLiterals BoundedSink} (h : Untouched s s') (group : s'.group = s.group) :
    s'.layout = s.layout := by
  rw [layout, layout, group, h.words_eq, h.lineLength_eq, h.low_eq]

theorem Call.perform_eq_error {call : Call} {s s' : WordLiterals BoundedSink} {e : Error}
    (failed : call.perform s = .error e s') : ∃ room, s.sink.room = some room ∧
      room < (call.text s.layout).length ∧ e = .write .full ∧ s' = inFront (call.left s.layout room)
        ⟨s.sink.written ++ ((call.text s.layout).take room).toArray, some 0⟩ := by
  obtain ⟨group, words, lineLength, low, written, room⟩ := s
  have staged := call.perform_staged ⟨group, words, lineLength, low⟩ ⟨written, room⟩
  have begun : inFront ⟨group, words, lineLength, low⟩ ⟨written, room⟩ =
    (⟨group, words, lineLength, low, ⟨written, room⟩⟩ : WordLiterals BoundedSink) := rfl
  rw [begun, failed] at staged
  cases room with
  | none => cases staged
  | some room =>
      by_cases fits : (call.text ⟨group, words, lineLength, low⟩).length ≤ room
      · simp only [BoundedSink.put, if_pos fits] at staged
        cases staged
      · simp only [BoundedSink.put, if_neg fits, Option.getD_some] at staged
        cases staged
        exact ⟨room, rfl, Nat.lt_of_not_le fits, rfl, rfl⟩

theorem Call.left_untouched_iff {l : Layout} {room : ℕ} {call : Call} (few : room < (call.text l).length) :
    (call.left l room).words = l.words ∧ (call.left l room).lineLength = l.lineLength ∧
      (call.left l room).low = l.low ↔
    (∀ b, call = .bytes b → l.low = none) ∧ (l.words = 0 ∧ room < 6 ∨ room < 2) := by
  cases call with
  | word w =>
      have line := l.lineLength_refused_iff room
      have first : l.words = 0 → room < 6 := fun none => by
        rwa [text, Layout.length_text_first none] at few
      constructor
      · rintro ⟨-, same, -⟩
        exact ⟨nofun, (line.mp same).imp_left fun none => ⟨none, first none⟩⟩
      · rintro ⟨-, early⟩
        exact ⟨rfl, line.mpr (early.imp_left And.left), rfl⟩
  | bytes b =>
      rw [left, Layout.refusedBytes_untouched_iff few]
      refine and_congr_left fun _ => ⟨fun free _ _ => free, fun free => free b rfl⟩
  | flush => exact absurd few (Nat.not_lt_zero room)

theorem Call.group_left {l : Layout} {room : ℕ} (call : Call) : (call.left l room).group = l.group := by
  cases call with
  | word w => rfl
  | bytes b => exact l.group_refusedBytes b room
  | flush => rfl

/-- **What a call leaves that fails**: the sink is full, and the counters have moved past what it took. -/
theorem perform_refused {call : Call} {s s' : WordLiterals BoundedSink} {e : Error}
    (failed : call.perform s = .error e s') :
    e = .write .full ∧ ∃ room, s.sink.room = some room ∧ Refused call s room s' := by
  obtain ⟨room, limit, few, rfl, rfl⟩ := Call.perform_eq_error failed
  refine ⟨rfl, room, limit, few, rfl, call.group_left, ?_, ?_, ?_, ?_⟩
  · rintro w rfl
    exact ⟨rfl, rfl, rfl⟩
  · rintro b rfl
    obtain ⟨before, low, byte, after, parts, waits, fits, -, left⟩ := Layout.exists_refusedBytes few
    have words := s.layout.words_afterBytes before
    have state : Call.left s.layout room (.bytes b) = _ := left
    rw [state]
    exact ⟨rfl, before, low, byte, after, parts, waits, fits, words⟩
  · have moved := Call.left_untouched_iff few
    exact ⟨fun h => moved.mp ⟨h.words_eq, h.lineLength_eq, h.low_eq⟩, fun h =>
      ⟨(moved.mpr h).1, (moved.mpr h).2.1, (moved.mpr h).2.2⟩⟩
  · obtain ⟨t, done, after, all⟩ := call.perform_resumed s
    obtain ⟨t', done', after', all'⟩ := call.perform_resumed (inFront (call.left s.layout room)
      ⟨s.sink.written ++ ((call.text s.layout).take room).toArray, some 0⟩)
    refine ⟨t, t', done, done', all, all', fun same => ?_⟩
    have layout := same.layout_eq call.group_left
    exact ⟨by rw [layout], by rw [after, after', layout]⟩

/-- A writer behind one word, with room for three bytes. -/
def nearlyFull : WordLiterals BoundedSink := ⟨1, 1, 6, none, ⟨(utf8 "0x0007").toArray, some 3⟩⟩

/-- What another word leaves of it. -/
def full : WordLiterals BoundedSink := ⟨1, 1, 8, none, ⟨(utf8 "0x0007, 0").toArray, some 0⟩⟩

/-- The comma counts though its word does not, and counts again when the word is repeated. -/
theorem perform_refused_comma : (Call.word 8).perform nearlyFull = .error (.write .full) full ∧
    ∃ room, nearlyFull.sink.room = some room ∧ Refused (.word 8) nearlyFull room full := by
  have failed : (Call.word 8).perform nearlyFull = .error (.write .full) full := rfl
  exact ⟨failed, (perform_refused failed).2⟩

/-- The states that a writer gets into, with calls that succeed and calls that fail, and with any room in the sink. -/
inductive Reachable (group : ℕ) : WordLiterals BoundedSink → Prop
  | start (sink : BoundedSink) : Reachable group (ofSink group sink)
  | call {s : WordLiterals BoundedSink} (call : Call) (h : Reachable group s) :
      Reachable group (Writing.left call.perform s)
  | room {s : WordLiterals BoundedSink} (room : Option ℕ) (h : Reachable group s) :
      Reachable group { s with sink := { s.sink with room := room } }

/-- **A call that fails does not leave everything as it was**, neither one that gives a word nor one that gives
bytes. -/
theorem not_forall_untouched :
    (¬ ∀ group s w e s', 1 ≤ group → Reachable group s → update w s = .error e s' → Untouched s s') ∧
    ¬ ∀ group s b e s', 1 ≤ group → Reachable group s → Sink.put b s = .error e s' → Untouched s s' := by
  constructor
  · intro all
    have reached : Reachable 1 nearlyFull := .room (some 3) (.call (.word 7) (.start ⟨#[], none⟩))
    have same : Untouched nearlyFull full := all 1 _ 8 (.write .full) _ (Nat.le_refl 1) reached rfl
    exact absurd same.lineLength_eq (by decide)
  · intro all
    have reached : Reachable 1 ⟨1, 0, 0, some 1, ⟨#[], some 0⟩⟩ :=
      .room (some 0) (.call (.bytes [1]) (.start ⟨#[], none⟩))
    have same := all 1 _ [2] (.write .full) _ (Nat.le_refl 1) reached rfl
    exact absurd same.low_eq (by decide)

end WordLiterals

end BitmapAsset

import BitmapAsset.Proofs.Decoding

/-! # What the reader holds while it reads

`Stream.rounds` is the record of a watcher that writes down every round that the loop of the reader shows it.  It tells
all that the loop ever does, also where the byte string is refused, and any other watcher sees just these rounds, and
sees the reader come to what it comes to with nobody watching (`Stream.run_decodeWith`).

One word takes the expansion of the words before to the expansion of the words with it (`Stream.Expansion.feed_ofWords`)
and adds at most 65536 pixels (`Stream.Expansion.size_feed_le`).  So every round finds the colours of the complete pairs
so far, within what the header announces, and the first round that goes beyond it ends the loop
(`Stream.bounded_of_getElem?`).  The main statement, `Stream.decode_rounds`, says this of every byte string. -/

namespace BitmapAsset.Stream

/-! ### The rounds -/

/-- The watcher that writes down the rounds. -/
def record (r : Round) : StateM (List Round) Unit := modify (· ++ [r])

/-- The rounds that the loop of the reader goes through on a byte string. -/
def rounds (b : Bytes) : List Round := ((decodeWith record b).run.run []).2

/-- The rounds of the loop over some words, as long as it goes on. -/
def roundsFrom (expected : ℕ) : Expansion → List UInt16 → List Round
  | _, [] => []
  | s, word :: rest =>
    ⟨s, word⟩ :: if expected < (s.feed word).colors.size then [] else roundsFrom expected (s.feed word) rest

/-- The rounds of the loop over a body, which is not begun if a byte is left over. -/
def bodyRounds (expected : ℕ) (body : Bytes) : List Round :=
  if body.length % 2 = 1 then [] else roundsFrom expected Expansion.empty (Word.list body)

section
variable {m : Type → Type} [Monad m] [LawfulMonad m] (watch : Round → m Unit)

/-- The loop shows its rounds, and comes to what it comes to with nobody watching. -/
theorem run_foldlM_feedWith (expected : ℕ) : ∀ (s : Expansion) (words : List UInt16),
    (words.foldlM (feedWith watch expected) s).run = (do
      (roundsFrom expected s words).forM watch
      pure (loop expected s words))
  | s, [] => by
      rw [roundsFrom, loop_nil]
      simp
  | s, word :: rest => by
      rw [run_foldlM_cons_feedWith, roundsFrom, loop_cons, List.forM_eq_forM, List.forM_cons, bind_assoc]
      refine bind_congr fun _ => ?_
      split_ifs
      · simp
      · exact run_foldlM_feedWith expected (s.feed word) rest

theorem run_expandWith_eq (expected : ℕ) (body : Bytes) :
    (expandWith watch expected body).run = (do
      (bodyRounds expected body).forM watch
      pure (expand expected body)) := by
  rw [run_expandWith, bodyRounds, expand_eq_loop]
  split_ifs
  · simp
  · rw [run_foldlM_feedWith, bind_assoc]
    simp only [pure_bind]

theorem run_decodeWith_header_eq (width height : UInt16) (body : Bytes) :
    (decodeWith watch (headerBytes width height ++ body)).run = (do
      (bodyRounds (width.toNat * height.toNat) body).forM watch
      pure (decode (headerBytes width height ++ body))) := by
  rw [run_decodeWith_header, run_expandWith_eq, decode_header, bind_assoc]
  simp only [pure_bind]

end

theorem run_forM_record (list before : List Round) : ((list.forM record).run before).2 = before ++ list := by
  induction list generalizing before with
  | nil => exact (List.append_nil before).symm
  | cons r list ih =>
      show ((list.forM record).run (before ++ [r])).2 = _
      rw [ih, List.append_assoc]
      rfl

theorem rounds_header (width height : UInt16) (body : Bytes) :
    rounds (headerBytes width height ++ body) = bodyRounds (width.toNat * height.toNat) body := by
  rw [rounds, run_decodeWith_header_eq]
  exact run_forM_record _ []

theorem rounds_of_short {b : Bytes} (short : b.length < 4) : rounds b = [] := by
  rw [rounds, run_decodeWith_of_short record short]
  rfl

/-- Every watcher sees the same rounds, and the reader come to the same outcome. -/
theorem run_decodeWith {m : Type → Type} [Monad m] [LawfulMonad m] (watch : Round → m Unit) (b : Bytes) :
    (decodeWith watch b).run = (do
      (rounds b).forM watch
      pure (decode b)) := by
  by_cases short : b.length < 4
  · rw [run_decodeWith_of_short watch short, rounds_of_short short, decode_of_short short]
    simp
  · obtain ⟨width, height, body, rfl⟩ := exists_header short
    rw [run_decodeWith_header_eq, rounds_header]

/-! ### What an expansion holds -/

namespace Pair

theorem leftover_append_singleton : ∀ (words : List UInt16) (word : UInt16),
    leftover (words ++ [word]) = if (leftover words).isSome then none else some word
  | [], _ => rfl
  | [_], _ => rfl
  | _ :: _ :: rest, word => leftover_append_singleton rest word

theorem ofWords_append_singleton : ∀ (words : List UInt16) (word : UInt16),
    ofWords (words ++ [word]) = ofWords words ++ ((leftover words).map fun repeats => ⟨repeats, word⟩).toList
  | [], _ => rfl
  | [_], _ => rfl
  | repeats :: color :: rest, word => by
      have ih := ofWords_append_singleton rest word
      simp only [List.cons_append, ofWords, leftover, ih]

end Pair

namespace Expansion

/-- The expansion of some words: the colours of their complete pairs, and the word left over. -/
def ofWords (words : List UInt16) : Expansion :=
  ⟨Pair.leftover words, ((Pair.ofWords words).flatMap Pair.colors).toArray⟩

theorem feed_ofWords (words : List UInt16) (word : UInt16) : (ofWords words).feed word = ofWords (words ++ [word]) := by
  unfold ofWords
  rw [Pair.leftover_append_singleton, Pair.ofWords_append_singleton]
  cases Pair.leftover words with
  | none => simp [feed]
  | some repeats =>
      simp [feed, Pair.colors, Pair.count]

theorem size_feed_le (s : Expansion) (word : UInt16) : (s.feed word).colors.size ≤ s.colors.size + 65536 := by
  obtain ⟨repeats, colors⟩ := s
  cases repeats with
  | none => exact Nat.le_add_right _ _
  | some repeats =>
      have small : repeats.toNat < 65536 := repeats.toNat_lt
      simp only [feed, Array.size_append, Array.size_replicate]
      omega

/-- Whether an expansion holds the colours of the complete pairs of some words, and a count exactly if a word is left
over from them. -/
structure Holds (s : Expansion) (words : List UInt16) : Prop where
  colors : s.colors.toList = (Pair.ofWords words).flatMap Pair.colors
  repeats : s.repeats.isSome = true ↔ words.length % 2 = 1

theorem holds_ofWords (words : List UInt16) : (ofWords words).Holds words :=
  ⟨rfl, Pair.isSome_leftover words⟩

end Expansion

/-! ### What the loop keeps -/

/-- What each round finds: the expansion of the words before it, within what is expected; and a round that goes too
far is the last one. -/
theorem of_getElem?_roundsFrom {expected : ℕ} : ∀ {words read : List UInt16},
    (Expansion.ofWords read).colors.size ≤ expected → ∀ {i : ℕ} {r : Round},
      (roundsFrom expected (Expansion.ofWords read) words)[i]? = some r →
        words[i]? = some r.word ∧ r.before = Expansion.ofWords (read ++ words.take i) ∧
          r.before.colors.size ≤ expected ∧
          (expected < r.after.colors.size →
            i + 1 = (roundsFrom expected (Expansion.ofWords read) words).length)
  | [], _, _, _, _, at_i => nomatch at_i
  | word :: rest, read, within, i, r, at_i => by
      rw [roundsFrom] at at_i ⊢
      cases i with
      | zero =>
          obtain rfl : ⟨Expansion.ofWords read, word⟩ = r := Option.some.inj at_i
          refine ⟨rfl, by rw [List.take_zero, List.append_nil], within, ?_⟩
          intro (tooMany : expected < ((Expansion.ofWords read).feed word).colors.size)
          rw [if_pos tooMany]
          rfl
      | succ i =>
          rw [List.getElem?_cons_succ] at at_i
          split_ifs at at_i ⊢ with tooMany
          · cases at_i
          · rw [Expansion.feed_ofWords] at at_i tooMany ⊢
            obtain ⟨word_eq, before_eq, still, last⟩ := of_getElem?_roundsFrom (Nat.le_of_not_lt tooMany) at_i
            rw [List.append_assoc] at before_eq
            refine ⟨word_eq, before_eq, still, fun goesTooFar => ?_⟩
            rw [List.length_cons, last goesTooFar]

theorem map_word_roundsFrom {expected : ℕ} : ∀ (words : List UInt16) (s : Expansion),
    (∀ r ∈ roundsFrom expected s words, r.after.colors.size ≤ expected) →
      (roundsFrom expected s words).map Round.word = words
  | [], _, _ => rfl
  | word :: rest, s, within => by
      rw [roundsFrom] at within ⊢
      obtain ⟨first, later⟩ := List.forall_mem_cons.mp within
      have go : ¬ expected < (s.feed word).colors.size := Nat.not_lt.mpr first
      rw [if_neg go] at later ⊢
      rw [List.map_cons, map_word_roundsFrom rest (s.feed word) later]

theorem loop_eq_error {expected : ℕ} : ∀ {s : Expansion} {words : List UInt16},
    ∀ r ∈ roundsFrom expected s words, expected < r.after.colors.size → loop expected s words = .error .tooManyPixels
  | _, [], _, mem, _ => absurd mem List.not_mem_nil
  | s, word :: rest, r, mem, tooFar => by
      rw [roundsFrom] at mem
      rw [loop_cons]
      split_ifs at mem ⊢ with tooMany
      · rfl
      · rcases List.mem_cons.mp mem with rfl | later
        · exact absurd tooFar tooMany
        · exact loop_eq_error r later tooFar

/-- What is true of a round of the loop over some words: its place, what it finds, and what it leaves. -/
structure Round.Bounded (r : Round) (expected : ℕ) (words : List UInt16) (i : ℕ) : Prop where
  word : words[i]? = some r.word
  before : r.before.Holds (words.take i)
  size_before : r.before.colors.size ≤ expected
  after : r.after.Holds (words.take (i + 1))
  size_after : r.after.colors.size ≤ expected + 65536

/-- Every round of the loop is bounded, and one that goes too far is the last one. -/
theorem bounded_of_getElem? {expected : ℕ} {words : List UInt16} {i : ℕ} {r : Round}
    (at_i : (roundsFrom expected Expansion.empty words)[i]? = some r) :
    r.Bounded expected words i ∧
      (expected < r.after.colors.size → i + 1 = (roundsFrom expected Expansion.empty words).length) := by
  have nothing : (Expansion.ofWords []).colors.size ≤ expected := Nat.zero_le expected
  obtain ⟨word, before, within, last⟩ := of_getElem?_roundsFrom nothing at_i
  rw [List.nil_append] at before
  have after : r.after = Expansion.ofWords (words.take (i + 1)) := by
    rw [Round.after, before, Expansion.feed_ofWords, List.take_add_one, word]
    rfl
  refine ⟨⟨word, ?_, within, ?_, (r.before.size_feed_le r.word).trans (Nat.add_le_add_right within _)⟩, last⟩
  · rw [before]
    exact Expansion.holds_ofWords _
  · rw [after]
    exact Expansion.holds_ofWords _

theorem decode_eq_tooManyPixels {width height : UInt16} {body : Bytes} (even : ¬ body.length % 2 = 1)
    (tooMany : loop (width.toNat * height.toNat) Expansion.empty (Word.list body) = .error .tooManyPixels) :
    decode (headerBytes width height ++ body) = .error .tooManyPixels := by
  rw [decode_header, expand_eq_loop, if_neg even, tooMany]
  rfl

/-- **A byte string cannot blow up the reader.**  All that a watcher of the reader is shown are its rounds, and it sees
the reader come to the same outcome.  Whatever the byte string holds, each round of the loop feeds the next word; before
it the expansion holds the colours of the complete pairs so far, at most as many as the header announces, and right after
it at most 65536 more, with a count exactly after an odd number of words.  A round that goes beyond what is announced is
the last one, and the byte string is refused for it; without such a round, all words are fed. -/
theorem decode_rounds (b : Bytes) :
    (∀ {m : Type → Type} [Monad m] [LawfulMonad m] (watch : Round → m Unit), (decodeWith watch b).run = (do
      (rounds b).forM watch
      pure (decode b))) ∧
    (∀ (i : ℕ) (r : Round), (rounds b)[i]? = some r → r.Bounded (announced b) (bodyWords b) i ∧
      (announced b < r.after.colors.size → i + 1 = (rounds b).length ∧ decode b = .error .tooManyPixels)) ∧
    (4 ≤ b.length → b.length % 2 = 0 → (∀ r ∈ rounds b, r.after.colors.size ≤ announced b) →
      (rounds b).map Round.word = bodyWords b) := by
  refine ⟨fun watch => run_decodeWith watch b, ?_⟩
  by_cases short : b.length < 4
  · rw [rounds_of_short short]
    exact ⟨fun _ _ at_i => (nomatch at_i), fun long => absurd short (Nat.not_lt.mpr long)⟩
  obtain ⟨width, height, body, rfl⟩ := exists_header short
  have length : (headerBytes width height ++ body).length = 4 + body.length := List.length_append
  rw [announced_header, bodyWords_header, rounds_header, bodyRounds]
  by_cases odd : body.length % 2 = 1
  · rw [if_pos odd]
    exact ⟨fun _ _ at_i => (nomatch at_i), fun _ even => by omega⟩
  · rw [if_neg odd]
    refine ⟨fun i r at_i => ?_, fun _ _ within => map_word_roundsFrom _ _ within⟩
    obtain ⟨bounded, last⟩ := bounded_of_getElem? at_i
    refine ⟨bounded, fun tooFar => ⟨last tooFar, ?_⟩⟩
    exact decode_eq_tooManyPixels odd (loop_eq_error r (List.mem_of_getElem? at_i) tooFar)

/-- A byte string that announces one pixel, with a pair of three pixels and a pair of 65536. -/
def inflated : Bytes := headerBytes 1 1 ++ Word.bytes 2 ++ Word.bytes 0x1234 ++ Word.bytes 0xFFFF ++ Word.bytes 0

/-- The second pair is never read, and a watcher that counts the rounds counts two. -/
theorem decode_rounds_inflated : (rounds inflated).map Round.word = [2, 0x1234] ∧
    (∀ r ∈ rounds inflated, r.before.colors.size ≤ 1 ∧ r.after.colors.size ≤ 65537) ∧
    decode inflated = .error .tooManyPixels ∧
    (decodeWith (fun _ => modify (· + 1) : Round → StateM ℕ Unit) inflated).run.run 0 =
      (.error .tooManyPixels, 2) := by
  obtain ⟨watched, kept, -⟩ := decode_rounds inflated
  have last : (rounds inflated)[1]? = some ⟨⟨some 2, #[]⟩, 0x1234⟩ := rfl
  have refused : decode inflated = .error .tooManyPixels := ((kept 1 _ last).2 (by decide)).2
  refine ⟨rfl, fun r mem => ?_, refused, ?_⟩
  · obtain ⟨i, at_i⟩ := List.mem_iff_getElem?.mp mem
    obtain ⟨bounded, -⟩ := kept i r at_i
    exact ⟨bounded.size_before, bounded.size_after⟩
  · rw [watched, refused]
    rfl

end BitmapAsset.Stream

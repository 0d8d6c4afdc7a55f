import BitmapAsset.Proofs.Pair

/-! # What a stream is

`Stream.decode` reads word by word and stops as soon as there are too many pixels.  For the outcome this
is as good as adding up all pairs first (`Stream.loop_ofWords`): pixels only ever come, so a sum that is too
large at some pair stays too large.  The equations of the reader hold with any watcher
(`Stream.run_foldlM_cons_feedWith`, `Stream.run_expandWith`, `Stream.run_decodeWith_header`).

The main statement, `Stream.decode_grammar`, says which byte strings are streams and what picture each
of them holds, and which fault is reported for all others. -/

namespace BitmapAsset.Stream

/-! ### The reader with a watcher -/

/-- What is asked of the expansion once all words are read. -/
def accept (expected : ℕ) (s : Expansion) : Except StreamError (Array UInt16) :=
  if s.repeats.isSome then .error .countWithoutColor
  else if s.colors.size ≠ expected then .error .tooFewPixels
  else .ok s.colors

/-- The header of a stream. -/
def headerBytes (width height : UInt16) : Bytes := Word.bytes width ++ Word.bytes height

section
variable {m : Type → Type} [Monad m] [LawfulMonad m] (watch : Round → m Unit)

/-- A round of the loop is shown, and then the loop stops, or goes on with the expansion that has the word. -/
theorem run_foldlM_cons_feedWith (expected : ℕ) (s : Expansion) (word : UInt16) (rest : List UInt16) :
    ((word :: rest).foldlM (feedWith watch expected) s).run = (do
      watch ⟨s, word⟩
      if expected < (s.feed word).colors.size then pure (.error .tooManyPixels)
      else (rest.foldlM (feedWith watch expected) (s.feed word)).run) := by
  simp only [List.foldlM_cons, feedWith, ExceptT.run_bind, ExceptT.run_liftM, bind_map_left, bind_assoc]
  split_ifs <;> simp

theorem run_expandWith (expected : ℕ) (body : Bytes) :
    (expandWith watch expected body).run =
      if body.length % 2 = 1 then pure (.error .oddByte)
      else (do
        let outcome ← ((Word.list body).foldlM (feedWith watch expected) Expansion.empty).run
        pure (outcome.bind (accept expected))) := by
  unfold expandWith
  split_ifs with odd
  · simp
  · simp only [ExceptT.run_bind]
    refine bind_congr fun outcome => ?_
    cases outcome with
    | error e => rfl
    | ok s =>
        simp only [Except.bind, accept]
        split_ifs <;> simp

omit [LawfulMonad m] in
theorem run_decodeWith_header (width height : UInt16) (body : Bytes) :
    (decodeWith watch (headerBytes width height ++ body)).run = (do
      let outcome ← (expandWith watch (width.toNat * height.toNat) body).run
      pure (outcome.map fun colors => ⟨width, height, colors⟩)) := by
  simp only [headerBytes, Word.bytes, List.cons_append, List.nil_append, decodeWith, Word.ofBytes_bytes,
    ExceptT.run_bind]
  refine bind_congr fun outcome => ?_
  cases outcome <;> rfl

omit [LawfulMonad m] in
theorem run_decodeWith_of_short {b : Bytes} (short : b.length < 4) :
    (decodeWith watch b).run = pure (.error .missingHeader) := by
  match b, short with
  | [], _ | [_], _ | [_, _], _ | [_, _, _], _ => rfl

end

/-! ### The loop -/

/-- What the loop comes to on some words, begun with an expansion. -/
def loop (expected : ℕ) (s : Expansion) (words : List UInt16) : Except StreamError Expansion :=
  Id.run (words.foldlM (feedWith unwatched expected) s).run

theorem loop_nil (expected : ℕ) (s : Expansion) : loop expected s [] = .ok s := rfl

theorem loop_cons (expected : ℕ) (s : Expansion) (word : UInt16) (rest : List UInt16) :
    loop expected s (word :: rest) =
      if expected < (s.feed word).colors.size then .error .tooManyPixels else loop expected (s.feed word) rest := by
  unfold loop
  rw [run_foldlM_cons_feedWith]
  show Id.run (if _ then _ else _) = _
  split_ifs <;> rfl

theorem loop_ofWords (expected : ℕ) : ∀ (words : List UInt16) (colors : Array UInt16), colors.size ≤ expected →
    loop expected ⟨none, colors⟩ words =
      if expected < colors.size + total (Pair.ofWords words) then .error .tooManyPixels
      else .ok ⟨Pair.leftover words, colors ++ ((Pair.ofWords words).flatMap Pair.colors).toArray⟩
  | [], colors, h => by
      have room : ¬ expected < colors.size + total (Pair.ofWords []) := by
        simp only [Pair.ofWords, total, List.map_nil, List.sum_nil]
        omega
      rw [loop_nil, if_neg room]
      simp [Pair.ofWords, Pair.leftover]
  | [word], colors, h => by
      have room : ¬ expected < colors.size := by omega
      rw [loop_cons, Expansion.feed, if_neg room, loop_nil]
      simp [room, Pair.ofWords, Pair.leftover, total]
  | repeats :: color :: rest, colors, h => by
      have room : ¬ expected < colors.size := by omega
      have sum : total (Pair.ofWords (repeats :: color :: rest)) =
          (repeats.toNat + 1) + total (Pair.ofWords rest) := by
        simp [Pair.ofWords, total, Pair.count]
      rw [loop_cons, Expansion.feed, if_neg room, loop_cons, Expansion.feed, sum, Array.size_append,
        Array.size_replicate]
      by_cases tooMany : expected < colors.size + (repeats.toNat + 1)
      · have all : expected < colors.size + (repeats.toNat + 1 + total (Pair.ofWords rest)) := by omega
        rw [if_pos tooMany, if_pos all]
      · have ih := loop_ofWords expected rest (colors ++ Array.replicate (repeats.toNat + 1) color)
          (by simp only [Array.size_append, Array.size_replicate]; omega)
        rw [if_neg tooMany]
        refine ih.trans ?_
        simp only [Array.size_append, Array.size_replicate, Nat.add_assoc]
        split_ifs
        · rfl
        · congr 2
          apply Array.toList_inj.mp
          simp [Pair.ofWords, Pair.colors, Pair.count]

/-! ### The body -/

theorem expand_eq_loop (expected : ℕ) (body : Bytes) :
    expand expected body =
      if body.length % 2 = 1 then .error .oddByte
      else (loop expected Expansion.empty (Word.list body)).bind (accept expected) := by
  rw [expand, run_expandWith]
  split_ifs <;> rfl

/-- The body is refused for the first of four faults, or holds the colours of its pairs. -/
theorem expand_eq (expected : ℕ) (body : Bytes) :
    expand expected body =
      if body.length % 2 = 1 then .error .oddByte
      else if expected < total (Pair.ofWords (Word.list body)) then .error .tooManyPixels
      else if (Word.list body).length % 2 = 1 then .error .countWithoutColor
      else if total (Pair.ofWords (Word.list body)) < expected then .error .tooFewPixels
      else .ok ((Pair.ofWords (Word.list body)).flatMap Pair.colors).toArray := by
  rw [expand_eq_loop]
  by_cases odd : body.length % 2 = 1
  · rw [if_pos odd, if_pos odd]
  have loop := loop_ofWords expected (Word.list body) #[] (Nat.zero_le _)
  rw [Array.size_empty, Nat.zero_add, Array.empty_append] at loop
  rw [if_neg odd, if_neg odd, Expansion.empty, loop]
  by_cases tooMany : expected < total (Pair.ofWords (Word.list body))
  · rw [if_pos tooMany, if_pos tooMany]
    rfl
  rw [if_neg tooMany, if_neg tooMany]
  simp only [Except.bind, accept, Pair.isSome_leftover, List.size_toArray, length_flatMap_colors]
  by_cases few : total (Pair.ofWords (Word.list body)) < expected
  · rw [if_pos few, if_pos (Nat.ne_of_lt few)]
  · have same : total (Pair.ofWords (Word.list body)) = expected := by omega
    rw [if_neg few, if_neg (not_not_intro same)]

theorem expand_flatMap_bytes {expected : ℕ} {pairs : List Pair} (h : total pairs = expected) :
    expand expected (pairs.flatMap Pair.bytes) = .ok (pairs.flatMap Pair.colors).toArray := by
  have even : ¬ (pairs.flatMap Pair.bytes).length % 2 = 1 := by
    simp [List.length_flatMap, Pair.bytes, Word.bytes_length]
    omega
  have none : ¬ (pairs.flatMap Pair.words).length % 2 = 1 := by
    rw [← Pair.isSome_leftover, Pair.leftover_flatMap_words]
    exact Bool.false_ne_true
  rw [expand_eq, Pair.list_flatMap_bytes, Pair.ofWords_flatMap_words, if_neg even, if_neg none, h,
    if_neg (Nat.lt_irrefl _), if_neg (Nat.lt_irrefl _)]

theorem expand_eq_ok {expected : ℕ} {body : Bytes} {colors : Array UInt16}
    (h : expand expected body = .ok colors) :
    body = (Pair.ofWords (Word.list body)).flatMap Pair.bytes ∧
      total (Pair.ofWords (Word.list body)) = expected ∧
      colors.toList = (Pair.ofWords (Word.list body)).flatMap Pair.colors := by
  rw [expand_eq] at h
  split_ifs at h with odd tooMany alone few
  have e := Except.ok.inj h
  exact ⟨(Pair.flatMap_bytes_ofWords odd alone).symm, by omega, by rw [← e]⟩

/-! ### The whole stream -/

/-- The number of pixels that the header of a byte string announces. -/
def announced : Bytes → ℕ
  | w₀ :: w₁ :: h₀ :: h₁ :: _ => (Word.ofBytes w₀ w₁).toNat * (Word.ofBytes h₀ h₁).toNat
  | _ => 0

/-- The words behind the header. -/
def bodyWords (b : Bytes) : List UInt16 := Word.list (b.drop 4)

/-- The complete pairs behind the header. -/
def bodyPairs (b : Bytes) : List Pair := Pair.ofWords (bodyWords b)

/-- Why a byte string is refused, if it is: the first of these faults. -/
def faultText (b : Bytes) : String :=
  if b.length < 4 then "missing size header"
  else if b.length % 2 = 1 then "odd trailing byte"
  else if announced b < total (bodyPairs b) then "more pixels than the header announces"
  else if (bodyWords b).length % 2 = 1 then "run count without color"
  else "fewer pixels than the header announces"

theorem exists_header {b : Bytes} (h : ¬ b.length < 4) :
    ∃ width height body, b = headerBytes width height ++ body := by
  match b, h with
  | w₀ :: w₁ :: h₀ :: h₁ :: body, _ =>
      refine ⟨Word.ofBytes w₀ w₁, Word.ofBytes h₀ h₁, body, ?_⟩
      rw [headerBytes, Word.bytes_ofBytes, Word.bytes_ofBytes]
      rfl
  | [], h | [_], h | [_, _], h | [_, _, _], h => simp at h

theorem decode_of_short {b : Bytes} (short : b.length < 4) : decode b = .error .missingHeader := by
  rw [decode, run_decodeWith_of_short unwatched short]
  rfl

theorem decode_header (width height : UInt16) (body : Bytes) :
    decode (headerBytes width height ++ body) =
      (expand (width.toNat * height.toNat) body).map fun colors => ⟨width, height, colors⟩ := by
  rw [decode, run_decodeWith_header]
  rfl

theorem announced_header (width height : UInt16) (body : Bytes) :
    announced (headerBytes width height ++ body) = width.toNat * height.toNat := by
  simp only [headerBytes, Word.bytes, List.cons_append, List.nil_append, announced, Word.ofBytes_bytes]

theorem bodyWords_header (width height : UInt16) (body : Bytes) :
    bodyWords (headerBytes width height ++ body) = Word.list body := rfl

theorem bodyPairs_header (width height : UInt16) (pairs : List Pair) :
    bodyPairs (headerBytes width height ++ pairs.flatMap Pair.bytes) = pairs := by
  unfold bodyPairs
  rw [bodyWords_header, Pair.list_flatMap_bytes, Pair.ofWords_flatMap_words]

/-- A byte string holds a picture exactly if it is a header and pairs with as many pixels as the header
announces, and then it holds the colours of the pairs. -/
theorem decode_eq_ok_iff (b : Bytes) (d : Decoded) :
    decode b = .ok d ↔ ∃ pairs : List Pair,
      b = headerBytes d.width d.height ++ pairs.flatMap Pair.bytes ∧
      total pairs = d.width.toNat * d.height.toNat ∧
      d.colors.toList = pairs.flatMap Pair.colors := by
  constructor
  · intro h
    by_cases short : b.length < 4
    · rw [decode_of_short short] at h
      cases h
    obtain ⟨width, height, body, rfl⟩ := exists_header short
    rw [decode_header] at h
    cases he : expand (width.toNat * height.toNat) body with
    | error e => rw [he] at h; cases h
    | ok colors =>
        rw [he] at h
        obtain rfl := Except.ok.inj h
        obtain ⟨hb, ht, hc⟩ := expand_eq_ok he
        exact ⟨_, by rw [← hb], ht, hc⟩
  · rintro ⟨pairs, rfl, ht, hc⟩
    rw [decode_header, expand_flatMap_bytes ht, ← hc]
    rfl

theorem faultText_header (width height : UInt16) (body : Bytes) :
    faultText (headerBytes width height ++ body) =
      if body.length % 2 = 1 then "odd trailing byte"
      else if width.toNat * height.toNat < total (Pair.ofWords (Word.list body)) then
        "more pixels than the header announces"
      else if (Word.list body).length % 2 = 1 then "run count without color"
      else "fewer pixels than the header announces" := by
  have length : (headerBytes width height ++ body).length = 4 + body.length := List.length_append
  have short : ¬ (headerBytes width height ++ body).length < 4 := by omega
  have parity : (headerBytes width height ++ body).length % 2 = body.length % 2 := by omega
  unfold faultText bodyPairs
  rw [if_neg short, parity, announced_header, bodyWords_header]

theorem decode_eq_error (b : Bytes) (h : ∀ d, decode b ≠ .ok d) :
    ∃ cause, decode b = .error cause ∧ cause.message = faultText b := by
  by_cases short : b.length < 4
  · exact ⟨.missingHeader, decode_of_short short, by rw [faultText, if_pos short]; rfl⟩
  obtain ⟨width, height, body, rfl⟩ := exists_header short
  simp only [decode_header, expand_eq] at h ⊢
  rw [faultText_header]
  split_ifs at h ⊢ with odd tooMany alone few
  · exact ⟨.oddByte, rfl, rfl⟩
  · exact ⟨.tooManyPixels, rfl, rfl⟩
  · exact ⟨.countWithoutColor, rfl, rfl⟩
  · exact ⟨.tooFewPixels, rfl, rfl⟩
  · exact absurd rfl (h _)

/-- **Which byte strings are streams, what they hold, and why all others are refused.** -/
theorem decode_grammar (b : Bytes) :
    (∀ d, decode b = .ok d ↔ ∃ pairs : List Pair,
      b = Word.bytes d.width ++ Word.bytes d.height ++ pairs.flatMap Pair.bytes ∧
      (pairs.map fun p => p.repeats.toNat + 1).sum = d.width.toNat * d.height.toNat ∧
      d.colors.toList = pairs.flatMap fun p => List.replicate (p.repeats.toNat + 1) p.color) ∧
    ((∀ d, decode b ≠ .ok d) → ∃ cause, decode b = .error cause ∧ cause.message = faultText b) :=
  ⟨decode_eq_ok_iff b, decode_eq_error b⟩

end BitmapAsset.Stream

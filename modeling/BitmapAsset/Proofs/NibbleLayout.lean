import BitmapAsset.NibbleArray
import BitmapAsset.Proofs.Literals

/-! # What a nibble writer writes

What a nibble writer puts in front of the next digit depends only on how many nibbles it has written
(`NibbleLiterals.front`), and so does the text of the nibbles that come next (`NibbleLiterals.text`).
The writer writes this text to any sink behind it (`NibbleLiterals.updateAll_emits`), and completes the
last literal where only half of it is there (`NibbleArray.writeNibbles_writes`).

`Nibble.literals` reads the byte literals of a text in order, two nibbles from each.  From what was
written it reads the nibbles again, and a zero behind an odd number of them
(`NibbleLiterals.literals_text`). -/

namespace BitmapAsset

namespace NibbleLiterals

/-- What stands between two literals, with so many nibbles written. -/
def separator (nibbles : ℕ) : Bytes :=
  if nibbles = 0 then [] else utf8 ", " ++ if nibbles % perLine = 0 then utf8 "\n\t" else []

/-- What stands in front of the next digit: nothing inside a literal. -/
def front (nibbles : ℕ) : Bytes := if nibbles % 2 = 0 then separator nibbles ++ utf8 "0x" else []

/-- The text of nibbles that come behind so many others. -/
def text (nibbles : ℕ) : List UInt8 → Bytes
  | [] => []
  | nibble :: rest => front nibbles ++ digit nibble ++ text (nibbles + 1) rest

/-- The digit that completes half a literal. -/
def padding (nibbles : ℕ) : Bytes := if nibbles % 2 = 1 then utf8 "0" else []

/-! ### The writer -/

variable {W : Type} [Sink W]

theorem onSink_emits {action : Writing W Unit} {bytes : Bytes} (h : Writes action bytes) (n : ℕ) :
    Emits mk (onSink action) n n bytes :=
  .behind h (by
    intro sink
    cases hs : action sink <;> simp only [onSink, hs])

theorem separate_emits_of_even {n : ℕ} (even : n % 2 = 0) :
    Emits (W := W) mk separate n n (separator n ++ utf8 "0x") := by
  have start := onSink_emits (W := W) (.putText "0x") n
  have comma := onSink_emits (W := W) (.putText ", ") n
  unfold separator
  by_cases first : n = 0
  · rw [if_pos first, List.nil_append]
    apply start.of_eq
    intro sink
    show (if n % 2 = 0 then if n ≠ 0 then _ else _ else _ : Writing (NibbleLiterals W) Unit) _ = _
    rw [if_pos even, if_neg (not_not_intro first)]
  · rw [if_neg first]
    by_cases full : n % perLine = 0
    · rw [if_pos full, List.append_assoc]
      apply (comma.seq ((onSink_emits (.putText "\n\t") n).seq start)).of_eq
      intro sink
      show (if n % 2 = 0 then if n ≠ 0 then (do _; if n % perLine = 0 then _ else _) else _ else _ :
        Writing (NibbleLiterals W) Unit) _ = _
      rw [if_pos even, if_pos first, if_pos full]
    · rw [if_neg full, List.append_nil]
      apply (comma.seq start).of_eq
      intro sink
      show (if n % 2 = 0 then if n ≠ 0 then (do _; if n % perLine = 0 then _ else _) else _ else _ :
        Writing (NibbleLiterals W) Unit) _ = _
      rw [if_pos even, if_pos first, if_neg full]

theorem separate_emits (n : ℕ) : Emits (W := W) mk separate n n (front n) := by
  unfold front
  by_cases even : n % 2 = 0
  · rw [if_pos even]
    exact separate_emits_of_even even
  · rw [if_neg even]
    apply (Emits.pure n).of_eq
    intro sink
    show (if n % 2 = 0 then _ else _ : Writing (NibbleLiterals W) Unit) _ = _
    rw [if_neg even]

theorem update_emits (n : ℕ) (nibble : UInt8) :
    Emits (W := W) mk (update nibble) n (n + 1) (front n ++ digit nibble) := by
  have counted : Emits (W := W) mk count n (n + 1) [] := .move fun _ => rfl
  have h := (separate_emits (W := W) n).seq ((onSink_emits (.put (digit nibble)) n).seq counted)
  rwa [List.append_nil] at h

/-- Nibbles are written as their text. -/
theorem updateAll_emits (n : ℕ) (nibbles : List UInt8) :
    Emits (W := W) mk (updateAll nibbles) n (n + nibbles.length) (text n nibbles) := by
  induction nibbles generalizing n with
  | nil => exact .pure n
  | cons nibble rest ih =>
      have h := (update_emits n nibble).seq (ih (n + 1))
      rw [Nat.add_assoc, Nat.add_comm 1] at h
      exact h

theorem finish_emits (n : ℕ) : Emits (W := W) mk finish n n (padding n) := by
  unfold padding
  by_cases odd : n % 2 = 1
  · rw [if_pos odd]
    apply ((onSink_emits (.note (.nibblePadded n)) n).seq (onSink_emits (.putText "0") n)).of_eq
    intro sink
    show (if n % 2 = 1 then _ else _ : Writing (NibbleLiterals W) Unit) _ = _
    rw [if_pos odd]
  · rw [if_neg odd]
    apply (Emits.pure n).of_eq
    intro sink
    show (if n % 2 = 1 then _ else _ : Writing (NibbleLiterals W) Unit) _ = _
    rw [if_neg odd]

end NibbleLiterals

namespace NibbleArray

open NibbleLiterals (text padding)

variable {W : Type} [Sink W]

/-- The text of nibbles, the last literal complete. -/
def body (nibbles : List UInt8) : Bytes := text 0 nibbles ++ padding nibbles.length

theorem writeNibbles_writes (nibbles : List UInt8) :
    Writes (writeNibbles nibbles : Writing W Unit) (body nibbles) := by
  have all := (NibbleLiterals.updateAll_emits (W := W) 0 nibbles).seq (NibbleLiterals.finish_emits _)
  rw [Nat.zero_add] at all
  exact all.writes_around fun _ _ => rfl

/-- An array is its opening, the text of the palette indices column by column, and its closing. -/
theorem write_writes (image : Image) (name : String) (palette : Palette) :
    Writes (write image name palette : Writing W Unit)
      ((opening name image.width image.height).flatMap utf8 ++
        (body (image.columnIndices palette) ++ utf8 closing)) := by
  have front := Writes.forM (W := W) Writes.putText (opening name image.width image.height)
  exact Writes.after_note _ (front.seq ((writeNibbles_writes _).seq (Writes.putText closing)))

end NibbleArray

/-! ### Literals read back -/

namespace Nibble

/-- The two nibbles that a byte literal denotes: 0x, two digits and nothing else. -/
def ofLiteral : Bytes → Option (UInt8 × UInt8)
  | [zero, x, high, low] =>
      if [zero, x] = utf8 "0x" then do
        let high ← Word.digitValue high
        let low ← Word.digitValue low
        some (UInt8.ofNat high, UInt8.ofNat low)
      else none
  | _ => none

/-- The nibbles of the byte literals in a text, in order, the high one of each first. -/
def literals : Bytes → List UInt8
  | zero :: x :: high :: low :: rest =>
      match ofLiteral [zero, x, high, low] with
      | some (a, b) => a :: b :: literals rest
      | none => literals (x :: high :: low :: rest)
  | _ => []

theorem literals_cons_of_ne {zero : UInt8} (h : zero ≠ 48) :
    ∀ text : Bytes, literals (zero :: text) = literals text
  | [] | [_] | [_, _] => rfl
  | x :: high :: low :: rest => by
      have none : ofLiteral [zero, x, high, low] = none := by
        have head : ¬ [zero, x] = utf8 "0x" := fun e => h (List.cons.inj e).1
        rw [ofLiteral, if_neg head]
      rw [literals, none]

theorem literals_append_of_notMem {a : Bytes} (h : 48 ∉ a) (text : Bytes) :
    literals (a ++ text) = literals text :=
  skip_append (fun zero text => literals_cons_of_ne zero text) h text

theorem and_mask_eq {nibble : UInt8} (h : nibble < 16) : nibble &&& 0x0F = nibble := by
  apply UInt8.toNat_inj.mp
  have lt : nibble.toNat < 2 ^ 4 := UInt8.lt_iff_toNat_lt.mp h
  show nibble.toNat &&& 2 ^ 4 - 1 = nibble.toNat
  rw [Nat.and_two_pow_sub_one_eq_mod, Nat.mod_eq_of_lt lt]

end Nibble

namespace NibbleLiterals

open Nibble (literals)

theorem digit_eq {nibble : UInt8} (h : nibble < 16) : digit nibble = [Word.digitByte nibble.toNat] := by
  rw [digit, Nibble.and_mask_eq h]
  rfl

theorem literals_digits {high low : UInt8} (hh : high < 16) (hl : low < 16) (rest : Bytes) :
    literals (utf8 "0x" ++ (digit high ++ (digit low ++ rest))) = high :: low :: literals rest := by
  have vh := Word.digitValue_digitByte (UInt8.lt_iff_toNat_lt.mp hh)
  have vl := Word.digitValue_digitByte (UInt8.lt_iff_toNat_lt.mp hl)
  have zeroX : [48, 120] = utf8 "0x" := rfl
  have both : Nibble.ofLiteral [48, 120, Word.digitByte high.toNat, Word.digitByte low.toNat] =
      some (high, low) := by
    rw [Nibble.ofLiteral, if_pos zeroX, vh, vl]
    show some (UInt8.ofNat _, UInt8.ofNat _) = _
    rw [UInt8.ofNat_toNat, UInt8.ofNat_toNat]
  rw [digit_eq hh, digit_eq hl, ← zeroX]
  show literals (_ :: _ :: _ :: _ :: rest) = _
  rw [literals, both]

theorem zero_notMem_separator (n : ℕ) : 48 ∉ separator n := by
  unfold separator
  split_ifs
  · exact List.not_mem_nil
  · decide
  · decide

theorem literals_front {n : ℕ} (even : n % 2 = 0) (rest : Bytes) :
    literals (front n ++ rest) = literals (utf8 "0x" ++ rest) := by
  rw [front, if_pos even, List.append_assoc, Nibble.literals_append_of_notMem (zero_notMem_separator n)]

theorem front_of_odd {n : ℕ} (even : n % 2 = 0) : front (n + 1) = [] := by
  have odd : ¬ (n + 1) % 2 = 0 := by omega
  rw [front, if_neg odd]

/-- The literals of a text are its nibbles, with a zero behind them if their number is odd. -/
theorem literals_text {n : ℕ} (even : n % 2 = 0) : ∀ nibbles : List UInt8, (∀ a ∈ nibbles, a < 16) →
    literals (text n nibbles ++ padding (n + nibbles.length)) =
      nibbles ++ if nibbles.length % 2 = 1 then [0] else []
  | [], _ => by
      have done : ¬ n % 2 = 1 := by omega
      rw [text, List.length_nil, Nat.add_zero, padding, if_neg done]
      rfl
  | [a], small => by
      have odd : (n + [a].length) % 2 = 1 := by rw [List.length_singleton]; omega
      have zero : utf8 "0" = digit 0 ++ [] := rfl
      rw [text, text, padding, if_pos odd, List.append_nil, List.append_assoc, literals_front even, zero,
        literals_digits (small a List.mem_cons_self) (by decide)]
      rfl
  | a :: b :: rest, small => by
      have ha := small a List.mem_cons_self
      have hb := small b (List.mem_cons_of_mem a List.mem_cons_self)
      have hrest : ∀ c ∈ rest, c < 16 := by
        intro c hc
        exact small c (List.mem_cons_of_mem a (List.mem_cons_of_mem b hc))
      have next : (n + 2) % 2 = 0 := by omega
      have ih := literals_text next rest hrest
      have length : n + (a :: b :: rest).length = n + 2 + rest.length := by
        simp only [List.length_cons]
        omega
      have parity : (a :: b :: rest).length % 2 = rest.length % 2 := by
        simp only [List.length_cons]
        omega
      rw [text, text, front_of_odd even, List.nil_append, length, parity]
      simp only [List.append_assoc]
      rw [literals_front even, literals_digits ha hb, ih]
      rfl

end NibbleLiterals

namespace NibbleArray

/-- The nibbles of an array are read back, with a zero behind them if their number is odd. -/
theorem literals_body {nibbles : List UInt8} (small : ∀ a ∈ nibbles, a < 16) :
    Nibble.literals (body nibbles) = nibbles ++ if nibbles.length % 2 = 1 then [0] else [] := by
  have h := NibbleLiterals.literals_text (n := 0) rfl nibbles small
  rwa [Nat.zero_add] at h

example : Nibble.literals (utf8 "0xcb, 0xa0") = [12, 11, 10, 0] := by decide

end NibbleArray

end BitmapAsset

import BitmapAsset.Proofs.WordLayout
import Mathlib.Tactic.IntervalCases

/-! # Literals read back

`Word.literals` reads the literals of a text in order and skips everything between them.  Separators
have no zero in them, so from a text that was laid out it reads the words again
(`WordLiterals.Layout.literals_text`). -/

namespace BitmapAsset

theorem skip_append {α : Type} {read : Bytes → List α}
    (skip : ∀ {c : UInt8}, c ≠ 48 → ∀ text, read (c :: text) = read text) {a : Bytes} (h : 48 ∉ a)
    (text : Bytes) : read (a ++ text) = read text := by
  induction a with
  | nil => rfl
  | cons c rest ih =>
      rw [List.mem_cons, not_or] at h
      rw [List.cons_append, skip (Ne.symm h.1), ih h.2]

namespace Word

/-- A digit of a word as source text writes it. -/
def digitByte (d : ℕ) : UInt8 := d.digitChar.toNat.toUInt8

/-- The value of a hexadecimal digit in lower case. -/
def digitValue (c : UInt8) : Option ℕ :=
  if 48 ≤ c ∧ c ≤ 57 then some (c.toNat - 48)
  else if 97 ≤ c ∧ c ≤ 102 then some (c.toNat - 87)
  else none

/-- The word that a literal denotes: 0x, four digits and nothing else. -/
def ofLiteral : Bytes → Option UInt16
  | [zero, x, a, b, c, d] =>
      if [zero, x] = utf8 "0x" then do
        let a ← digitValue a
        let b ← digitValue b
        let c ← digitValue c
        let d ← digitValue d
        some (UInt16.ofNat (((a * 16 + b) * 16 + c) * 16 + d))
      else none
  | _ => none

/-- The words of the literals in a text, in order. -/
def literals : Bytes → List UInt16
  | zero :: x :: a :: b :: c :: d :: rest =>
      match ofLiteral [zero, x, a, b, c, d] with
      | some w => w :: literals rest
      | none => literals (x :: a :: b :: c :: d :: rest)
  | _ => []

theorem digitValue_digitByte {d : ℕ} (h : d < 16) : digitValue (digitByte d) = some d := by
  interval_cases d <;> rfl

theorem literal_eq (w : UInt16) : literal w =
    [48, 120, digitByte (w.toNat / 4096), digitByte (w.toNat / 256 % 16), digitByte (w.toNat / 16 % 16),
      digitByte (w.toNat % 16)] := rfl

theorem ofLiteral_literal (w : UInt16) : ofLiteral (literal w) = some w := by
  have hw := w.toNat_lt
  have h1 := digitValue_digitByte (show w.toNat / 4096 < 16 by omega)
  have h2 := digitValue_digitByte (Nat.mod_lt (w.toNat / 256) (by decide : 16 > 0))
  have h3 := digitValue_digitByte (Nat.mod_lt (w.toNat / 16) (by decide : 16 > 0))
  have h4 := digitValue_digitByte (Nat.mod_lt w.toNat (by decide : 16 > 0))
  have value : ((w.toNat / 4096 * 16 + w.toNat / 256 % 16) * 16 + w.toNat / 16 % 16) * 16 + w.toNat % 16 =
      w.toNat := by omega
  have zeroX : [48, 120] = utf8 "0x" := rfl
  rw [literal_eq, ofLiteral, if_pos zeroX, h1, h2, h3, h4]
  show some (UInt16.ofNat _) = _
  rw [value, UInt16.ofNat_toNat]

theorem literals_literal_append (w : UInt16) (rest : Bytes) :
    literals (literal w ++ rest) = w :: literals rest := by
  have h := ofLiteral_literal w
  rw [literal_eq] at h ⊢
  show literals (_ :: _ :: _ :: _ :: _ :: _ :: rest) = _
  rw [literals, h]

theorem ne_digitByte {c : UInt8} (h : digitValue c = none) {d : ℕ} (hd : d < 16) : c ≠ digitByte d := by
  rintro rfl
  rw [digitValue_digitByte hd] at h
  cases h

theorem notMem_literal {c : UInt8} (h : digitValue c = none) (hx : c ≠ 120) (w : UInt16) : c ∉ literal w := by
  have hw := w.toNat_lt
  have first := ne_digitByte h (show w.toNat / 4096 < 16 by omega)
  have other (n : ℕ) : c ≠ digitByte (n % 16) := ne_digitByte h (Nat.mod_lt n (by decide))
  simp only [literal_eq, List.mem_cons, List.not_mem_nil, or_false, not_or]
  exact ⟨ne_digitByte h (show 0 < 16 by decide), hx, first, other _, other _, other _⟩

theorem literals_cons_of_ne {zero : UInt8} (h : zero ≠ 48) : ∀ text : Bytes,
    literals (zero :: text) = literals text
  | [] | [_] | [_, _] | [_, _, _] | [_, _, _, _] => rfl
  | x :: a :: b :: c :: d :: rest => by
      have none : ofLiteral [zero, x, a, b, c, d] = none := by
        have head : ¬ [zero, x] = utf8 "0x" := fun e => h (List.cons.inj e).1
        rw [ofLiteral, if_neg head]
      rw [literals, none]

theorem literals_append_of_notMem {a : Bytes} (h : 48 ∉ a) (text : Bytes) :
    literals (a ++ text) = literals text :=
  skip_append (fun zero text => literals_cons_of_ne zero text) h text

end Word

namespace WordLiterals.Layout

theorem zero_notMem_separator (l : Layout) : 48 ∉ l.separator := by
  unfold separator
  split_ifs
  · exact List.not_mem_nil
  · decide
  · decide

/-- The literals of a text that was laid out are its words. -/
theorem literals_text (l : Layout) (words : List UInt16) : Word.literals (l.text words) = words := by
  induction words generalizing l with
  | nil => rfl
  | cons w rest ih =>
      rw [text, List.append_assoc, Word.literals_append_of_notMem l.zero_notMem_separator,
        Word.literals_literal_append, ih]

example : Word.literals (utf8 "0x0002, 0x0000, \n\t0xc986") = [2, 0, 0xc986] := by decide

end WordLiterals.Layout

end BitmapAsset

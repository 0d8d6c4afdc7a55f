import BitmapAsset.Proofs.UniqueText

/-! # Arrays of packed bytes

An array of nibbles is an array of bytes, two palette indices in each (`Nibble.packed`), and its text can be
told from the bytes: every byte is one literal, and what stands behind a literal depends on its place only
(`NibbleArray.gap`, `NibbleArray.page`).

The writer does not know the bytes.  It puts the separator in front of a literal, and writes half a literal where
half a byte is known.  So the text of nibbles that come behind whole bytes is first told with the separators in
front (`NibbleLiterals.text_packed`), by induction on pairs of nibbles; then every separator is
counted with the literal that it follows (`flatten_mapIdx_shift`).

Main statement: `NibbleArray.collect_write_packed`. -/

namespace BitmapAsset

open BoundedSink (collect)

theorem flatten_mapIdx_shift {α β : Type} (sep : ℕ → List β) (text : α → List β) (l : List α) :
    (l.mapIdx fun i a => sep i ++ text a).flatten ++ sep l.length =
      sep 0 ++ (l.mapIdx fun i a => text a ++ sep (i + 1)).flatten := by
  induction l generalizing sep with
  | nil => simp
  | cons a l ih =>
      have rest := ih fun i => sep (i + 1)
      simp only [List.mapIdx_cons, List.flatten_cons, List.length_cons, List.append_assoc, rest]

/-! ### Bytes -/

namespace Nibble

/-- Two nibbles in each byte, the first as the high one; a zero is the partner of a last one without. -/
def packed : List UInt8 → List UInt8
  | [] => []
  | [high] => [16 * high]
  | high :: low :: rest => (16 * high + low) :: packed rest

example : packed [12, 11, 10] = [0xcb, 0xa0] := by decide

/-- A byte as source text writes it: 0x and two hexadecimal digits. -/
def byteLiteral (byte : UInt8) : Bytes :=
  utf8 "0x" ++ [Word.digitByte (byte.toNat / 16), Word.digitByte (byte.toNat % 16)]

theorem byteLiteral_pair {high low : UInt8} (hh : high < 16) (hl : low < 16) :
    byteLiteral (16 * high + low) = utf8 "0x" ++ (NibbleLiterals.digit high ++ NibbleLiterals.digit low) := by
  have high_lt : high.toNat < 16 := UInt8.lt_iff_toNat_lt.mp hh
  have low_lt : low.toNat < 16 := UInt8.lt_iff_toNat_lt.mp hl
  have value : (16 * high + low).toNat = 16 * high.toNat + low.toNat := by
    rw [UInt8.toNat_add, UInt8.toNat_mul]
    show (16 * high.toNat % 256 + low.toNat) % 256 = _
    omega
  have first : (16 * high.toNat + low.toNat) / 16 = high.toNat := by omega
  have second : (16 * high.toNat + low.toNat) % 16 = low.toNat := by omega
  rw [byteLiteral, value, first, second, NibbleLiterals.digit_eq hh, NibbleLiterals.digit_eq hl]
  rfl

end Nibble

open Nibble (packed byteLiteral)

/-! ### Separators in front -/

namespace NibbleLiterals

/-- Nibbles behind `k` whole bytes are written as their bytes, each with its separator in front. -/
theorem text_packed {nibbles : List UInt8} (small : ∀ a ∈ nibbles, a < 16) (k : ℕ) :
    text (2 * k) nibbles ++ padding (2 * k + nibbles.length) =
      ((packed nibbles).mapIdx fun i byte => separator (2 * (k + i)) ++ byteLiteral byte).flatten := by
  induction nibbles using Nibble.packed.induct generalizing k with
  | case1 =>
      simp [text, packed, padding]
  | case2 high =>
      have odd : (2 * k + [high].length) % 2 = 1 := by
        rw [List.length_singleton]
        omega
      have hh := small high List.mem_cons_self
      have zero : utf8 "0" = digit 0 := rfl
      have whole : 16 * high = 16 * high + 0 := by rw [UInt8.add_zero]
      rw [packed, whole, List.mapIdx_singleton, List.flatten_singleton, Nibble.byteLiteral_pair hh (by decide),
        padding, if_pos odd, zero, text, text, front, if_pos (by omega : 2 * k % 2 = 0)]
      simp only [List.append_assoc, List.nil_append, Nat.add_zero]
  | case3 high low rest ih =>
      obtain ⟨hh, others⟩ := List.forall_mem_cons.mp small
      obtain ⟨hl, others⟩ := List.forall_mem_cons.mp others
      have even : 2 * k % 2 = 0 := by omega
      have next := ih others (k + 1)
      have count : 2 * k + (high :: low :: rest).length = 2 * (k + 1) + rest.length := by
        simp only [List.length_cons]
        omega
      rw [packed, List.mapIdx_cons, List.flatten_cons, Nibble.byteLiteral_pair hh hl, count, text, text,
        front_of_odd even, front, if_pos even]
      simp only [List.append_assoc, List.nil_append, Nat.add_zero, Nat.add_assoc, Nat.add_comm 1] at next ⊢
      rw [← next]
      rfl

end NibbleLiterals

/-! ### Separators behind -/

namespace NibbleArray

/-- What stands behind the first `n` of so many literals: nothing in front of all or behind all of them, else a
comma and a blank, and behind every twelfth literal also a line break and a tabulator. -/
def gap (count n : ℕ) : Bytes :=
  if n = 0 ∨ n = count then [] else utf8 ", " ++ if n % 12 = 0 then utf8 "\n\t" else []

/-- The text of bytes. -/
def page (bytes : List UInt8) : Bytes :=
  (bytes.mapIdx fun place byte => byteLiteral byte ++ gap bytes.length (place + 1)).flatten

example : page (List.replicate 13 0x11) = utf8 ("0x11, 0x11, 0x11, 0x11, 0x11, 0x11, 0x11, 0x11, " ++
    "0x11, 0x11, 0x11, 0x11, \n\t0x11") := by decide

theorem gap_eq_separator {count n : ℕ} (more : n ≠ count) : gap count n = NibbleLiterals.separator (2 * n) := by
  have twelve : 2 * n % NibbleLiterals.perLine = 0 ↔ n % 12 = 0 := by
    show 2 * n % 24 = 0 ↔ _
    omega
  have first : 2 * n = 0 ↔ n = 0 := by omega
  simp only [gap, NibbleLiterals.separator, more, or_false, twelve, first]

/-- The body of an array is the text of its bytes. -/
theorem body_eq_page {nibbles : List UInt8} (small : ∀ a ∈ nibbles, a < 16) :
    body nibbles = page (packed nibbles) := by
  have front := NibbleLiterals.text_packed small 0
  rw [Nat.mul_zero, Nat.zero_add] at front
  have gaps : ((packed nibbles).mapIdx fun i byte => NibbleLiterals.separator (2 * (0 + i)) ++ byteLiteral byte) =
      (packed nibbles).mapIdx fun i byte => gap (packed nibbles).length i ++ byteLiteral byte := by
    refine List.mapIdx_eq_mapIdx_iff.mpr ?_
    intro i inside
    rw [gap_eq_separator (Nat.ne_of_lt inside), Nat.zero_add]
  have shift := flatten_mapIdx_shift (gap (packed nibbles).length) byteLiteral (packed nibbles)
  have first : gap (packed nibbles).length 0 = [] := if_pos (Or.inl rfl)
  have last : gap (packed nibbles).length (packed nibbles).length = [] := if_pos (Or.inr rfl)
  rw [first, last, List.append_nil, List.nil_append] at shift
  rw [body, front, gaps, shift, page]

/-- **An array of nibbles is its declaration, the bytes that hold the palette indices column by column, and its
closing.**  The nibbles that the writer gets are these indices; none of them reaches 16, so the mask of the writer
changes none. -/
theorem collect_write_packed (image : Image) (name : String) (palette : Palette) :
    image.columnIndices palette = image.topDown.map palette.index ∧
    (∀ index ∈ image.topDown.map palette.index, index < 16 ∧ index &&& 0x0F = index) ∧
    collect (write image name palette) =
      .ok (utf8 "extern const uint8_t " ++ utf8 name ++ utf8 "[] =\n\x7b\t" ++ decimal image.width ++ utf8 ", " ++
        decimal image.height ++ utf8 ",\t// width, height\n\t" ++ page (packed (image.topDown.map palette.index)) ++
        utf8 "\n\x7d;\n") := by
  have walk : image.columnIndices palette = image.topDown.map palette.index := by
    rw [Image.columnIndices_eq, Image.columnColors_eq_topDown]
  have small := image.columnIndices_lt palette
  rw [walk] at small
  refine ⟨walk, fun index mem => ⟨small index mem, Nibble.and_mask_eq (small index mem)⟩, ?_⟩
  have bracket : utf8 "[] =\n\x7b\t" = utf8 "[] =\n" ++ utf8 "\x7b\t" := rfl
  rw [(write_writes image name palette).collect_eq, walk, body_eq_page small, bracket]
  simp only [opening, closing, decimal, List.flatMap_cons, List.flatMap_nil, List.append_assoc, List.nil_append]

end NibbleArray

end BitmapAsset

import BitmapAsset.ArrayName
import BitmapAsset.Proofs.LossyText

/-! # Names from any bytes

The names of arrays are made from the text of a file name, where bytes that are not UTF-8 have become replacement
characters.  They might as well be made from the bytes: an ending is taken off the text exactly if the bytes have it
(`dropEnding_lossyChars`), and the characters of an identifier are ASCII bytes (`filter_isIdentifierChar`).
`names_of_bytes` puts this together for every path. -/

namespace BitmapAsset

/-! ### ASCII text -/

theorem ascii_of_all {bytes : Bytes} (h : bytes.all (· < 0x80) = true) : ∀ b ∈ bytes, b < 0x80 := by
  simpa using h

theorem utf8_map_asciiChar {bytes : Bytes} (ascii : ∀ b ∈ bytes, b < 0x80) :
    utf8 (String.ofList (bytes.map asciiChar)) = bytes := by
  have encode : ∀ b ∈ bytes, String.utf8EncodeChar (asciiChar b) = [b] := by
    intro b mem
    have small : b.toNat < 0x80 := UInt8.lt_iff_toNat_lt.mp (ascii b mem)
    have value : (asciiChar b).val.toNat = b.toNat := toNat_asciiChar b
    rw [String.utf8EncodeChar.eq_1, if_pos (by omega), value, UInt8.ofNat_toNat]
  rw [utf8_ofList, List.flatMap_map, List.flatMap_congr encode]
  exact List.flatMap_singleton' bytes

theorem map_asciiChar_utf8 {text : String} (ascii : ∀ b ∈ utf8 text, b < 0x80) :
    (utf8 text).map asciiChar = text.toList := by
  have same : String.ofList ((utf8 text).map asciiChar) = text := utf8_inj.mp (utf8_map_asciiChar ascii)
  rw [← same, String.toList_ofList, same]

/-! ### Identifiers -/

/-- Whether an identifier may hold a byte: an ASCII letter or digit, or the underscore. -/
def isIdentifierByte (b : UInt8) : Bool :=
  0x41 ≤ b && b ≤ 0x5A || 0x61 ≤ b && b ≤ 0x7A || 0x30 ≤ b && b ≤ 0x39 || b == 0x5F

/-- The values of the characters that an identifier may hold. -/
def IsIdentifier (n : ℕ) : Prop :=
  0x41 ≤ n ∧ n ≤ 0x5A ∨ 0x61 ≤ n ∧ n ≤ 0x7A ∨ 0x30 ≤ n ∧ n ≤ 0x39 ∨ n = 0x5F

theorem isIdentifierChar_iff (c : Char) : isIdentifierChar c = true ↔ IsIdentifier c.toNat := by
  have spelled : isIdentifierChar c =
      (decide (0x41 ≤ c.val ∧ c.val ≤ 0x5A) || (0x61 ≤ c.val && c.val ≤ 0x7A) || (0x30 ≤ c.val && c.val ≤ 0x39) ||
        c == '_') := rfl
  have underscore : c = '_' ↔ c.toNat = 0x5F := Char.toNat_inj.symm
  simp only [spelled, Bool.or_eq_true, Bool.and_eq_true, decide_eq_true_eq, beq_iff_eq, UInt32.le_iff_toNat_le,
    underscore, or_assoc]
  rfl

theorem isIdentifierByte_iff (b : UInt8) : isIdentifierByte b = true ↔ IsIdentifier b.toNat := by
  simp only [isIdentifierByte, IsIdentifier, Bool.or_eq_true, Bool.and_eq_true, decide_eq_true_eq, beq_iff_eq,
    UInt8.le_iff_toNat_le, ← UInt8.toNat_inj, UInt8.reduceToNat, or_assoc]

theorem filter_isIdentifierChar (bytes : Bytes) :
    (lossyChars bytes).filter isIdentifierChar = (bytes.filter isIdentifierByte).map asciiChar := by
  have ascii : ∀ c, isIdentifierChar c = true → c.toNat < 0x80 := by
    intro c yes
    have range := (isIdentifierChar_iff c).mp yes
    unfold IsIdentifier at range
    omega
  rw [lossyChars, filter_lossyFrom ascii soundState_none]
  congr 2
  funext b
  rw [Bool.eq_iff_iff, isIdentifierByte_iff, Bool.and_eq_true, isIdentifierChar_iff, toNat_asciiChar]
  simp only [decide_eq_true_eq, UInt8.lt_iff_toNat_lt, UInt8.reduceToNat, IsIdentifier]
  omega

/-! ### Endings -/

/-- Bytes without the given ending, if they have it. -/
def without (ending : String) (bytes : Bytes) : Bytes := (bytes.dropSuffix? (utf8 ending)).getD bytes

theorem without_of_suffix {ending : String} {front : Bytes} : without ending (front ++ utf8 ending) = front := by
  have dropped : (front ++ utf8 ending).dropSuffix? (utf8 ending) = some front :=
    List.dropSuffix?_eq_some_iff.mpr ⟨utf8 ending, rfl, BEq.rfl⟩
  rw [without, dropped, Option.getD_some]

theorem without_of_not_suffix {ending : String} {bytes : Bytes} (h : ¬ utf8 ending <:+ bytes) :
    without ending bytes = bytes := by
  have kept : bytes.dropSuffix? (utf8 ending) = none := by
    refine Option.eq_none_iff_forall_ne_some.mpr fun front dropped => h ?_
    obtain ⟨rest, rfl, same⟩ := List.dropSuffix?_eq_some_iff.mp dropped
    exact ⟨front, by rw [eq_of_beq same]⟩
  rw [without, kept, Option.getD_none]

/-- An ending may be taken off the text or off the bytes. -/
theorem dropEnding_lossyChars {ending : String} (ascii : ∀ b ∈ utf8 ending, b < 0x80) (bytes : Bytes) :
    dropEnding ending.toList (lossyChars bytes) = lossyChars (without ending bytes) := by
  have same : ending.toList <:+ lossyChars bytes ↔ utf8 ending <:+ bytes := by
    rw [← map_asciiChar_utf8 ascii]
    exact map_asciiChar_suffix_iff ascii bytes
  by_cases suffix : utf8 ending <:+ bytes
  · obtain ⟨front, rfl⟩ := suffix
    have read : lossyChars (front ++ utf8 ending) = lossyChars front ++ ending.toList := by
      rw [lossyChars_append_ascii front ascii, map_asciiChar_utf8 ascii]
    rw [without_of_suffix, read, dropEnding, if_pos (List.isSuffixOf_iff_suffix.mpr (List.suffix_append _ _))]
    simp
  · rw [without_of_not_suffix suffix, dropEnding, if_neg (mt List.isSuffixOf_iff_suffix.mp (mt same.mp suffix))]

/-! ### Names -/

theorem variableName_eq (p : Path) :
    variableName p = lossyText (without "_30h.bmp" (without "_21h.bmp" (p.fileName?.getD []))) := by
  have first : ∀ b ∈ utf8 "_21h.bmp", b < 0x80 := ascii_of_all (by decide)
  have second : ∀ b ∈ utf8 "_30h.bmp", b < 0x80 := ascii_of_all (by decide)
  simp only [variableName, heightEndings, List.foldl_cons, List.foldl_nil]
  rw [dropEnding_lossyChars first, dropEnding_lossyChars second, lossyText]

theorem utf8_identifier (p : Path) : utf8 (identifier p) = (p.fileStem?.getD []).filter isIdentifierByte := by
  rw [identifier, filter_isIdentifierChar]
  refine utf8_map_asciiChar fun b mem => ?_
  have range := (isIdentifierByte_iff b).mp (List.mem_filter.mp mem).2
  have small : b.toNat < 0x80 := by
    unfold IsIdentifier at range
    omega
  exact UInt8.lt_iff_toNat_lt.mpr small

/-- **The names of arrays are made of the bytes of the file name.**  Reading these as text, valid UTF-8 or not, neither
takes nor adds ASCII characters, and leaves ASCII endings as they are; valid text is read as it is. -/
theorem names_of_bytes (p : Path) :
    (match p.fileName?, p.fileStem? with
      | some name, some stem =>
          variableName p = lossyText (without "_30h.bmp" (without "_21h.bmp" name)) ∧
            utf8 (identifier p) = stem.filter isIdentifierByte
      | none, none => variableName p = "" ∧ identifier p = ""
      | _, _ => False) ∧
    (∀ bytes : Bytes, (lossyText bytes).toList.filter (·.toNat < 0x80) = (bytes.filter (· < 0x80)).map asciiChar) ∧
    (∀ (ending : String) (bytes : Bytes), (∀ b ∈ utf8 ending, b < 0x80) →
      (ending.toList <:+ (lossyText bytes).toList ↔ utf8 ending <:+ bytes)) ∧
    ∀ text : String, lossyText (utf8 text) = text := by
  refine ⟨?_, ?_, ?_, lossyText_utf8⟩
  · have variableName := variableName_eq p
    have identifier := utf8_identifier p
    cases name : p.fileName? with
    | none =>
        rw [name] at variableName
        rw [Path.fileStem?, name] at identifier ⊢
        exact ⟨variableName, utf8_inj.mp identifier⟩
    | some name' =>
        rw [name] at variableName
        rw [Path.fileStem?, name] at identifier ⊢
        exact ⟨variableName, identifier⟩
  · intro bytes
    rw [lossyText, String.toList_ofList, lossyChars, filter_lossyFrom (by simp) soundState_none]
    congr 2
    funext b
    simp [toNat_asciiChar, UInt8.lt_iff_toNat_lt]
  · intro ending bytes ascii
    rw [lossyText, String.toList_ofList, ← map_asciiChar_utf8 ascii]
    exact map_asciiChar_suffix_iff ascii bytes

/-- A path with a character that breaks off in front of the endings. -/
def brokenPath : Path := utf8 "icons/a" ++ [0xE2, 0x96] ++ utf8 "_30h.bmp_21h.bmp"

theorem names_of_bytes_broken :
    variableName brokenPath = "a\uFFFD" ∧ identifier brokenPath = "a_30hbmp_21h" ∧
      "_21h.bmp".toList <:+ (lossyText brokenPath).toList := by
  obtain ⟨names, -, suffix, -⟩ := names_of_bytes brokenPath
  have ascii : ∀ b ∈ utf8 "_21h.bmp", b < 0x80 := ascii_of_all (by decide)
  have ending : utf8 "_21h.bmp" <:+ brokenPath := by decide
  refine ⟨names.1.trans ?_, utf8_inj.mp (names.2.trans ?_), (suffix _ _ ascii).mpr ending⟩ <;> decide

end BitmapAsset

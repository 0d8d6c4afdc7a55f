import BitmapAsset.LossyText
import Mathlib.Algebra.Ring.Nat
import Mathlib.Data.List.Infix
import Mathlib.Tactic.SplitIfs

/-! # Reading any bytes as text

What `lossyChars` does with a byte depends on the bytes in front of it, but not for an ASCII byte: it is always read as
itself, behind the replacement character if another character was unfinished (`readByte_of_ascii`).  A byte outside
ASCII never yields an ASCII character (`foreign_readByte`).  Both rest on bounds that the reader keeps: no byte that an
unfinished character takes is ASCII, and it comes to a character outside ASCII (`Unfinished.Sound`).

So the ASCII characters of a text are those of its bytes, in their order (`filter_lossyFrom`), and a text ends like its
bytes do (`map_asciiChar_suffix_iff`).  Bytes that are UTF-8 are read as the text they are (`lossyText_utf8`). -/

namespace BitmapAsset

theorem toNat_ofNat_of_valid {n : ℕ} (valid : n.isValidChar) : (Char.ofNat n).toNat = n := by
  rw [Char.ofNat, dif_pos valid]
  rfl

/-! ### Unfinished characters -/

namespace Unfinished

/-- The least value that the character can come to, -/
def low (u : Unfinished) : ℕ := (u.value * 64 + (u.least.toNat - 0x80)) * 64 ^ (u.owed - 1)

/-- and the first one behind the last. -/
def beyond (u : Unfinished) : ℕ := (u.value * 64 + (u.most.toNat - 0x80) + 1) * 64 ^ (u.owed - 1)

/-- No byte that fits is ASCII, and neither is what the character can come to.  No value is a surrogate: such a value is
no character, and would be read as the first of ASCII. -/
structure Sound (u : Unfinished) : Prop where
  owed : 1 ≤ u.owed
  least : 0x80 ≤ u.least.toNat
  most : u.most.toNat ≤ 0xBF
  low : 0x80 ≤ u.low
  scalar : u.beyond ≤ 0xD800 ∨ 0xE000 ≤ u.low ∧ u.beyond ≤ 0x110000

theorem sound_of_first {b : UInt8} {u : Unfinished} (h : ofFirst? b = some u) : u.Sound := by
  unfold ofFirst? at h
  have value := b.toNat_lt
  simp only [UInt8.lt_iff_toNat_lt, UInt8.le_iff_toNat_le, ← UInt8.toNat_inj, UInt8.reduceToNat] at h
  split_ifs at h <;> obtain rfl := Option.some.inj h <;>
    constructor <;> simp only [Unfinished.low, Unfinished.beyond, UInt8.reduceToNat] <;> omega

variable {u : Unfinished} {b : UInt8}

theorem Sound.extend (h : u.Sound) (fits : u.least ≤ b ∧ b ≤ u.most) :
    u.value * 64 + (u.least.toNat - 0x80) ≤ u.extend b ∧ u.extend b ≤ u.value * 64 + (u.most.toNat - 0x80) := by
  have least := UInt8.le_iff_toNat_le.mp fits.1
  have most := UInt8.le_iff_toNat_le.mp fits.2
  have tail := h.least
  have tail' := h.most
  unfold Unfinished.extend
  omega

theorem Sound.next (h : u.Sound) (fits : u.least ≤ b ∧ b ≤ u.most) (more : 1 < u.owed) :
    Sound ⟨u.owed - 1, 0x80, 0xBF, u.extend b⟩ := by
  obtain ⟨least, most⟩ := h.extend fits
  have shift : 64 ^ (u.owed - 1) = 64 * 64 ^ (u.owed - 1 - 1) := by
    rw [← Nat.pow_succ']
    congr 1
    omega
  have low : u.low ≤ Unfinished.low ⟨u.owed - 1, 0x80, 0xBF, u.extend b⟩ := by
    have tail : Unfinished.low ⟨u.owed - 1, 0x80, 0xBF, u.extend b⟩ = u.extend b * 64 ^ (u.owed - 1) := by
      simp only [Unfinished.low, UInt8.reduceToNat, Nat.sub_self, Nat.add_zero, shift, Nat.mul_assoc]
    rw [tail]
    exact Nat.mul_le_mul_right _ least
  have beyond : Unfinished.beyond ⟨u.owed - 1, 0x80, 0xBF, u.extend b⟩ ≤ u.beyond := by
    have tail : Unfinished.beyond ⟨u.owed - 1, 0x80, 0xBF, u.extend b⟩ = (u.extend b + 1) * 64 ^ (u.owed - 1) := by
      have sum : u.extend b * 64 + (0xBF - 0x80) + 1 = (u.extend b + 1) * 64 := by omega
      simp only [Unfinished.beyond, UInt8.reduceToNat, sum, shift, Nat.mul_assoc]
    rw [tail]
    exact Nat.mul_le_mul_right _ (Nat.succ_le_succ most)
  refine ⟨Nat.le_sub_one_of_lt more, Nat.le_refl _, Nat.le_refl _, h.low.trans low, ?_⟩
  exact h.scalar.imp beyond.trans fun apart => ⟨apart.1.trans low, beyond.trans apart.2⟩

theorem Sound.last (h : u.Sound) (fits : u.least ≤ b ∧ b ≤ u.most) (last : u.owed ≤ 1) :
    0x80 ≤ (Char.ofNat (u.extend b)).toNat := by
  obtain ⟨least, most⟩ := h.extend fits
  have owed : u.owed = 1 := Nat.le_antisymm last h.owed
  have low := h.low
  have scalar := h.scalar
  simp only [Unfinished.low, Unfinished.beyond, owed, Nat.sub_self, pow_zero, Nat.mul_one] at low scalar
  have valid : (u.extend b).isValidChar := by
    unfold Nat.isValidChar
    omega
  rw [toNat_ofNat_of_valid valid]
  exact low.trans least

end Unfinished

/-! ### One byte -/

/-- The character of an ASCII byte. -/
def asciiChar (b : UInt8) : Char := Char.ofNat b.toNat

theorem toNat_asciiChar (b : UInt8) : (asciiChar b).toNat = b.toNat := by
  have small := b.toNat_lt
  have valid : b.toNat.isValidChar := Or.inl (by omega)
  exact toNat_ofNat_of_valid valid

theorem asciiChar_injective : Function.Injective asciiChar := by
  intro a b same
  have value := congrArg Char.toNat same
  rw [toNat_asciiChar, toNat_asciiChar] at value
  exact UInt8.toNat_inj.mp value

variable {state : Option Unfinished} {b : UInt8} {bytes : Bytes}

/-- The character that a state is inside of, if any, is a sound one. -/
def SoundState (state : Option Unfinished) : Prop := ∀ u ∈ state, u.Sound

theorem soundState_none : SoundState none := by simp [SoundState]

/-- An ASCII byte is itself, behind what was broken off. -/
theorem readByte_of_ascii (sound : SoundState state) (ascii : b < 0x80) :
    readByte state b = (lossyFrom state [] ++ [asciiChar b], none) := by
  cases state with
  | none => simp [readByte, readFirst, ascii, lossyFrom, asciiChar]
  | some u =>
      have least := (sound u rfl).least
      have misfit : ¬ (u.least ≤ b ∧ b ≤ u.most) := by
        have small : b.toNat < 0x80 := UInt8.lt_iff_toNat_lt.mp ascii
        rw [UInt8.le_iff_toNat_le]
        omega
      simp [readByte, misfit, readFirst, ascii, lossyFrom, asciiChar]

/-- What a byte outside ASCII leads to: characters outside ASCII, a sound state, and not nothing at all. -/
structure Foreign (read : List Char × Option Unfinished) : Prop where
  sound : SoundState read.2
  chars : ∀ c ∈ read.1, 0x80 ≤ c.toNat
  progress : read.1 ≠ [] ∨ read.2 ≠ none

theorem Foreign.unfinished {u : Unfinished} (h : u.Sound) : Foreign ([], some u) := by
  refine ⟨?_, by simp, Or.inr (by simp)⟩
  rintro _ ⟨⟩
  exact h

theorem Foreign.single {c : Char} (h : 0x80 ≤ c.toNat) : Foreign ([c], none) :=
  ⟨soundState_none, by simpa using h, Or.inl (by simp)⟩

theorem foreign_readFirst (other : ¬ b < 0x80) : Foreign (readFirst b) := by
  cases first : Unfinished.ofFirst? b with
  | some u =>
      have read : readFirst b = ([], some u) := by simp [readFirst, other, first]
      rw [read]
      exact Foreign.unfinished (Unfinished.sound_of_first first)
  | none =>
      have read : readFirst b = ([replacementChar], none) := by simp [readFirst, other, first]
      rw [read]
      exact Foreign.single (by decide)

/-- A byte outside ASCII never yields an ASCII character. -/
theorem foreign_readByte (sound : SoundState state) (other : ¬ b < 0x80) : Foreign (readByte state b) := by
  cases state with
  | none => exact foreign_readFirst other
  | some u =>
      by_cases fits : u.least ≤ b ∧ b ≤ u.most
      · by_cases last : u.owed ≤ 1
        · have read : readByte (some u) b = ([Char.ofNat (u.extend b)], none) := by simp [readByte, fits, last]
          rw [read]
          exact Foreign.single ((sound u rfl).last fits last)
        · have read : readByte (some u) b = ([], some ⟨u.owed - 1, 0x80, 0xBF, u.extend b⟩) := by
            simp [readByte, fits, last]
          rw [read]
          exact Foreign.unfinished ((sound u rfl).next fits (by omega))
      · have read : readByte (some u) b = (replacementChar :: (readFirst b).1, (readFirst b).2) := by
          simp [readByte, fits]
        have first := foreign_readFirst other
        rw [read]
        refine ⟨first.sound, ?_, Or.inl (by simp)⟩
        intro c mem
        rcases List.mem_cons.mp mem with rfl | mem
        · decide
        · exact first.chars c mem

theorem SoundState.next (sound : SoundState state) (b : UInt8) : SoundState (readByte state b).2 := by
  by_cases ascii : b < 0x80
  · rw [readByte_of_ascii sound ascii]
    exact soundState_none
  · exact (foreign_readByte sound ascii).sound

/-! ### Byte strings -/

theorem lossyFrom_cons :
    lossyFrom state (b :: bytes) = (readByte state b).1 ++ lossyFrom (readByte state b).2 bytes := by
  cases state <;> rfl

theorem foreign_lossyFrom_nil (state : Option Unfinished) : ∀ c ∈ lossyFrom state [], 0x80 ≤ c.toNat := by
  cases state with
  | none => simp [lossyFrom]
  | some u => simp only [lossyFrom, List.mem_singleton, forall_eq]; decide

/-- The text falls apart at every ASCII byte. -/
theorem lossyFrom_append_cons (sound : SoundState state) (ascii : b < 0x80) (front rest : Bytes) :
    lossyFrom state (front ++ b :: rest) = lossyFrom state front ++ asciiChar b :: lossyChars rest := by
  induction front generalizing state with
  | nil =>
      rw [List.nil_append, lossyFrom_cons, readByte_of_ascii sound ascii, List.append_assoc]
      rfl
  | cons a front ih => rw [List.cons_append, lossyFrom_cons, ih (sound.next a), lossyFrom_cons, List.append_assoc]

theorem lossyChars_append_ascii (front : Bytes) {ending : Bytes} (ascii : ∀ b ∈ ending, b < 0x80) :
    lossyChars (front ++ ending) = lossyChars front ++ ending.map asciiChar := by
  induction ending generalizing front with
  | nil => simp
  | cons b ending ih =>
      obtain ⟨first, others⟩ := List.forall_mem_cons.mp ascii
      have rest : lossyChars ending = ending.map asciiChar := ih [] others
      rw [lossyChars, lossyFrom_append_cons soundState_none first, rest]
      rfl

theorem exists_last_foreign (sound : SoundState state) (other : ¬ b < 0x80) (front : Bytes) :
    ∃ chars last, lossyFrom state (front ++ [b]) = chars ++ [last] ∧ 0x80 ≤ last.toNat := by
  induction front generalizing state with
  | nil =>
      have read := foreign_readByte sound other
      rw [List.nil_append, lossyFrom_cons]
      cases next : (readByte state b).2 with
      | some u => exact ⟨(readByte state b).1, replacementChar, rfl, by decide⟩
      | none =>
          have nonempty := read.progress.resolve_right (not_not_intro next)
          obtain ⟨chars, last, eq⟩ := (List.eq_nil_or_concat' _).resolve_left nonempty
          refine ⟨chars, last, by simp [eq, lossyFrom], read.chars last ?_⟩
          simp [eq]
  | cons a front ih =>
      obtain ⟨chars, last, eq, foreign⟩ := ih (sound.next a)
      refine ⟨(readByte state a).1 ++ chars, last, ?_, foreign⟩
      rw [List.cons_append, lossyFrom_cons, eq, List.append_assoc]

/-- ASCII characters are those of the ASCII bytes. -/
theorem filter_lossyFrom {p : Char → Bool} (ascii : ∀ c, p c = true → c.toNat < 0x80) (sound : SoundState state)
    (bytes : Bytes) :
    (lossyFrom state bytes).filter p = (bytes.filter fun b => b < 0x80 && p (asciiChar b)).map asciiChar := by
  have foreign : ∀ chars : List Char, (∀ c ∈ chars, 0x80 ≤ c.toNat) → chars.filter p = [] := by
    intro chars above
    refine List.filter_eq_nil_iff.mpr fun c mem yes => ?_
    exact absurd (ascii c yes) (Nat.not_lt.mpr (above c mem))
  induction bytes generalizing state with
  | nil => exact foreign _ (foreign_lossyFrom_nil state)
  | cons b bytes ih =>
      rw [lossyFrom_cons, List.filter_append, ih (sound.next b)]
      by_cases small : b < 0x80
      · rw [readByte_of_ascii sound small, List.filter_append, foreign _ (foreign_lossyFrom_nil state), List.nil_append]
        by_cases yes : p (asciiChar b) = true <;> simp [small, yes]
      · rw [foreign _ (foreign_readByte sound small).chars]
        simp [small]

theorem concat_suffix_concat {α : Type} {front back : List α} {a b : α} :
    front ++ [a] <:+ back ++ [b] ↔ front <:+ back ∧ a = b := by
  rw [List.suffix_concat_iff]
  constructor
  · rintro (empty | ⟨rest, same, suffix⟩)
    · simp at empty
    · obtain ⟨rfl, last⟩ := List.append_inj' same rfl
      exact ⟨suffix, List.head_eq_of_cons_eq last⟩
  · rintro ⟨suffix, rfl⟩
    exact Or.inr ⟨front, rfl, suffix⟩

/-- An ASCII ending of the text is an ending of the bytes. -/
theorem map_asciiChar_suffix_iff {ending : Bytes} (ascii : ∀ b ∈ ending, b < 0x80) (bytes : Bytes) :
    ending.map asciiChar <:+ lossyChars bytes ↔ ending <:+ bytes := by
  constructor
  · intro suffix
    -- From the end: the last byte must be ASCII, for another would leave a character outside ASCII at the end.
    induction ending using List.reverseRecOn generalizing bytes with
    | nil => exact List.nil_suffix
    | append_singleton ending b ih =>
        obtain ⟨others, last⟩ := List.forall_mem_append.mp ascii
        have last : b < 0x80 := last b List.mem_cons_self
        rw [List.map_append, List.map_singleton] at suffix
        obtain rfl | ⟨front, a, rfl⟩ := List.eq_nil_or_concat' bytes
        · exact absurd (List.suffix_nil.mp suffix) (by simp)
        · by_cases small : a < 0x80
          · rw [lossyChars, lossyFrom_append_cons soundState_none small front []] at suffix
            obtain ⟨suffix, same⟩ := concat_suffix_concat.mp suffix
            exact concat_suffix_concat.mpr ⟨ih others front suffix, asciiChar_injective same⟩
          · obtain ⟨chars, c, eq, foreign⟩ := exists_last_foreign soundState_none small front
            rw [lossyChars, eq] at suffix
            rw [← (concat_suffix_concat.mp suffix).2, toNat_asciiChar] at foreign
            exact absurd (UInt8.lt_iff_toNat_lt.mp last) (Nat.not_lt.mpr foreign)
  · rintro ⟨front, rfl⟩
    rw [lossyChars_append_ascii front ascii]
    exact List.suffix_append _ _

/-! ### Valid text -/

/-- The first byte of a character, with the bits `q` of the value, announces the second, with the next six bits `s`. -/
theorem Unfinished.exists_ofFirst (owed lead q s : ℕ) (small : s < 64)
    (h : owed = 1 ∧ lead = q + 0xC0 ∧ 2 ≤ q ∧ q < 32 ∨
      owed = 2 ∧ lead = q + 0xE0 ∧ q < 16 ∧ (q = 0 → 32 ≤ s) ∧ (q = 0xD → s < 32) ∨
      owed = 3 ∧ lead = q + 0xF0 ∧ q ≤ 4 ∧ (q = 0 → 16 ≤ s) ∧ (q = 4 → s < 16)) :
    ∃ least most, ofFirst? (UInt8.ofNat lead) = some ⟨owed, least, most, q⟩ ∧
      least.toNat ≤ s + 0x80 ∧ s + 0x80 ≤ most.toNat := by
  have value : (UInt8.ofNat lead).toNat = lead := by
    rw [UInt8.toNat_ofNat']
    omega
  have bounds : ∀ {n v : ℕ} {least most : UInt8}, n = owed → v = q → least.toNat ≤ s + 0x80 → s + 0x80 ≤ most.toNat →
      ∃ least' most', some (⟨n, least, most, v⟩ : Unfinished) = some ⟨owed, least', most', q⟩ ∧
        least'.toNat ≤ s + 0x80 ∧ s + 0x80 ≤ most'.toNat := by
    rintro n v least most rfl rfl low high
    exact ⟨least, most, rfl, low, high⟩
  unfold ofFirst?
  simp only [UInt8.lt_iff_toNat_lt, UInt8.le_iff_toNat_le, ← UInt8.toNat_inj, UInt8.reduceToNat, value]
  -- A branch for another length contradicts `h`; in the others the bounds are the numbers of the branch.
  split_ifs <;> first
    | omega
    | (refine bounds ?_ ?_ ?_ ?_ <;> first
        | omega
        | (simp only [UInt8.reduceToNat]; omega))

section Tail

variable {least most : UInt8} {s : ℕ} (v : ℕ) (fits : least.toNat ≤ s % 64 + 0x80 ∧ s % 64 + 0x80 ≤ most.toNat)
  (rest : Bytes)
include fits

theorem readByte_tail (owed : ℕ) :
    readByte (some ⟨owed, least, most, v⟩) (UInt8.ofNat (s % 64 + 0x80)) =
      if owed ≤ 1 then ([Char.ofNat (v * 64 + s % 64)], none)
      else ([], some ⟨owed - 1, 0x80, 0xBF, v * 64 + s % 64⟩) := by
  have value : (UInt8.ofNat (s % 64 + 0x80)).toNat = s % 64 + 0x80 := by
    rw [UInt8.toNat_ofNat']
    omega
  generalize UInt8.ofNat (s % 64 + 0x80) = b at value
  have bits : b.toNat % 64 = s % 64 := by omega
  have fits : least ≤ b ∧ b ≤ most := by rwa [UInt8.le_iff_toNat_le, UInt8.le_iff_toNat_le, value]
  simp [readByte, fits, Unfinished.extend, bits]

theorem lossyFrom_more (owed : ℕ) :
    lossyFrom (some ⟨owed + 2, least, most, v⟩) (UInt8.ofNat (s % 64 + 0x80) :: rest) =
      lossyFrom (some ⟨owed + 1, 0x80, 0xBF, v * 64 + s % 64⟩) rest := by
  rw [lossyFrom, readByte_tail v fits]
  simp

theorem lossyFrom_last :
    lossyFrom (some ⟨1, least, most, v⟩) (UInt8.ofNat (s % 64 + 0x80) :: rest) =
      Char.ofNat (v * 64 + s % 64) :: lossyFrom none rest := by
  rw [lossyFrom, readByte_tail v fits]
  simp

end Tail

theorem tail_fits (s : ℕ) : (0x80 : UInt8).toNat ≤ s % 64 + 0x80 ∧ s % 64 + 0x80 ≤ (0xBF : UInt8).toNat := by
  simp only [UInt8.reduceToNat]
  omega

theorem lossyFrom_lead {u : Unfinished} {n : ℕ} (byte : n < 256) (other : 0x80 ≤ n)
    (first : Unfinished.ofFirst? (UInt8.ofNat n) = some u) (rest : Bytes) :
    lossyFrom none (UInt8.ofNat n :: rest) = lossyFrom (some u) rest := by
  have value : (UInt8.ofNat n).toNat = n := UInt8.toNat_ofNat_of_lt' byte
  generalize UInt8.ofNat n = b at value first
  have other : ¬ b < 0x80 := by
    rw [UInt8.lt_iff_toNat_lt, value]
    exact Nat.not_lt.mpr other
  simp [lossyFrom, readByte, readFirst, other, first]

/-- A valid character is read as it is. -/
theorem lossyFrom_utf8EncodeChar (c : Char) (rest : Bytes) :
    lossyFrom none (String.utf8EncodeChar c ++ rest) = c :: lossyFrom none rest := by
  have valid : c.val.toNat < 0xD800 ∨ 0xDFFF < c.val.toNat ∧ c.val.toNat < 0x110000 := c.valid
  have self : Char.ofNat c.val.toNat = c := Char.ofNat_toNat c
  rw [String.utf8EncodeChar.eq_1]
  generalize c.val.toNat = v at valid self
  split_ifs with one two three
  · have value : (UInt8.ofNat v).toNat = v := UInt8.toNat_ofNat_of_lt' (Nat.lt_of_le_of_lt one (by decide))
    generalize UInt8.ofNat v = b at value
    have small : b < 0x80 := by
      rw [UInt8.lt_iff_toNat_lt, value]
      exact Nat.lt_succ_of_le one
    simp [lossyFrom, readByte, readFirst, small, value, self]
  · obtain ⟨_, _, first, fits⟩ := Unfinished.exists_ofFirst 1 (v / 64 % 32 + 192) (v / 64) (v % 64)
      (by omega) (by omega)
    have sum : v / 64 * 64 + v % 64 = v := by omega
    simp only [List.cons_append, List.nil_append]
    rw [lossyFrom_lead (by omega) (by omega) first, lossyFrom_last _ fits, sum, self]
  · obtain ⟨_, _, first, fits⟩ := Unfinished.exists_ofFirst 2 (v / 4096 % 16 + 224) (v / 4096) (v / 64 % 64)
      (by omega) (by omega)
    have sum : (v / 4096 * 64 + v / 64 % 64) * 64 + v % 64 = v := by omega
    simp only [List.cons_append, List.nil_append]
    rw [lossyFrom_lead (by omega) (by omega) first, lossyFrom_more _ fits, lossyFrom_last _ (tail_fits v), sum, self]
  · obtain ⟨_, _, first, fits⟩ := Unfinished.exists_ofFirst 3 (v / 262144 % 8 + 240) (v / 262144) (v / 4096 % 64)
      (by omega) (by omega)
    have sum : ((v / 262144 * 64 + v / 4096 % 64) * 64 + v / 64 % 64) * 64 + v % 64 = v := by omega
    simp only [List.cons_append, List.nil_append]
    rw [lossyFrom_lead (by omega) (by omega) first, lossyFrom_more _ fits, lossyFrom_more _ (tail_fits _),
      lossyFrom_last _ (tail_fits v), sum, self]

/-- Valid text is read as it is. -/
theorem lossyText_utf8 (text : String) : lossyText (utf8 text) = text := by
  have read : ∀ chars : List Char, lossyChars (chars.flatMap String.utf8EncodeChar) = chars := by
    intro chars
    induction chars with
    | nil => rfl
    | cons c chars ih => rw [List.flatMap_cons, lossyChars, lossyFrom_utf8EncodeChar, ← lossyChars, ih]
  rw [← String.ofList_toList (s := text), utf8_ofList, lossyText, read]

end BitmapAsset

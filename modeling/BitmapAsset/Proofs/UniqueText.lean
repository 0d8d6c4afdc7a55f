import BitmapAsset.Proofs.Conversion
import BitmapAsset.Proofs.SamePicture

/-! # Texts can be read in one way only

The name of an array may be any text, so what comes behind it may seem to begin early: the name can
imitate brackets, numbers and comments.  From the end there is no doubt.  Behind the comment that tells
what the two numbers are no slash occurs, so the last slash of a text is that of the comment
(`append_cons_inj_last`).  In front of it stand the numbers, behind the last tabulator but those that are
always there, and then the name between two fixed texts (`Declaration.text_inj`).

Behind the comment come the literals, which can be read back.  So the text of an array tells its name, the
size of the picture, and what every pixel looks like in this format (`Image.texts_unique`). -/

namespace BitmapAsset

open BoundedSink (collect)

/-- Two lists are cut at the last place of the same value into the same parts. -/
theorem append_cons_inj_last {α : Type} {c : α} {front front' back back' : List α} (h : c ∉ back)
    (h' : c ∉ back') (same : front ++ c :: back = front' ++ c :: back') : front = front' ∧ back = back' := by
  rcases List.append_eq_append_iff.mp same with ⟨rest, rfl, tail⟩ | ⟨rest, rfl, tail⟩
  · cases rest with
    | nil => exact ⟨(List.append_nil front).symm, (List.cons.inj tail).2⟩
    | cons d rest =>
        have member : c ∈ back := by
          rw [(List.cons.inj tail).2]
          exact List.mem_append_right rest List.mem_cons_self
        exact absurd member h
  · cases rest with
    | nil => exact ⟨List.append_nil front', (List.cons.inj tail).2.symm⟩
    | cons d rest =>
        have member : c ∈ back' := by
          rw [(List.cons.inj tail).2]
          exact List.mem_append_right rest List.mem_cons_self
        exact absurd member h'

/-! ### Numbers -/

theorem digit_of_mem_decimal {n : ℕ} {c : UInt8} (h : c ∈ decimal n) : 48 ≤ c ∧ c ≤ 57 := by
  rw [decimal, Nat.toString_eq_ofList_toDigits, utf8_ofList, List.mem_flatMap] at h
  obtain ⟨d, hd, hc⟩ := h
  obtain ⟨low, high⟩ := Char.isDigit_iff_toNat.mp (Nat.isDigit_of_mem_toDigits (by decide) (by decide) hd)
  change 48 ≤ d.toNat at low
  change d.toNat ≤ 57 at high
  have small : d.utf8Size = 1 := by
    rw [Char.utf8Size_eq_one_iff, UInt32.le_iff_toNat_le]
    show d.toNat ≤ 127
    omega
  rw [String.utf8EncodeChar_eq_singleton small, List.mem_singleton] at hc
  have value : c.toNat = d.toNat := by
    rw [hc, UInt32.toNat_toUInt8]
    show d.toNat % 256 = d.toNat
    omega
  constructor
  · rw [UInt8.le_iff_toNat_le, value]
    exact low
  · rw [UInt8.le_iff_toNat_le, value]
    exact high

theorem decimal_injective {m n : ℕ} (h : decimal m = decimal n) : m = n := by
  have digits := utf8_inj.mp h
  rw [Nat.toString_eq_ofList_toDigits, Nat.toString_eq_ofList_toDigits, String.ofList_inj] at digits
  have value := congrArg (Nat.ofDigitChars 10 · 0) digits
  simp only [Nat.ofDigitChars_ten_toDigits] at value
  exact value

/-! ### Declarations -/

/-- The texts that are the same in front of all pictures: what leads to the name, what stands between the
name and the tabulator in front of the numbers, and what stands between the numbers and the last slash. -/
structure Declaration where
  lead : Bytes
  between : Bytes
  behind : Bytes

namespace Declaration

/-- The declaration of an array for a picture of the given size, with the rest of the text. -/
def text (d : Declaration) (name : String) (width height : ℕ) (rest : Bytes) : Bytes :=
  d.lead ++ utf8 name ++ d.between ++ 9 :: (decimal width ++ 44 :: (32 :: decimal height)) ++ d.behind ++
    47 :: rest

/-- A text that has no slash but those of the name and of the declaration tells all its parts. -/
theorem text_inj (d : Declaration) {name name' : String} {width height width' height' : ℕ} {rest rest' : Bytes}
    (h : 47 ∉ rest) (h' : 47 ∉ rest')
    (same : d.text name width height rest = d.text name' width' height' rest') :
    name = name' ∧ width = width' ∧ height = height' ∧ rest = rest' := by
  have comma (n : ℕ) : 44 ∉ decimal n := by
    intro member
    exact absurd (digit_of_mem_decimal member).1 (by decide)
  have tab (w h : ℕ) : 9 ∉ decimal w ++ 44 :: (32 :: decimal h) := by
    intro member
    rw [List.mem_append, List.mem_cons, List.mem_cons] at member
    rcases member with member | member | member | member
    · exact absurd (digit_of_mem_decimal member).1 (by decide)
    · exact absurd member (by decide)
    · exact absurd member (by decide)
    · exact absurd (digit_of_mem_decimal member).1 (by decide)
  obtain ⟨front, rests⟩ := append_cons_inj_last h h' same
  obtain ⟨names, sizes⟩ := append_cons_inj_last (tab width height) (tab width' height')
    (List.append_cancel_right front)
  have named : utf8 name = utf8 name' := by
    rw [List.append_assoc, List.append_assoc] at names
    exact List.append_cancel_right (List.append_cancel_left names)
  obtain ⟨widths, -, heights⟩ := (List.append_cons_inj_of_notMem (comma width)
    (List.not_mem_cons_of_ne_of_not_mem (by decide) (comma height))).mp sizes
  exact ⟨utf8_inj.mp named, decimal_injective widths, decimal_injective (List.cons.inj heights).2, rests⟩

end Declaration

/-! ### No slash in literals -/

theorem WordLiterals.Layout.slash_notMem_text (l : Layout) (words : List UInt16) : 47 ∉ l.text words := by
  have separator (l : Layout) : 47 ∉ l.separator := by
    unfold Layout.separator
    split_ifs
    · exact List.not_mem_nil
    · decide
    · decide
  induction words generalizing l with
  | nil => exact List.not_mem_nil
  | cons w rest ih =>
      rw [Layout.text, List.mem_append, List.mem_append, not_or, not_or]
      exact ⟨⟨separator l, Word.notMem_literal rfl (by decide) w⟩, ih l.afterWord⟩

theorem NibbleLiterals.slash_notMem_text (n : ℕ) {nibbles : List UInt8} (small : ∀ a ∈ nibbles, a < 16) :
    47 ∉ text n nibbles := by
  have front (n : ℕ) : 47 ∉ front n := by
    unfold NibbleLiterals.front separator
    split_ifs <;> decide
  induction nibbles generalizing n with
  | nil => exact List.not_mem_nil
  | cons a rest ih =>
      have ha := small a List.mem_cons_self
      have digit : 47 ∉ digit a := by
        rw [digit_eq ha, List.mem_singleton]
        exact Word.ne_digitByte rfl (UInt8.lt_iff_toNat_lt.mp ha)
      rw [text, List.mem_append, List.mem_append, not_or, not_or]
      exact ⟨⟨front n, digit⟩, ih (n + 1) fun b hb => small b (List.mem_cons_of_mem a hb)⟩

theorem NibbleArray.slash_notMem_body {nibbles : List UInt8} (small : ∀ a ∈ nibbles, a < 16) :
    47 ∉ body nibbles := by
  rw [body, List.mem_append, not_or]
  refine ⟨NibbleLiterals.slash_notMem_text 0 small, ?_⟩
  unfold NibbleLiterals.padding
  split_ifs <;> decide

/-! ### Arrays -/

/-- The declaration of an array of nibbles. -/
def NibbleArray.declaration : Declaration where
  lead := utf8 "extern const uint8_t "
  between := utf8 "[] =\n\x7b"
  behind := utf8 ",\t/"

/-- The declaration of an array of words. -/
def WordArray.declaration : Declaration where
  lead := utf8 "// File generated by bmp2c\n\n#include <cstdint>\n\nextern const uint16_t "
  between := utf8 "[] =\n\x7b\n"
  behind := utf8 ",\t\t\t/"

theorem NibbleArray.opening_eq (name : String) (width height : ℕ) (rest : Bytes) :
    (opening name width height).flatMap utf8 ++ rest =
      declaration.text name width height (utf8 " width, height\n\t" ++ rest) := by
  simp only [opening, List.flatMap_cons, List.flatMap_nil, List.append_nil, List.append_assoc, List.cons_append,
    Declaration.text, declaration]
  rfl

theorem WordArray.opening_eq (name : String) (width height : ℕ) (rest : Bytes) :
    (opening name width height).flatMap utf8 ++ rest =
      declaration.text name width height (utf8 " width and height in pixels\n\t" ++ rest) := by
  simp only [opening, List.flatMap_cons, List.flatMap_nil, List.append_nil, List.append_assoc, List.cons_append,
    Declaration.text, declaration]
  rfl

theorem NibbleArray.parts_of_text {name name' : String} {width height width' height' : ℕ} {a b : List UInt8}
    (ha : ∀ c ∈ a, c < 16) (hb : ∀ c ∈ b, c < 16)
    (same : (opening name width height).flatMap utf8 ++ (body a ++ utf8 closing) =
      (opening name' width' height').flatMap utf8 ++ (body b ++ utf8 closing)) :
    name = name' ∧ width = width' ∧ height = height' ∧ body a = body b := by
  have slash {l : List UInt8} (small : ∀ c ∈ l, c < 16) :
      47 ∉ utf8 " width, height\n\t" ++ (body l ++ utf8 closing) := by
    rw [List.mem_append, List.mem_append, not_or, not_or]
    exact ⟨by decide, slash_notMem_body small, by decide⟩
  rw [opening_eq, opening_eq] at same
  obtain ⟨names, widths, heights, rests⟩ := Declaration.text_inj _ (slash ha) (slash hb) same
  exact ⟨names, widths, heights, List.append_cancel_right (List.append_cancel_left rests)⟩

theorem WordArray.parts_of_text {name name' : String} {width height width' height' : ℕ} {l : WordLiterals.Layout}
    {words words' : List UInt16}
    (same : (opening name width height).flatMap utf8 ++ (l.text words ++ utf8 closing) =
      (opening name' width' height').flatMap utf8 ++ (l.text words' ++ utf8 closing)) :
    name = name' ∧ width = width' ∧ height = height' ∧ words = words' := by
  have slash (words : List UInt16) :
      47 ∉ utf8 " width and height in pixels\n\t" ++ (l.text words ++ utf8 closing) := by
    rw [List.mem_append, List.mem_append, not_or, not_or]
    exact ⟨by decide, l.slash_notMem_text words, by decide⟩
  rw [opening_eq, opening_eq] at same
  obtain ⟨names, widths, heights, rests⟩ := Declaration.text_inj _ (slash words) (slash words') same
  have literals := congrArg Word.literals (List.append_cancel_right (List.append_cancel_left rests))
  rw [l.literals_text, l.literals_text] at literals
  exact ⟨names, widths, heights, literals⟩

theorem NibbleArray.body_inj {a b : List UInt8} (ha : ∀ c ∈ a, c < 16) (hb : ∀ c ∈ b, c < 16)
    (length : a.length = b.length) (same : body a = body b) : a = b := by
  have literals := congrArg Nibble.literals same
  rw [literals_body ha, literals_body hb] at literals
  exact (List.append_inj literals length).1

theorem Stream.words_pairs_injective {colors colors' : List UInt16}
    (same : (pairs colors).flatMap Pair.words = (pairs colors').flatMap Pair.words) : colors = colors' := by
  have read := congrArg Pair.ofWords same
  rw [Pair.ofWords_flatMap_words, Pair.ofWords_flatMap_words] at read
  have shown := congrArg (List.flatMap Pair.colors) read
  rwa [flatMap_colors_pairs, flatMap_colors_pairs] at shown

/-! ### Pictures -/

namespace Image

/-- Pictures of the same size that look the same at every place. -/
structure Alike {β : Type} (look : Pixel → β) (a b : Image) : Prop where
  width_eq : a.width = b.width
  height_eq : a.height = b.height
  look_eq : ∀ x y hx hy hx' hy', look (a.pixel x y hx hy) = look (b.pixel x y hx' hy')

theorem alike_of_walk {β : Type} {look : Pixel → β} (walk : Image → List β)
    (place : ℕ → ℕ → ℕ → ℕ → ℕ)
    (shows : ∀ (image : Image) {x y : ℕ} (hx : x < image.width) (hy : y < image.height),
      (walk image)[place image.width image.height x y]? = some (look (image.pixel x y hx hy)))
    {a b : Image} (hw : a.width = b.width) (hh : a.height = b.height) (same : walk a = walk b) :
    Alike look a b := by
  refine ⟨hw, hh, ?_⟩
  intro x y hx hy hx' hy'
  have entry := shows a hx hy
  rw [same, hw, hh, shows b hx' hy'] at entry
  exact (Option.some.inj entry).symm

theorem columnIndices_getElem? (palette : Palette) (image : Image) {x y : ℕ} (hx : x < image.width)
    (hy : y < image.height) :
    (image.columnIndices palette)[x * image.height + y]? = some (palette.indexOf (image.pixel x y hx hy)) := by
  rw [columnIndices_eq, List.getElem?_map, columnColors_getElem? image hx hy]
  rfl

theorem columnIndices_lt (image : Image) (palette : Palette) : ∀ a ∈ image.columnIndices palette, a < 16 := by
  intro a ha
  obtain ⟨p, -, rfl⟩ := List.mem_map.mp ha
  exact palette.index_lt p.color

theorem length_columnIndices (image : Image) (palette : Palette) :
    (image.columnIndices palette).length = image.width * image.height := by
  rw [columnIndices, List.length_map, columns_length]

/-! ### All that a text tells -/

theorem alike_of_nibbles (image image' : Image) (name name' : String) (palette : Palette) :
    ∃ text text', collect (NibbleArray.write image name palette) = .ok text ∧
      collect (NibbleArray.write image' name' palette) = .ok text' ∧
      (text = text' → name = name' ∧ Alike palette.indexOf image image') := by
  have small := image.columnIndices_lt palette
  have small' := image'.columnIndices_lt palette
  refine ⟨_, _, (NibbleArray.write_writes image name palette).collect_eq,
    (NibbleArray.write_writes image' name' palette).collect_eq, ?_⟩
  intro same
  obtain ⟨names, widths, heights, bodies⟩ := NibbleArray.parts_of_text small small' same
  have length : (image.columnIndices palette).length = (image'.columnIndices palette).length := by
    rw [length_columnIndices, length_columnIndices, widths, heights]
  have indices := NibbleArray.body_inj small small' length bodies
  exact ⟨names, alike_of_walk (columnIndices · palette) (fun _ height x y => x * height + y)
    (columnIndices_getElem? palette) widths heights indices⟩

theorem alike_of_words (image image' : Image) (name name' : String) (compressed : Bool) :
    ∃ text text', collect (WordArray.write image name compressed) = .ok text ∧
      collect (WordArray.write image' name' compressed) = .ok text' ∧
      (text = text' → name = name' ∧ Alike Pixel.color image image') := by
  cases compressed with
  | false =>
      refine ⟨_, _, (WordArray.write_uncompressed_writes image name).collect_eq,
        (WordArray.write_uncompressed_writes image' name').collect_eq, ?_⟩
      intro same
      obtain ⟨names, widths, heights, colors⟩ := WordArray.parts_of_text same
      exact ⟨names, alike_of_walk columnColors (fun _ height x y => x * height + y) columnColors_getElem?
        widths heights colors⟩
  | true =>
      refine ⟨_, _, (WordArray.write_compressed_writes image name).collect_eq,
        (WordArray.write_compressed_writes image' name').collect_eq, ?_⟩
      intro same
      obtain ⟨names, widths, heights, words⟩ := WordArray.parts_of_text same
      have colors := Stream.words_pairs_injective words
      rw [← scanlineColors_eq_bottomUp, ← scanlineColors_eq_bottomUp] at colors
      exact ⟨names, alike_of_walk scanlineColors (fun width height x y => (height - 1 - y) * width + x)
        scanlineColors_getElem? widths heights colors⟩

/-- **Whatever the names are, equal texts are those of equal arrays**: the names agree, the sizes, and every
pixel, by its index in the palette in an array of nibbles, and by its colour in an array of words, compressed
or not. -/
theorem texts_unique :
    (∀ (image image' : Image) (name name' : String) (palette : Palette),
      ∃ text text', collect (NibbleArray.write image name palette) = .ok text ∧
        collect (NibbleArray.write image' name' palette) = .ok text' ∧
        (text = text' → name = name' ∧ Alike palette.indexOf image image')) ∧
    ∀ (image image' : Image) (name name' : String) (compressed : Bool),
      ∃ text text', collect (WordArray.write image name compressed) = .ok text ∧
        collect (WordArray.write image' name' compressed) = .ok text' ∧
        (text = text' → name = name' ∧ Alike Pixel.color image image') :=
  ⟨alike_of_nibbles, alike_of_words⟩

/-- A name that looks like a whole array in front of another one. -/
theorem texts_unique_imitation :
    collect (NibbleArray.write (uniform 1 1 Pixel.black) "b" Palette.panelDue) ≠
      collect (NibbleArray.write (uniform 1 1 Pixel.black)
        "a[] =\n\x7b\t1, 1,\t// width, height\n\t0x00\n\x7d;\nextern const uint8_t b" Palette.panelDue) := by
  obtain ⟨text, text', written, written', tells⟩ := texts_unique.1 (uniform 1 1 Pixel.black)
    (uniform 1 1 Pixel.black) "b" "a[] =\n\x7b\t1, 1,\t// width, height\n\t0x00\n\x7d;\nextern const uint8_t b"
    Palette.panelDue
  rw [written, written']
  intro same
  exact absurd (tells (Except.ok.inj same)).1 (by decide)

end Image

end BitmapAsset

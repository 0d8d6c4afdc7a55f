import BitmapAsset.Proofs.Conversion
import BitmapAsset.Proofs.RoundTrip

/-! # All outputs show the same picture

Raw words, arrays of words and arrays of nibbles go through a picture column by column, streams go row by
row from the bottom.  In each of them the place of a pixel is known from its column and its row, and
what stands there is the pixel's colour, or its index in the palette (`Image.formats_agree`).

`Image.Agree` says this of what has been written.  A pixel can only be asked for inside the picture
(`Image.pixel`), and every entry is that of a pixel: in either order a place comes from a column and a
row (`Image.exists_columns_place`, `Image.exists_scanlines_place`). -/

namespace BitmapAsset

open BoundedSink (collect)

namespace Word

/-- The word at a byte offset, low byte first. -/
def at? (bytes : Bytes) (offset : ℕ) : Option UInt16 := (list (bytes.drop offset)).head?

theorem drop_flatMap_bytes (words : List UInt16) (i : ℕ) :
    (words.flatMap bytes).drop (2 * i) = (words.drop i).flatMap bytes := by
  induction i generalizing words with
  | zero => rfl
  | succ i ih =>
      cases words with
      | nil => rw [List.flatMap_nil, List.drop_nil, List.drop_nil, List.flatMap_nil]
      | cons w rest =>
          have two : 2 * (i + 1) = (bytes w).length + 2 * i := by
            rw [bytes_length]
            omega
          rw [List.flatMap_cons, two, List.drop_length_add_append, ih, List.drop_succ_cons]

theorem at?_append_flatMap_bytes {header : Bytes} (h : header.length = 4) (words : List UInt16) (i : ℕ) :
    at? (header ++ words.flatMap bytes) (4 + 2 * i) = words[i]? := by
  rw [at?, ← h, List.drop_length_add_append, drop_flatMap_bytes, list_flatMap_bytes, List.head?_drop]

end Word

namespace Palette

theorem index_lt (p : Palette) (color : UInt16) : p.index color < 16 := by
  unfold index
  cases h : p.colors.toList.idxOf? color with
  | none => decide
  | some i =>
      obtain ⟨lt, -⟩ := List.findIdx?_eq_some_iff_getElem.mp h
      rw [Vector.length_toList] at lt
      show UInt8.ofNat (i + 1) < 16
      rw [UInt8.lt_iff_toNat_lt, UInt8.toNat_ofNat_of_lt' (by show i + 1 < 256; omega)]
      show i + 1 < 16
      omega

end Palette

namespace Image

/-! ### Places -/

theorem columnColors_getElem? (image : Image) {x y : ℕ} (hx : x < image.width) (hy : y < image.height) :
    image.columnColors[x * image.height + y]? = some (image.pixel x y hx hy).color := by
  have inside : x * image.height + y < image.columns.length := by
    rw [columns_length, Nat.mul_comm image.width]
    exact place_lt hy hx
  rw [columnColors, List.getElem?_map, List.getElem?_eq_getElem inside, columns_getElem image hx hy]
  rfl

theorem scanlineColors_getElem? (image : Image) {x y : ℕ} (hx : x < image.width) (hy : y < image.height) :
    image.scanlineColors[(image.height - 1 - y) * image.width + x]? =
      some (image.pixel x y hx hy).color := by
  have row : image.height - 1 - y < image.height := by omega
  have inside : (image.height - 1 - y) * image.width + x < image.scanlines.length := by
    rw [scanlines_length]
    exact place_lt hx row
  rw [scanlineColors, List.getElem?_map, List.getElem?_eq_getElem inside, scanlines_getElem image hx hy]
  rfl

theorem exists_columns_place {width height i : ℕ} (h : i < width * height) :
    ∃ x y, x < width ∧ y < height ∧ i = x * height + y := by
  have hpos : 0 < height := Nat.pos_of_mul_pos_left (Nat.zero_lt_of_lt h)
  exact ⟨i / height, i % height, Nat.div_lt_of_lt_mul (Nat.mul_comm width height ▸ h), Nat.mod_lt _ hpos,
    (Nat.div_add_mod' i height).symm⟩

theorem exists_scanlines_place {width height i : ℕ} (h : i < width * height) :
    ∃ x y, x < width ∧ y < height ∧ i = (height - 1 - y) * width + x := by
  obtain ⟨row, x, hrow, hx, e⟩ := exists_columns_place (Nat.mul_comm width height ▸ h)
  refine ⟨x, height - 1 - row, hx, by omega, ?_⟩
  rw [e, Nat.sub_sub_self (Nat.le_sub_one_of_lt hrow)]

theorem columnIndices_eq (image : Image) (palette : Palette) :
    image.columnIndices palette = image.columnColors.map palette.index := by
  rw [columnIndices, columnColors, List.map_map]
  rfl

theorem length_columnColors (image : Image) : image.columnColors.length = image.width * image.height := by
  rw [columnColors, List.length_map, columns_length]

/-! ### The outputs -/

/-- What the outputs of a picture hold: raw words, the body of an array of words, the colours of a stream,
and the body of an array of nibbles. -/
structure Agree (image : Image) (palette : Palette) (raw words : Bytes) (colors : Array UInt16)
    (nibbles : Bytes) : Prop where
  /-- Behind its header, raw output is two bytes for each pixel. -/
  raw_length : raw.length = 4 + 2 * (image.width * image.height)
  words_length : (Word.literals words).length = image.width * image.height
  colors_size : colors.size = image.width * image.height
  /-- An odd number of nibbles is filled up. -/
  nibbles_length : (Nibble.literals nibbles).length =
    image.width * image.height + image.width * image.height % 2
  padding : image.width * image.height % 2 = 1 →
    (Nibble.literals nibbles)[image.width * image.height]? = some 0
  /-- The entries of a pixel agree. -/
  entries : ∀ x y (hx : x < image.width) (hy : y < image.height), ∃ c,
    c = (image.pixel x y hx hy).color ∧
    Word.at? raw (4 + 2 * (x * image.height + y)) = some c ∧
    (Word.literals words)[x * image.height + y]? = some c ∧
    colors[(image.height - 1 - y) * image.width + x]? = some c ∧
    (Nibble.literals nibbles)[x * image.height + y]? = some (palette.index c)
  /-- There are no entries but those of pixels. -/
  places : ∀ i < image.width * image.height,
    (∃ x y, x < image.width ∧ y < image.height ∧ i = x * image.height + y) ∧
    ∃ x y, x < image.width ∧ y < image.height ∧ i = (image.height - 1 - y) * image.width + x

theorem agree_of_eq (image : Image) (palette : Palette) {colors : Array UInt16} {nibbles words : Bytes}
    (hc : colors.toList = image.scanlineColors) (hw : Word.literals words = image.columnColors)
    (hn : Nibble.literals nibbles = image.columnIndices palette ++
      if (image.columnIndices palette).length % 2 = 1 then [0] else []) :
    image.Agree palette (image.header ++ image.columnColors.flatMap Word.bytes) words colors nibbles := by
  have length : (image.columnIndices palette).length = image.width * image.height := by
    rw [columnIndices_eq, List.length_map, length_columnColors]
  rw [length] at hn
  have size : colors.size = image.width * image.height := by
    rw [← Array.length_toList, hc, scanlineColors, List.length_map, scanlines_length]
  refine ⟨?_, ?_, size, ?_, ?_, ?_, ?_⟩
  · have two : ∀ w ∈ image.columnColors, (Word.bytes w).length = 2 := fun w _ => Word.bytes_length w
    rw [List.length_append, List.length_flatMap, List.map_congr_left two, List.map_const',
      List.sum_replicate_nat, length_columnColors, Nat.mul_comm _ 2]
    rfl
  · rw [hw, length_columnColors]
  · rw [hn, List.length_append, length]
    split_ifs with odd
    · rw [List.length_singleton, odd]
    · rw [List.length_nil]
      omega
  · intro odd
    rw [hn, if_pos odd, ← length, List.getElem?_concat_length]
  · intro x y hx hy
    have column := image.columnColors_getElem? hx hy
    refine ⟨_, rfl, ?_, ?_, ?_, ?_⟩
    · rw [Word.at?_append_flatMap_bytes rfl, column]
    · rw [hw, column]
    · rw [← Array.getElem?_toList, hc, scanlineColors_getElem? image hx hy]
    · have inside : x * image.height + y < (image.columnIndices palette).length := by
        rw [length, Nat.mul_comm image.width]
        exact place_lt hy hx
      rw [hn, List.getElem?_append_left inside, columnIndices_eq, List.getElem?_map, column]
      rfl
  · intro i hi
    exact ⟨exists_columns_place hi, exists_scanlines_place hi⟩

/-- **Raw words, arrays of words, streams and arrays of nibbles agree on every pixel**, and hold nothing
else. -/
theorem formats_agree (image : Image) (h : image.Fits) (palette : Palette) (name : String) :
    ∃ raw words stream d nibbles,
      collect (Stream.writeRaw image) = .ok raw ∧
      collect (WordArray.write image name false) =
        .ok ((WordArray.opening name image.width image.height).flatMap utf8 ++
          (words ++ utf8 WordArray.closing)) ∧
      collect (Stream.write image) = .ok stream ∧
      Stream.decode stream = .ok d ∧
      collect (NibbleArray.write image name palette) =
        .ok ((NibbleArray.opening name image.width image.height).flatMap utf8 ++
          (nibbles ++ utf8 NibbleArray.closing)) ∧
      image.Agree palette raw words d.colors nibbles := by
  have small : ∀ a ∈ image.columnIndices palette, a < 16 := by
    rw [columnIndices_eq]
    intro a ha
    obtain ⟨c, -, rfl⟩ := List.mem_map.mp ha
    exact palette.index_lt c
  obtain ⟨d, shows⟩ := Stream.exists_shown h
  have colors : d.colors.toList = image.scanlineColors := by
    rw [scanlineColors_eq_bottomUp, ← shows.2.2]
  exact ⟨_, _, _, d, _, (Stream.writeRaw_writes h).collect_eq,
    (WordArray.write_uncompressed_writes image name).collect_eq, Stream.collect_write shows,
    Stream.decode_written shows, (NibbleArray.write_writes image name palette).collect_eq,
    agree_of_eq image palette colors (WordLiterals.Layout.literals_text _ _) (NibbleArray.literals_body small)⟩

/-- Three columns and five rows of different colours, an odd number of pixels. -/
theorem formats_agree_three_by_five :
    (generate 3 5 fun x y => Pixel.ofColor (UInt16.ofNat (x * 5 + y))).Fits ∧
    ∃ raw words stream d nibbles,
      collect (Stream.writeRaw (generate 3 5 fun x y => Pixel.ofColor (UInt16.ofNat (x * 5 + y)))) = .ok raw ∧
      collect (WordArray.write (generate 3 5 fun x y => Pixel.ofColor (UInt16.ofNat (x * 5 + y))) "icon" false) =
        .ok ((WordArray.opening "icon" 3 5).flatMap utf8 ++ (words ++ utf8 WordArray.closing)) ∧
      collect (Stream.write (generate 3 5 fun x y => Pixel.ofColor (UInt16.ofNat (x * 5 + y)))) = .ok stream ∧
      Stream.decode stream = .ok d ∧
      collect (NibbleArray.write (generate 3 5 fun x y => Pixel.ofColor (UInt16.ofNat (x * 5 + y))) "icon"
          Palette.panelDue) =
        .ok ((NibbleArray.opening "icon" 3 5).flatMap utf8 ++ (nibbles ++ utf8 NibbleArray.closing)) ∧
      (generate 3 5 fun x y => Pixel.ofColor (UInt16.ofNat (x * 5 + y))).Agree Palette.panelDue raw words
        d.colors nibbles := by
  have fits : (generate 3 5 fun x y => Pixel.ofColor (UInt16.ofNat (x * 5 + y))).Fits :=
    ⟨by decide, by decide⟩
  exact ⟨fits, formats_agree _ fits Palette.panelDue "icon"⟩

end Image

end BitmapAsset

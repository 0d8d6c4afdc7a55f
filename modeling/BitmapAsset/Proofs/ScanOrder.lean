import BitmapAsset.Stream.Writer
import Mathlib.Data.List.FinRange
import Mathlib.Data.List.GetD
import Mathlib.Data.List.OfFn
import Mathlib.Tactic.IntervalCases

/-! # Pictures in the order of a stream, or of an array

A stream goes through a picture row by row from the bottom, each row from left to right.
`Image.bottomUp` says this as two nested loops, and the walk of the converter is the same list
(`Image.scanlineColors_eq_bottomUp`).  An array goes column by column from the left, each column from top to
bottom; here the loops are those of `Image.topDown` (`Image.columnColors_eq_topDown`).

Any colours of the right number are those of some picture (`Image.bottomUp_ofBottomUp`), since every
word is the colour of some pixel (`Pixel.color_ofColor`). -/

namespace BitmapAsset

namespace Pixel

/-- A pixel of the given colour. -/
def ofColor (c : UInt16) : Pixel := ofRgb (c >>> 8).toUInt8 (c >>> 3).toUInt8 (c <<< 3).toUInt8

/-- Every word is the colour of a pixel. -/
theorem color_ofColor (c : UInt16) : (ofColor c).color = c := by
  apply UInt16.toBitVec_inj.mp
  simp only [color, ofColor, ofRgb, rgb565, UInt16.toBitVec_or, UInt16.toBitVec_and,
    UInt16.toBitVec_shiftLeft, UInt16.toBitVec_shiftRight, UInt8.toBitVec_toUInt16,
    UInt16.toBitVec_toUInt8]
  ext i hi
  interval_cases i <;> simp

end Pixel

namespace Image

/-- The colours of a picture: rows from the last one up to the first, each from left to right. -/
def bottomUp (image : Image) : List UInt16 :=
  (List.finRange image.height).reverse.flatMap fun y : Fin image.height =>
    (List.finRange image.width).map fun x : Fin image.width => (image.pixel x y x.isLt y.isLt).color

theorem pixel_congr (image : Image) {x x' y y' : ℕ} (ex : x = x') (ey : y = y')
    (hx : x < image.width) (hy : y < image.height) :
    image.pixel x y hx hy = image.pixel x' y' (ex ▸ hx) (ey ▸ hy) := by
  subst ex
  subst ey
  rfl

/-- The converter walks through a picture as the nested loops do. -/
theorem scanlineColors_eq_bottomUp (image : Image) : image.scanlineColors = image.bottomUp := by
  unfold scanlineColors scanlines bottomUp
  rw [List.ofFn_mul', List.map_flatten, List.map_ofFn, List.finRange_reverse,
    List.flatMap_map, List.flatMap_def, List.ofFn_eq_map]
  congr 1
  apply List.map_congr_left
  intro y _
  rw [Function.comp_apply, List.map_ofFn, List.ofFn_eq_map]
  apply List.map_congr_left
  intro x _
  have hx : (image.width * y + x) % image.width = x := by
    rw [Nat.mul_add_mod, Nat.mod_eq_of_lt x.isLt]
  have hy : image.height - 1 - (image.width * y + x) / image.width = y.rev := by
    rw [Nat.mul_add_div x.pos, Nat.div_eq_of_lt x.isLt, Fin.val_rev]
    omega
  exact congrArg Pixel.color (image.pixel_congr hx hy _ _)

/-- The colours of a picture: columns from the first one on, each from top to bottom. -/
def topDown (image : Image) : List UInt16 :=
  (List.finRange image.width).flatMap fun x : Fin image.width =>
    (List.finRange image.height).map fun y : Fin image.height => (image.pixel x y x.isLt y.isLt).color

theorem columnColors_eq_topDown (image : Image) : image.columnColors = image.topDown := by
  unfold columnColors columns topDown
  rw [List.ofFn_mul, List.map_flatten, List.map_ofFn, List.flatMap_def, List.ofFn_eq_map]
  congr 1
  apply List.map_congr_left
  intro x _
  rw [Function.comp_apply, List.map_ofFn, List.ofFn_eq_map]
  apply List.map_congr_left
  intro y _
  have hx : (x * image.height + y) / image.height = x := by
    rw [Nat.add_comm, Nat.add_mul_div_right _ _ y.pos, Nat.div_eq_of_lt y.isLt, Nat.zero_add]
  have hy : (x * image.height + y) % image.height = y := by
    rw [Nat.add_comm, Nat.add_mul_mod_self_right, Nat.mod_eq_of_lt y.isLt]
  exact congrArg Pixel.color (image.pixel_congr hx hy _ _)

theorem length_bottomUp (image : Image) : image.bottomUp.length = image.width * image.height := by
  rw [← scanlineColors_eq_bottomUp, scanlineColors, List.length_map, scanlines_length]

theorem scanlineColors_getElem (image : Image) (i : ℕ) (h : i < image.scanlineColors.length) :
    ∃ hx hy, image.scanlineColors[i] =
      (image.pixel (i % image.width) (image.height - 1 - i / image.width) hx hy).color := by
  have hi : i < image.width * image.height := by
    rwa [scanlineColors, List.length_map, scanlines_length] at h
  have hpos : 0 < image.width * image.height := Nat.zero_lt_of_lt hi
  have hx : i % image.width < image.width := Nat.mod_lt _ (Nat.pos_of_mul_pos_right hpos)
  have hy : image.height - 1 - i / image.width < image.height :=
    Nat.lt_of_le_of_lt (Nat.sub_le _ _) (Nat.sub_one_lt_of_lt (Nat.pos_of_mul_pos_left hpos))
  refine ⟨hx, hy, ?_⟩
  simp only [scanlineColors, scanlines, List.getElem_map, List.getElem_ofFn]

/-! ### A picture of given colours -/

/-- The picture whose colours, row by row from the bottom, are the given ones. -/
def ofBottomUp (width height : ℕ) (colors : List UInt16) : Image :=
  generate width height fun x y => Pixel.ofColor (colors.getD ((height - 1 - y) * width + x) 0)

theorem pixel_generate {width height : ℕ} (pixelAt : ℕ → ℕ → Pixel) {x y : ℕ} (hx : x < width)
    (hy : y < height) : (generate width height pixelAt).pixel x y hx hy = pixelAt x y := by
  have hpos : 0 < width := Nat.zero_lt_of_lt hx
  have hmod : (y * width + x) % width = x := by
    rw [Nat.mul_add_mod_self_right, Nat.mod_eq_of_lt hx]
  have hdiv : (y * width + x) / width = y := by
    rw [Nat.add_comm, Nat.add_mul_div_right _ _ hpos, Nat.div_eq_of_lt hx, Nat.zero_add]
  simp only [pixel, generate, Array.getElem_ofFn, hmod, hdiv]

/-- Any colours of the right number are those of a picture. -/
theorem bottomUp_ofBottomUp {width height : ℕ} {colors : List UInt16}
    (h : colors.length = width * height) : (ofBottomUp width height colors).bottomUp = colors := by
  rw [← scanlineColors_eq_bottomUp]
  apply List.ext_getElem
  · rw [scanlineColors, List.length_map, scanlines_length, h]
    rfl
  · intro i hi hc
    have hy : i / width < height := Nat.div_lt_of_lt_mul (h ▸ hc)
    have row : height - 1 - (height - 1 - i / width) = i / width :=
      Nat.sub_sub_self (Nat.le_sub_one_of_lt hy)
    have place : i / width * width + i % width = i := Nat.div_add_mod' i width
    obtain ⟨hx, hy', e⟩ := scanlineColors_getElem _ i hi
    rw [e]
    refine (congrArg Pixel.color (pixel_generate _ hx hy')).trans ?_
    show (Pixel.ofColor (colors.getD ((height - 1 - (height - 1 - i / width)) * width + i % width) 0)).color = _
    rw [Pixel.color_ofColor, row, place, List.getD_eq_getElem _ _ hc]

end Image

end BitmapAsset

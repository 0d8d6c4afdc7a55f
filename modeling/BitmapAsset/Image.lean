import BitmapAsset.Color

/-! # Pictures

A picture is a grid of pixels, held row by row from the top.  The converter walks it in one of two
orders: `columns` goes column by column from the left, each from top to bottom, and `scanlines` row
by row from the bottom, each from left to right.  `columns_getElem` and `scanlines_getElem` give the
place of every pixel in them. -/

namespace BitmapAsset

/-- A grid of pixels, row by row from the top, each row from left to right. -/
structure Image where
  width : Nat
  height : Nat
  pixels : Array Pixel
  size_eq : pixels.size = width * height

namespace Image

/-- The place of column `x` in row `y` lies in the grid. -/
theorem place_lt {w h x y : Nat} (hx : x < w) (hy : y < h) : y * w + x < w * h := by
  have h1 : (y + 1) * w ≤ h * w := Nat.mul_le_mul_right w hy
  have h2 : (y + 1) * w = y * w + w := Nat.succ_mul y w
  have h3 : h * w = w * h := Nat.mul_comm h w
  omega

/-- The pixel in column `x` from the left and row `y` from the top. -/
def pixel (image : Image) (x y : Nat) (hx : x < image.width) (hy : y < image.height) : Pixel :=
  have : y * image.width + x < image.pixels.size := image.size_eq ▸ place_lt hx hy
  image.pixels[y * image.width + x]

/-- The picture with the given pixel at every place. -/
def generate (width height : Nat) (pixelAt : Nat → Nat → Pixel) : Image where
  width := width
  height := height
  pixels := Array.ofFn fun i : Fin (width * height) => pixelAt (i.val % width) (i.val / width)
  size_eq := Array.size_ofFn

/-- The same pixel everywhere. -/
def uniform (width height : Nat) (p : Pixel) : Image where
  width := width
  height := height
  pixels := Array.replicate (width * height) p
  size_eq := Array.size_replicate

/-- The picture with one pixel painted over. -/
def paint (image : Image) (x y : Nat) (p : Pixel) : Image :=
  { image with
    pixels := image.pixels.setIfInBounds (y * image.width + x) p
    size_eq := by rw [Array.size_setIfInBounds, image.size_eq] }

/-- Pixels column by column from the left, each column from top to bottom. -/
def columns (image : Image) : List Pixel :=
  List.ofFn fun i : Fin (image.width * image.height) =>
    image.pixel (i.val / image.height) (i.val % image.height)
      (Nat.div_lt_of_lt_mul (Nat.mul_comm image.width image.height ▸ i.isLt))
      (Nat.mod_lt _ (Nat.pos_of_mul_pos_left i.pos))

/-- Pixels row by row from the bottom, each row from left to right. -/
def scanlines (image : Image) : List Pixel :=
  List.ofFn fun i : Fin (image.width * image.height) =>
    image.pixel (i.val % image.width) (image.height - 1 - i.val / image.width)
      (Nat.mod_lt _ (Nat.pos_of_mul_pos_right i.pos))
      (Nat.lt_of_le_of_lt (Nat.sub_le _ _) (Nat.sub_one_lt_of_lt (Nat.pos_of_mul_pos_left i.pos)))

@[simp] theorem columns_length (image : Image) :
    image.columns.length = image.width * image.height := List.length_ofFn

@[simp] theorem scanlines_length (image : Image) :
    image.scanlines.length = image.width * image.height := List.length_ofFn

/-- Column `x` and row `y` stand at place `x * height + y` of the walk by columns. -/
theorem columns_getElem (image : Image) {x y : Nat} (hx : x < image.width) (hy : y < image.height)
    (h : x * image.height + y < image.columns.length) :
    image.columns[x * image.height + y] = image.pixel x y hx hy := by
  have hpos : 0 < image.height := Nat.zero_lt_of_lt hy
  have hdiv : (x * image.height + y) / image.height = x := by
    rw [Nat.add_comm, Nat.add_mul_div_right _ _ hpos, Nat.div_eq_of_lt hy, Nat.zero_add]
  have hmod : (x * image.height + y) % image.height = y := by
    rw [Nat.add_comm, Nat.add_mul_mod_self_right, Nat.mod_eq_of_lt hy]
  simp [columns, hdiv, hmod]

/-- Column `x` and row `y` stand at place `(height - 1 - y) * width + x` of the walk by rows. -/
theorem scanlines_getElem (image : Image) {x y : Nat} (hx : x < image.width) (hy : y < image.height)
    (h : (image.height - 1 - y) * image.width + x < image.scanlines.length) :
    image.scanlines[(image.height - 1 - y) * image.width + x] = image.pixel x y hx hy := by
  have hpos : 0 < image.width := Nat.zero_lt_of_lt hx
  have hdiv : ((image.height - 1 - y) * image.width + x) / image.width = image.height - 1 - y := by
    rw [Nat.add_comm, Nat.add_mul_div_right _ _ hpos, Nat.div_eq_of_lt hx, Nat.zero_add]
  have hmod : ((image.height - 1 - y) * image.width + x) % image.width = x := by
    rw [Nat.add_comm, Nat.add_mul_mod_self_right, Nat.mod_eq_of_lt hx]
  have hrow : image.height - 1 - (image.height - 1 - y) = y := by omega
  simp [scanlines, hdiv, hmod, hrow]

end Image

end BitmapAsset

import BitmapAsset.ArrayName
import BitmapAsset.NibbleArray
import BitmapAsset.WordArray

/-! # Conversion

Each format writes a picture in its own way; the formats in source text name their array after the
file that the picture was read from. -/

namespace BitmapAsset

/-- Converts a picture that was read from the file of the given path. -/
def Format.convert {W : Type} [Sink W] (format : Format) (image : Image) (path : Path)
    (palette : Palette) : Writing W Unit :=
  match format with
  | nibbles => NibbleArray.write image (variableName path) palette
  | rle => Stream.write image
  | rgb565 => WordArray.write image (identifier path) false
  | rgb565Rle => WordArray.write image (identifier path) true
  | raw => Stream.writeRaw image

end BitmapAsset

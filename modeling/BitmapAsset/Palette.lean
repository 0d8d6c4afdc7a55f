import BitmapAsset.Color

/-! # Palettes

A palette is a named set of twelve colour words known to the display's firmware.  Entry `i` is
reported as index `i + 1`; index 0 is the background and stands for every other colour
(`Palette.index`).  Names are looked up without regard to the case of ASCII letters. -/

namespace BitmapAsset

/-- Whether two names agree up to the case of ASCII letters. -/
def sameName (a b : String) : Bool := a.toList.map Char.toLower == b.toList.map Char.toLower

/-- Twelve colour words under a name. -/
structure Palette where
  name : String
  colors : Vector UInt16 12
deriving DecidableEq

namespace Palette

/-- The colours of the PanelDue user interface. -/
def panelDue : Palette where
  name := "paneldue"
  colors := #v[
    0xffff, -- white
    0x20e4, -- 0x201c20
    0xffdf, -- 0xf8f8f8
    0x18e3, -- 0x181c18
    0xf79e, -- 0xf0f0f0
    0xc986, -- 0xc83030
    0xd30c, -- 0xd06060
    0xc103, -- 0xc02018
    0xff52, -- 0xf8e890
    0xfffb, -- 0xf8fcd8
    0x4569, -- 0x40ac48
    0x9492] -- 0x909090

instance : Inhabited Palette := ⟨panelDue⟩

/-- Every palette that can be asked for by name. -/
def all : List Palette := [panelDue]

/-- The palette of the given name, in any case of letters. -/
def byName? (name : String) : Option Palette := all.find? fun p => sameName p.name name

/-- The index of a colour: one more than its first place in the palette, and 0 elsewhere. -/
def index (p : Palette) (color : UInt16) : UInt8 :=
  match p.colors.toList.idxOf? color with
  | some i => UInt8.ofNat (i + 1)
  | none => 0

/-- The index of a pixel's colour. -/
def indexOf (p : Palette) (pixel : Pixel) : UInt8 := p.index pixel.color

end Palette

end BitmapAsset

import BitmapAsset.Program
import BitmapAsset.Proofs.Buffering
import BitmapAsset.Proofs.Conversion

/-! # What becomes of an input

The picture in a file (`FileTree.picture?`) and what it is converted to (`FileTree.conversion?`) depend on
the file tree, and only on the file that the path names (`FileTree.FilesPut.conversion?_eq`).  A run
converts the inputs that are named, or for a binary format the first of them (`Program.inputs`).  It reads their
pictures (`Program.readPicture_of_some`, `Program.readPicture_of_none`) once the palette is known
(`Program.convert_of_palette`), and it ends as the work on the inputs ends (`Program.run_of_ends`). -/

namespace BitmapAsset

open BoundedSink (collect)

namespace FileTree

/-- The picture in a file, if it can be opened and decoded. -/
def picture? (t : FileTree) (file : Path) : Option Image := do
  let entry ← (t.openToRead file).toOption
  let content ← entry.read.toOption
  let bitmap ← (Bitmap.decode content).toOption
  return bitmap.picture

/-- What the picture in a file is converted to, if it can be opened, decoded and converted. -/
def conversion? (t : FileTree) (format : Format) (palette : Palette) (file : Path) : Option Bytes := do
  let image ← t.picture? file
  (collect (format.convert image file palette)).toOption

/-- A bitmap of one white pixel. -/
def whiteDot : Array UInt8 :=
  #[0x42, 0x4D, 58, 0, 0, 0, 0, 0, 0, 0, 54, 0, 0, 0,
    40, 0, 0, 0, 1, 0, 0, 0, 1, 0, 0, 0, 1, 0, 24, 0, 0, 0, 0, 0, 4, 0, 0, 0, 0, 0, 0, 0, 0, 0, 0, 0, 0, 0, 0, 0, 0, 0, 0, 0,
    255, 255, 255, 0]

theorem toOption_openToRead (t : FileTree) (p : Path) :
    (t.openToRead p).toOption = (t.resolve p).toOption.bind Place.standing? := by
  unfold openToRead
  cases t.resolve p with
  | error cause => rfl
  | ok place => cases place <;> rfl

theorem picture?_of_decode {t : FileTree} {file : Path} {l : Location} {content : Array UInt8} {bitmap : Bitmap}
    (named : t.named? file = some l) (found : t.get? l = some (.file content))
    (decoded : Bitmap.decode content = .ok bitmap) : t.picture? file = some bitmap.picture := by
  rw [picture?, openToRead, resolve_of_named named found]
  show ((Bitmap.decode content).toOption.bind fun bitmap => some bitmap.picture) = _
  rw [decoded]
  rfl

namespace FilesPut

variable {places : List Location} {t t' : FileTree}

theorem picture?_eq (h : FilesPut places t t') {file : Path} (apart : ∀ l, t.named? file = some l → l ∉ places) :
    t'.picture? file = t.picture? file := by
  rw [picture?, picture?, toOption_openToRead, toOption_openToRead, h.resolve_eq apart]

/-- Files elsewhere have nothing to do with what a file is converted to. -/
theorem conversion?_eq (h : FilesPut places t t') (format : Format) (palette : Palette) {file : Path}
    (apart : ∀ l, t.named? file = some l → l ∉ places) :
    t'.conversion? format palette file = t.conversion? format palette file := by
  rw [conversion?, conversion?, h.picture?_eq apart]

end FilesPut

theorem conversion?_eq_some {t : FileTree} {format : Format} {palette : Palette} {file : Path} {bytes : Bytes}
    (h : t.conversion? format palette file = some bytes) :
    ∃ image, t.picture? file = some image ∧ collect (format.convert image file palette) = .ok bytes := by
  obtain ⟨image, hp, hc⟩ := Option.bind_eq_some_iff.mp h
  refine ⟨image, hp, ?_⟩
  cases he : collect (format.convert image file palette) with
  | ok all =>
      rw [he] at hc
      rw [Option.some.inj hc]
  | error e =>
      rw [he] at hc
      cases hc

theorem conversion?_eq_none {t : FileTree} {format : Format} {palette : Palette} {file : Path}
    (h : t.conversion? format palette file = none) :
    t.picture? file = none ∨ ∃ image e, t.picture? file = some image ∧
      collect (format.convert image file palette) = .error e := by
  unfold conversion? at h
  cases hp : t.picture? file with
  | none => exact Or.inl rfl
  | some image =>
      rw [hp] at h
      cases he : collect (format.convert image file palette) with
      | ok all =>
          rw [Option.bind_eq_bind, Option.bind_some, he] at h
          cases h
      | error e => exact Or.inr ⟨image, e, rfl, he⟩

end FileTree

namespace Program

open CommandLine (Options parse normalize)
open Effects (lasting)
open Writing (Ends)

/-- The inputs that a run converts: only the first of those named if the format is a binary one. -/
def inputs (o : Options) : List Path :=
  (if o.effectiveFormat = .rle ∨ o.effectiveFormat = .raw then o.files.take 1 else o.files).map utf8

theorem map_utf8_taken (o : Options) : (taken o.effectiveFormat o.files).map utf8 = inputs o := by
  unfold taken inputs
  cases o.effectiveFormat <;> rfl

/-! ### Reading -/

theorem readPicture_eq (file : Path) (fx : Effects) : readPicture file fx =
    match fx.tree.openToRead file with
    | .error cause => .error (.cannotOpen file cause) (fx.note (.reading file))
    | .ok entry =>
      match entry.read.mapError BitmapError.os >>= Bitmap.decode with
      | .error cause => .error (.bitmap cause) (fx.note (.reading file))
      | .ok bitmap => .ok bitmap.picture ((fx.note (.reading file)).note
          (.decoded bitmap.picture.width bitmap.picture.height bitmap.hasAlpha)) := by
  show (Effects.orCannotOpen file (fx.tree.openToRead file) >>= _) (fx.note (.reading file)) = _
  cases fx.tree.openToRead file with
  | error cause => rfl
  | ok entry =>
      simp only [bind, EStateM.bind, Effects.orCannotOpen, pure, EStateM.pure]
      cases (entry.read.mapError BitmapError.os).bind Bitmap.decode <;> rfl

theorem readPicture_cases (file : Path) (fx : Effects) : ∃ gx, fx.lasting = gx.lasting ∧
    ((∃ image, fx.tree.picture? file = some image ∧ readPicture file fx = .ok image gx) ∨
      fx.tree.picture? file = none ∧ ∃ e, readPicture file fx = .error e gx) := by
  rw [readPicture_eq, FileTree.picture?]
  cases fx.tree.openToRead file with
  | error cause => exact ⟨fx.note (.reading file), rfl, Or.inr ⟨rfl, _, rfl⟩⟩
  | ok entry =>
      simp only [Except.toOption, Option.bind_eq_bind, Option.bind_some]
      cases entry.read with
      | error cause => exact ⟨fx.note (.reading file), rfl, Or.inr ⟨rfl, _, rfl⟩⟩
      | ok data =>
          simp only [Except.mapError, bind, Except.bind, Option.bind_some]
          cases Bitmap.decode data with
          | error cause => exact ⟨fx.note (.reading file), rfl, Or.inr ⟨rfl, _, rfl⟩⟩
          | ok bitmap =>
              exact ⟨(fx.note (.reading file)).note (.decoded bitmap.picture.width bitmap.picture.height bitmap.hasAlpha),
                rfl, Or.inl ⟨bitmap.picture, rfl, rfl⟩⟩

theorem readPicture_of_some {fx : Effects} {file : Path} {image : Image}
    (h : fx.tree.picture? file = some image) :
    ∃ gx, readPicture file fx = .ok image gx ∧ fx.lasting = gx.lasting := by
  obtain ⟨gx, same, ⟨image', there, read⟩ | ⟨none, -⟩⟩ := readPicture_cases file fx
  · obtain rfl : image = image' := Option.some.inj (h.symm.trans there)
    exact ⟨gx, read, same⟩
  · rw [h] at none
    cases none

theorem readPicture_of_none {fx : Effects} {file : Path} (h : fx.tree.picture? file = none) :
    ∃ e gx, readPicture file fx = .error e gx ∧ fx.lasting = gx.lasting := by
  obtain ⟨gx, same, ⟨image, there, -⟩ | ⟨-, e, failed⟩⟩ := readPicture_cases file fx
  · rw [h] at there
    cases there
  · exact ⟨e, gx, failed, same⟩

/-! ### Running -/

/-- What is done for the inputs, once the palette is known. -/
def convertInputs (o : Options) (palette : Palette) : Writing Effects Unit :=
  if o.outfile.isNone ∧ o.effectiveFormat.writesBesideInput then
    (inputs o).forM (convertBeside o.effectiveFormat palette)
  else do
    let place ← openOutput (o.outfile.getD stdoutName)
    Buffered.within place ((inputs o).forM (convertShared o.effectiveFormat palette))

/-- What a run remarks before it comes to its inputs. -/
def preface (o : Options) : List Event :=
  (o.overridden?.map Event.formatOverridden).toList ++ (if o.files.isEmpty then [.noInputs] else []) ++
    if o.effectiveFormat.isBinary ∧ 1 < o.files.length then
      [.inputsIgnored o.effectiveFormat (o.files.length - 1)]
    else []

/-- With a known palette, only remarks come before the work on the inputs. -/
theorem convert_of_palette {o : Options} {palette : Palette}
    (known : Palette.byName? o.paletteName = some palette) (fx : Effects) :
    Program.convert o fx = convertInputs o palette { fx with events := fx.events ++ preface o } := by
  unfold convertInputs
  rw [← map_utf8_taken]
  unfold Program.convert preface
  rw [known]
  cases o.overridden? <;> by_cases empty : o.files.isEmpty = true <;>
    by_cases more : o.effectiveFormat.isBinary = true ∧ 1 < o.files.length <;>
    simp only [empty, more, if_true, if_false] <;> rfl

theorem convert_of_unknown {o : Options} (unknown : Palette.byName? o.paletteName = none) (fx : Effects) :
    Ends (Program.convert o fx) False (fun gx => fx.lasting = gx.lasting) := by
  unfold Program.convert
  rw [unknown]
  cases o.overridden? <;> exact ⟨not_false, rfl⟩

section
variable {args : List String} {o : Options} (parsed : parse (normalize args) = .ok (.convert o))
  (logSpec : Option String) {tree : FileTree}
include parsed

/-- A run succeeds if the conversion does, and leaves behind what the conversion leaves behind. -/
theorem run_of_ends {success : Prop} {left : Effects → Prop}
    (h : Ends (Program.convert o ⟨tree, #[], #[]⟩) success left) :
    ∃ fx, left fx ∧ (run logSpec args tree).stdout = fx.stdout ∧ (run logSpec args tree).tree = fx.tree ∧
      (run logSpec args tree).code ≤ 1 ∧ ((run logSpec args tree).code = 0 ↔ success) := by
  cases result : Program.convert o ⟨tree, #[], #[]⟩ with
  | ok _ fx =>
      rw [result] at h
      have done : finish o tree = (0, fx) := by
        unfold finish
        rw [result]
      simp only [run, parsed, done]
      exact ⟨fx, h.2, rfl, rfl, Nat.zero_le _, fun _ => h.1, fun _ => trivial⟩
  | error e fx =>
      rw [result] at h
      have done : finish o tree = (1, fx.note (.failed e)) := by
        unfold finish
        rw [result]
      simp only [run, parsed, done]
      exact ⟨fx, h.2, rfl, rfl, Nat.le_refl _, fun code => absurd code Nat.one_ne_zero,
        fun success => absurd success h.1⟩

end

end Program

end BitmapAsset

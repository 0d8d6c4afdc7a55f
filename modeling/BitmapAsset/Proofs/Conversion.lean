import BitmapAsset.Conversion
import BitmapAsset.Proofs.CompressedText
import BitmapAsset.Proofs.NibbleLayout

/-! # What a conversion writes

A conversion either writes, or refuses the picture before anything is written.  Which of the two, and
what is written, depends on the format, the picture, the path and the palette, and not on the sink.  So
what happens in memory without a limit decides what happens in front of any sink
(`Format.writes_of_collect`, `Format.refuses_of_collect`).

For a sink in memory that takes a limited number of bytes this means that a conversion is cut off where the
room ends, and nowhere else (`Format.convert_bounded`). -/

namespace BitmapAsset

open BoundedSink (collect)

/-- A sink that holds nothing and takes so many bytes. -/
def BoundedSink.ofRoom (room : ℕ) : BoundedSink := ⟨#[], some room⟩

namespace WordArray

variable {W : Type} [Sink W]

theorem write_uncompressed_writes (image : Image) (name : String) :
    Writes (write image name false : Writing W Unit)
      ((opening name image.width image.height).flatMap utf8 ++
        ((WordLiterals.Layout.start 1).text image.columnColors ++ utf8 closing)) := by
  have front := Writes.forM (W := W) Writes.putText (opening name image.width image.height)
  have words := WordLiterals.writing_updateAll_writes (W := W) 1 image.columnColors
  exact Writes.after_note _ (front.seq (words.seq (Writes.putText closing)))

end WordArray

namespace Format

variable {W : Type} [Sink W]

/-- Whether a format can tell the size of a picture: only the binary ones have a limit. -/
def Holds (format : Format) (image : Image) : Prop := format.isBinary = true → image.Fits

/-- A conversion that can tell the size of the picture writes, the same to every sink. -/
theorem exists_convert_writes {format : Format} {image : Image} (h : format.Holds image) (path : Path)
    (palette : Palette) : ∃ bytes, ∀ (W : Type) [Sink W],
      Writes (format.convert image path palette : Writing W Unit) bytes := by
  cases format with
  | nibbles => exact ⟨_, fun _ _ => NibbleArray.write_writes image (variableName path) palette⟩
  | rle => exact ⟨_, fun _ _ => Stream.write_writes (h rfl)⟩
  | rgb565 => exact ⟨_, fun _ _ => WordArray.write_uncompressed_writes image (identifier path)⟩
  | rgb565Rle => exact ⟨_, fun _ _ => WordArray.write_compressed_writes image (identifier path)⟩
  | raw => exact ⟨_, fun _ _ => Stream.writeRaw_writes (h rfl)⟩

theorem convert_of_not_holds {format : Format} {image : Image} (h : ¬ format.Holds image) (path : Path)
    (palette : Palette) (sink : W) :
    format.convert image path palette sink = .error (.tooLarge image.width image.height) sink := by
  obtain ⟨binary, large⟩ := Classical.not_imp.mp h
  cases format with
  | rle => exact Stream.write_of_not_fits large sink
  | raw => exact Stream.writeRaw_of_not_fits large sink
  | nibbles | rgb565 | rgb565Rle => cases binary

/-! ### Without a limit and with one -/

theorem collect_of_not_holds {format : Format} {image : Image} (h : ¬ format.Holds image) (path : Path)
    (palette : Palette) :
    collect (format.convert image path palette) = .error (.tooLarge image.width image.height) := by
  unfold collect
  rw [convert_of_not_holds h]

theorem writes_of_collect {format : Format} {image : Image} {path : Path} {palette : Palette} {bytes : Bytes}
    (h : collect (format.convert image path palette) = .ok bytes) :
    Writes (format.convert image path palette : Writing W Unit) bytes := by
  by_cases holds : format.Holds image
  · obtain ⟨all, writes⟩ := exists_convert_writes holds path palette
    rw [(writes BoundedSink).collect_eq] at h
    rw [← Except.ok.inj h]
    exact writes W
  · rw [collect_of_not_holds holds] at h
    cases h

theorem refuses_of_collect {format : Format} {image : Image} {path : Path} {palette : Palette} {e : Error}
    (h : collect (format.convert image path palette) = .error e) (sink : W) :
    format.convert image path palette sink = .error e sink := by
  by_cases holds : format.Holds image
  · obtain ⟨all, writes⟩ := exists_convert_writes holds path palette
    rw [(writes BoundedSink).collect_eq] at h
    cases h
  · rw [collect_of_not_holds holds] at h
    rw [← Except.error.inj h]
    exact convert_of_not_holds holds path palette sink

/-- Exactly the binary formats refuse pictures, and exactly those with a side that is too long. -/
theorem collect_eq_error_iff (format : Format) (image : Image) (path : Path) (palette : Palette) (e : Error) :
    collect (format.convert image path palette) = .error e ↔
      e = .tooLarge image.width image.height ∧ (format = .rle ∨ format = .raw) ∧
        (65535 < image.width ∨ 65535 < image.height) := by
  have binary : format.isBinary = true ↔ format = .rle ∨ format = .raw := by cases format <;> decide
  have large : ¬ image.Fits ↔ 65535 < image.width ∨ 65535 < image.height := by
    unfold Image.Fits maxSide
    omega
  have refuses : ¬ format.Holds image ↔
      (format = .rle ∨ format = .raw) ∧ (65535 < image.width ∨ 65535 < image.height) := by
    rw [← binary, ← large]
    exact Classical.not_imp
  rw [← refuses]
  constructor
  · intro h
    by_cases holds : format.Holds image
    · obtain ⟨all, writes⟩ := exists_convert_writes holds path palette
      rw [(writes BoundedSink).collect_eq] at h
      cases h
    · rw [collect_of_not_holds holds] at h
      exact ⟨(Except.error.inj h).symm, holds⟩
  · rintro ⟨rfl, holds⟩
    exact collect_of_not_holds holds path palette

/-- **A sink with little room cuts a conversion off where the room ends**, and does nothing else to it: what a
sink without limit takes, a bounded one takes up to its room, and what is refused without a limit
is refused at once for any room. -/
theorem convert_bounded (format : Format) (image : Image) (path : Path) (palette : Palette) :
    (∀ e, collect (format.convert image path palette) = .error e ↔
      e = .tooLarge image.width image.height ∧ (format = .rle ∨ format = .raw) ∧
        (65535 < image.width ∨ 65535 < image.height)) ∧
    (∀ e, collect (format.convert image path palette) = .error e → ∀ room : ℕ,
      format.convert image path palette (BoundedSink.ofRoom room) = .error e (BoundedSink.ofRoom room)) ∧
    (∀ full, collect (format.convert image path palette) = .ok full → ∀ room : ℕ,
      (full.length ≤ room → ∃ sink : BoundedSink, sink.toList = full ∧
        format.convert image path palette (BoundedSink.ofRoom room) = .ok () sink) ∧
      (room < full.length → ∃ sink : BoundedSink, sink.toList = full.take room ∧
        format.convert image path palette (BoundedSink.ofRoom room) = .error (.write .full) sink)) ∧
    (Error.write .full).message = "io error: failed to write whole buffer" := by
  refine ⟨collect_eq_error_iff format image path palette, ?_, ?_, rfl⟩
  · intro e refused room
    exact refuses_of_collect refused _
  · intro full writes room
    rw [(writes_of_collect writes).eq_put]
    constructor
    · intro fits
      refine ⟨⟨full.toArray, some (room - full.length)⟩, rfl, ?_⟩
      simp only [BoundedSink.ofRoom, BoundedSink.put, if_pos fits, Array.empty_append]
    · intro short
      refine ⟨⟨(full.take room).toArray, some 0⟩, rfl, ?_⟩
      simp only [BoundedSink.ofRoom, BoundedSink.put, if_neg (Nat.not_le.mpr short), Array.empty_append]

/-- The last of six bytes does not fit into five, and a width of more than two bytes is refused. -/
theorem convert_bounded_five_bytes :
    (∃ sink : BoundedSink, sink.toList = [1, 0, 1, 0, 255] ∧
      raw.convert (Image.uniform 1 1 (Pixel.ofColor 0xFFFF)) [] Palette.panelDue (BoundedSink.ofRoom 5) =
        .error (.write .full) sink) ∧
    raw.convert (Image.uniform 65536 0 (Pixel.ofColor 0xFFFF)) [] Palette.panelDue (BoundedSink.ofRoom 5) =
      .error (.tooLarge 65536 0) (BoundedSink.ofRoom 5) := by
  obtain ⟨-, -, bounded, -⟩ := convert_bounded raw (Image.uniform 1 1 (Pixel.ofColor 0xFFFF)) [] Palette.panelDue
  obtain ⟨large, refused, -, -⟩ :=
    convert_bounded raw (Image.uniform 65536 0 (Pixel.ofColor 0xFFFF)) [] Palette.panelDue
  have written : collect (raw.convert (Image.uniform 1 1 (Pixel.ofColor 0xFFFF)) [] Palette.panelDue) =
      .ok [1, 0, 1, 0, 255, 255] := by decide +kernel
  refine ⟨(bounded _ written 5).2 (by decide), refused _ ?_ 5⟩
  exact (large _).mpr ⟨rfl, Or.inr rfl, Or.inl (by decide)⟩

end Format

end BitmapAsset

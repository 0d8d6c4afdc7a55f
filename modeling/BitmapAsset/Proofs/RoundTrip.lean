import BitmapAsset.Proofs.Decoding
import BitmapAsset.Proofs.Encoding
import BitmapAsset.Proofs.ScanOrder

/-! # Streams and pictures

Main statements:

* `Stream.decode_collect_write`: what is written for a picture that fits is read back as its size and its
  colours from the bottom row up;
* `Stream.exists_write_iff`: the byte strings that are written for some picture are the streams whose
  pairs are greedy.  Such a stream is written again for every picture that shows what it holds, and
  any other stream is not: another one that holds the same is written instead. -/

namespace BitmapAsset

/-- A picture shows what a stream holds: the size, and the colours from the bottom row up. -/
def Image.Shows (image : Image) (d : Stream.Decoded) : Prop :=
  image.width = d.width.toNat ∧ image.height = d.height.toNat ∧ image.bottomUp = d.colors.toList

namespace Stream

open BoundedSink (collect)

/-- What is written for a picture that shows the given size and colours. -/
def written (d : Decoded) : Bytes :=
  headerBytes d.width d.height ++ (pairs d.colors.toList).flatMap Pair.bytes

/-! ### What a picture shows -/

theorem fits_of_shows {image : Image} {d : Decoded} (h : image.Shows d) : image.Fits := by
  have := d.width.toNat_lt
  have := d.height.toNat_lt
  obtain ⟨hw, hh, -⟩ := h
  unfold Image.Fits maxSide
  omega

theorem exists_shown {image : Image} (h : image.Fits) : ∃ d, image.Shows d := by
  obtain ⟨hw, hh⟩ := h
  unfold maxSide at hw hh
  refine ⟨⟨UInt16.ofNat image.width, UInt16.ofNat image.height, image.bottomUp.toArray⟩, ?_, ?_, ?_⟩
  · rw [UInt16.toNat_ofNat_of_lt' (by show _ < 65536; omega)]
  · rw [UInt16.toNat_ofNat_of_lt' (by show _ < 65536; omega)]
  · rw [List.toList_toArray]

theorem exists_shows {b : Bytes} {d : Decoded} (h : decode b = .ok d) : ∃ image : Image, image.Shows d := by
  obtain ⟨l, -, ht, hc⟩ := (decode_eq_ok_iff b d).mp h
  have length : d.colors.toList.length = d.width.toNat * d.height.toNat := by
    rw [hc, length_flatMap_colors, ht]
  exact ⟨Image.ofBottomUp d.width.toNat d.height.toNat d.colors.toList, rfl, rfl,
    Image.bottomUp_ofBottomUp length⟩

/-! ### Writing and reading -/

theorem collect_write {image : Image} {d : Decoded} (h : image.Shows d) :
    collect (write image) = .ok (written d) := by
  obtain ⟨hw, hh, hc⟩ := h
  rw [(write_writes (fits_of_shows ⟨hw, hh, hc⟩)).collect_eq, Image.header, hw, hh, UInt16.ofNat_toNat,
    UInt16.ofNat_toNat, Image.scanlineColors_eq_bottomUp, hc, written, headerBytes]

theorem decode_written {image : Image} {d : Decoded} (h : image.Shows d) : decode (written d) = .ok d := by
  obtain ⟨hw, hh, hc⟩ := h
  refine (decode_eq_ok_iff _ d).mpr ⟨pairs d.colors.toList, rfl, ?_, ?_⟩
  · rw [← length_flatMap_colors, flatMap_colors_pairs, ← hc, image.length_bottomUp, hw, hh]
  · rw [flatMap_colors_pairs]

/-- **Writing a picture and reading the stream gives the size and the colours back.** -/
theorem decode_collect_write (image : Image) (h : image.Fits) :
    ∃ bytes d, collect (write image) = .ok bytes ∧ decode bytes = .ok d ∧
      d.width.toNat = image.width ∧ d.height.toNat = image.height ∧
      d.colors.toList = image.bottomUp := by
  obtain ⟨d, shows⟩ := exists_shown h
  have read := decode_written shows
  have wrote := collect_write shows
  obtain ⟨hw, hh, hc⟩ := shows
  exact ⟨written d, d, wrote, read, hw.symm, hh.symm, hc.symm⟩

/-- A picture of one colour that fills more than one run. -/
theorem decode_collect_write_long_run : (Image.uniform 16385 4 Pixel.black).Fits ∧
    ∃ bytes d, collect (write (Image.uniform 16385 4 Pixel.black)) = .ok bytes ∧
      decode bytes = .ok d ∧ d.width.toNat = 16385 ∧ d.height.toNat = 4 ∧
      d.colors.toList = (Image.uniform 16385 4 Pixel.black).bottomUp :=
  ⟨⟨by decide, by decide⟩, decode_collect_write (Image.uniform 16385 4 Pixel.black) ⟨by decide, by decide⟩⟩

/-! ### Which streams are written -/

theorem greedy_written (d : Decoded) : Greedy (bodyPairs (written d)) := by
  unfold written
  rw [bodyPairs_header]
  exact greedy_pairs d.colors.toList

theorem written_of_greedy {b : Bytes} {d : Decoded} (h : decode b = .ok d) (hg : Greedy (bodyPairs b)) :
    written d = b := by
  obtain ⟨l, rfl, -, hc⟩ := (decode_eq_ok_iff b d).mp h
  rw [bodyPairs_header] at hg
  rw [written, hc, pairs_flatMap_colors hg]

/-- **The byte strings that are written for pictures are the greedy streams**; each is written again for
every picture that shows what it holds, and of all streams only greedy ones are. -/
theorem exists_write_iff (b : Bytes) :
    ((∃ image : Image, image.Fits ∧ collect (write image) = .ok b) ↔
      (∃ d, decode b = .ok d) ∧ Greedy (bodyPairs b)) ∧
    ∀ d, decode b = .ok d → (∃ image : Image, image.Shows d) ∧
      ∀ image : Image, image.Shows d →
        (Greedy (bodyPairs b) → collect (write image) = .ok b) ∧
        (¬ Greedy (bodyPairs b) → ∃ b', b' ≠ b ∧ collect (write image) = .ok b' ∧ decode b' = .ok d) := by
  refine ⟨⟨?_, ?_⟩, ?_⟩
  · rintro ⟨image, fits, hb⟩
    obtain ⟨d, h⟩ := exists_shown fits
    rw [collect_write h] at hb
    obtain rfl := Except.ok.inj hb
    exact ⟨⟨d, decode_written h⟩, greedy_written d⟩
  · rintro ⟨⟨d, hd⟩, hg⟩
    obtain ⟨image, h⟩ := exists_shows hd
    refine ⟨image, fits_of_shows h, ?_⟩
    rw [collect_write h, written_of_greedy hd hg]
  · intro d hd
    refine ⟨exists_shows hd, ?_⟩
    intro image h
    constructor
    · intro hg
      rw [collect_write h, written_of_greedy hd hg]
    · intro hn
      refine ⟨written d, ?_, collect_write h, decode_written h⟩
      rintro rfl
      exact hn (greedy_written d)

end Stream

end BitmapAsset

import BitmapAsset.WordArray
import BitmapAsset.Proofs.Encoding
import BitmapAsset.Proofs.Literals
import BitmapAsset.Proofs.ScanOrder

/-! # Compressed text and binary output

A run writer in front of a literal writer hands it the bytes of runs, and the literal writer makes words
of them again.  What comes out is the text of the words that the run writer writes to any other sink
(`WordLiterals.writing_writeAll_writes`), so the literals of compressed text are the words of the
binary stream (`WordArray.collect_write_compressed`). -/

namespace BitmapAsset

open BoundedSink (collect)

namespace WordLiterals

variable {W : Type} [Sink W]

/-- Work on a literal writer that is put up in front of the sink, and the end of its text. -/
def writing (group : ℕ) (work : Writing (WordLiterals W) Unit) : Writing W Unit :=
  Writing.around (ofSink group) sink (do
    work
    finish)

theorem writing_writes {group : ℕ} {work : Writing (WordLiterals W) Unit} {l : Layout} {bytes : Bytes}
    (h : Emits Layout.inFront work (Layout.start group) l bytes) (hl : l.low = none) :
    Writes (writing group work) bytes := by
  have all := h.seq (finish_emits hl)
  rw [List.append_nil] at all
  show Writes (Writing.around (Layout.inFront (Layout.start group)) sink _) bytes
  exact all.writes_around fun _ _ => rfl

theorem writing_updateAll_writes (group : ℕ) (words : List UInt16) :
    Writes (writing group (updateAll words) : Writing W Unit) ((Layout.start group).text words) :=
  writing_writes (updateAll_emits _ words) (Layout.low_afterWords _ words)

/-- Work that writes the bytes of words is written as the text of the words. -/
theorem writing_writes_of_writes {group : ℕ} {work : Writing (WordLiterals W) Unit} {words : List UInt16}
    (h : Writes work (words.flatMap Word.bytes)) :
    Writes (writing group work) ((Layout.start group).text words) := by
  obtain ⟨ht, ha⟩ := Layout.bytesText_flatMap_bytes (l := Layout.start group) rfl words
  have emits := emits_of_writes h (Layout.start group)
  rw [ht, ha] at emits
  exact writing_writes emits (Layout.low_afterWords _ words)

/-- Runs are written as the text of the words of their pairs. -/
theorem writing_writeAll_writes (group : ℕ) (colors : List UInt16) :
    Writes (writing group (RunWriter.writeAll colors) : Writing W Unit)
      ((Layout.start group).text ((Stream.pairs colors).flatMap Stream.Pair.words)) := by
  apply writing_writes_of_writes
  rw [← Stream.Pair.flatMap_bytes_eq, Stream.flatMap_bytes_pairs]
  exact RunWriter.writeAll_writes colors

end WordLiterals

namespace WordArray

open WordLiterals (writing updateAll Layout)

variable {W : Type} [Sink W]

theorem writeRuns_eq (colors : List UInt16) :
    (writeRuns colors : Writing W Unit) = writing 2 (RunWriter.writeAll colors) := rfl

theorem write_compressed_writes (image : Image) (name : String) :
    Writes (write image name true : Writing W Unit)
      ((opening name image.width image.height).flatMap utf8 ++
        ((Layout.start 2).text ((Stream.pairs image.bottomUp).flatMap Stream.Pair.words) ++ utf8 closing)) := by
  have front := Writes.forM (W := W) Writes.putText (opening name image.width image.height)
  have words := WordLiterals.writing_writeAll_writes (W := W) 2 image.bottomUp
  rw [← writeRuns_eq, ← image.scanlineColors_eq_bottomUp] at words
  rw [← image.scanlineColors_eq_bottomUp]
  exact Writes.after_note _ (front.seq (words.seq (Writes.putText closing)))

/-- **Compressed text says what binary output says.** -/
theorem collect_write_compressed :
    (∀ (group : ℕ) (colors : List UInt16), ∃ words text,
      collect (RunWriter.writeAll colors) = .ok (words.flatMap Word.bytes) ∧
      collect (writing group (RunWriter.writeAll colors)) = .ok text ∧
      collect (writing group (updateAll words)) = .ok text) ∧
    ∀ (image : Image) (name : String), ∃ words body,
      words = (Stream.pairs image.bottomUp).flatMap Stream.Pair.words ∧
      collect (RunWriter.writeAll image.bottomUp) = .ok (words.flatMap Word.bytes) ∧
      collect (write image name true) =
        .ok ((opening name image.width image.height).flatMap utf8 ++ (body ++ utf8 closing)) ∧
      Word.literals body = words ∧
      (image.Fits → collect (Stream.write image) = .ok (image.header ++ words.flatMap Word.bytes)) := by
  have plain (colors : List UInt16) : collect (RunWriter.writeAll colors) =
      .ok (((Stream.pairs colors).flatMap Stream.Pair.words).flatMap Word.bytes) := by
    rw [(RunWriter.writeAll_writes colors).collect_eq, ← Stream.flatMap_bytes_pairs,
      Stream.Pair.flatMap_bytes_eq]
  constructor
  · intro group colors
    have runs := (WordLiterals.writing_writeAll_writes (W := BoundedSink) group colors).collect_eq
    have words := (WordLiterals.writing_updateAll_writes (W := BoundedSink) group
      ((Stream.pairs colors).flatMap Stream.Pair.words)).collect_eq
    exact ⟨_, _, plain colors, runs, words⟩
  · intro image name
    have text := (write_compressed_writes (W := BoundedSink) image name).collect_eq
    have literals := (Layout.start 2).literals_text ((Stream.pairs image.bottomUp).flatMap Stream.Pair.words)
    refine ⟨_, _, rfl, plain image.bottomUp, text, literals, ?_⟩
    intro fits
    rw [(Stream.write_writes fits).collect_eq, Stream.Pair.flatMap_bytes_eq,
      Image.scanlineColors_eq_bottomUp]

end WordArray

end BitmapAsset

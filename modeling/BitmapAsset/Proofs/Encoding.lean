import BitmapAsset.Stream.Writer
import BitmapAsset.Proofs.Pair
import BitmapAsset.Proofs.RunWriter

/-! # What is written as a stream

A picture that fits is written as its header and the pairs of its colours (`Stream.write_writes`), or as
its header and its colours column by column (`Stream.writeRaw_writes`), for any sink.  A picture that
does not fit is refused before anything is written. -/

namespace BitmapAsset.Stream

variable {W : Type} [Sink W]

theorem putHeader_writes {image : Image} (h : image.Fits) (remark : Event) :
    Writes (putHeader image remark : Writing W Unit) image.header := by
  have fits : ¬ ¬ image.Fits := not_not_intro h
  unfold putHeader
  rw [if_neg fits]
  exact Writes.after_note remark ((Writes.put _).seq (Writes.put _))

/-- A picture that fits is written as its header and the pairs of its colours. -/
theorem write_writes {image : Image} (h : image.Fits) :
    Writes (write image : Writing W Unit)
      (image.header ++ (pairs image.scanlineColors).flatMap Pair.bytes) := by
  rw [flatMap_bytes_pairs]
  exact (putHeader_writes h _).seq (RunWriter.writeAll_writes _)

/-- A picture that fits is written raw as its header and its colours column by column. -/
theorem writeRaw_writes {image : Image} (h : image.Fits) :
    Writes (writeRaw image : Writing W Unit)
      (image.header ++ image.columnColors.flatMap Word.bytes) :=
  (putHeader_writes h _).seq (Writes.forM (fun color => Writes.put (Word.bytes color)) _)

theorem putHeader_of_not_fits {image : Image} (h : ¬ image.Fits) (remark : Event) (sink : W) :
    putHeader image remark sink = .error (.tooLarge image.width image.height) sink := by
  unfold putHeader
  rw [if_pos h]
  rfl

theorem write_of_not_fits {image : Image} (h : ¬ image.Fits) (sink : W) :
    write image sink = .error (.tooLarge image.width image.height) sink := by
  have refused := putHeader_of_not_fits h (.streamHeader image.width image.height) sink
  simp only [write, bind, EStateM.bind, refused]

theorem writeRaw_of_not_fits {image : Image} (h : ¬ image.Fits) (sink : W) :
    writeRaw image sink = .error (.tooLarge image.width image.height) sink := by
  have refused := putHeader_of_not_fits h (.rawHeader image.width image.height) sink
  simp only [writeRaw, bind, EStateM.bind, refused]

end BitmapAsset.Stream

import BitmapAsset.Bitmap
import Mathlib.Data.Nat.Notation
import Mathlib.Tactic.SplitIfs

/-! # Headers and the bytes behind them

The headers of a bitmap file are read from its first bytes.  A reading that succeeds has seen all bytes
that it looked at, so more bytes behind the others make no difference to it (`Bmp.Reading.Local`).  This
holds of reading one byte, and one reading after another passes it on, up to the headers as a whole
(`Bmp.Header.local_read`).

With headers that ask for plain rows of three-byte pixels, a bitmap file gives a picture as soon as
all rows are there, whatever is in them (`Bitmap.exists_decode_of_rows`). -/

namespace BitmapAsset

namespace Bmp

namespace Reading

variable {α β : Type}

/-- More bytes behind those that were read make no difference. -/
def Local (r : Reading α) : Prop :=
  ∀ (data more : Array UInt8) (place : ℕ) (p : α × ℕ),
    r data place = .ok p → r (data ++ more) place = .ok p

/-! ### One after another -/

theorem local_pure (a : α) : Local (pure a) := by
  intro data more place p h
  exact h

theorem local_throw (e : BitmapError) : Local (throw e : Reading α) := by
  intro data more place p h
  cases h

theorem local_lift (result : Except BitmapError α) : Local (liftM result : Reading α) := by
  cases result with
  | ok a => exact local_pure a
  | error e => exact local_throw e

theorem Local.bind {r : Reading α} {f : α → Reading β} (hr : Local r) (hf : ∀ a, Local (f a)) :
    Local (r >>= f) := by
  intro data more place q h
  change (r data place).bind (fun p => f p.1 data p.2) = _ at h
  show (r (data ++ more) place).bind (fun p => f p.1 (data ++ more) p.2) = _
  cases first : r data place with
  | error e =>
      rw [first] at h
      cases h
  | ok p =>
      rw [first] at h
      rw [hr data more place p first]
      exact hf p.1 data more p.2 q h

theorem Local.ite {c : Prop} [Decidable c] {r s : Reading α} (hr : Local r) (hs : Local s) :
    Local (if c then r else s) := by
  split_ifs
  · exact hr
  · exact hs

theorem Local.guard {c : Prop} [Decidable c] {e : BitmapError} {f : PUnit → Reading α} (hf : Local (f ⟨⟩)) :
    Local (if c then (throw e : Reading PUnit) >>= f else f ⟨⟩) :=
  ((local_throw e).bind fun _ => hf).ite hf

/-! ### Numbers -/

theorem local_byte : Local byte := by
  intro data more place p h
  have here (data : Array UInt8) : (get : Reading ℕ) data place = .ok (place, place) := rfl
  have all (data : Array UInt8) : (read : Reading (Array UInt8)) data place = .ok (data, place) := rfl
  simp only [byte, bind, ReaderT.bind, StateT.bind, here, all, Except.bind] at h ⊢
  cases there : data[place]? with
  | none =>
      rw [there] at h
      cases h
  | some b =>
      rw [there] at h
      obtain ⟨inside, -⟩ := Array.getElem?_eq_some_iff.mp there
      rw [Array.getElem?_append_left inside, there]
      exact h

theorem local_number (n : ℕ) : Local (number n) := by
  induction n with
  | zero => exact local_pure 0
  | succ n ih => exact local_byte.bind fun _ => ih.bind fun _ => local_pure _

theorem local_skip (count : ℕ) : Local (skip count) := (local_number count).bind fun _ => local_pure ()

theorem local_signedLong : Local signedLong := (local_number 4).bind fun _ => local_pure _

end Reading

/-! ### Headers -/

namespace Header

open Reading

theorem local_readPlanes : Local readPlanes :=
  (local_number 2).bind fun _ => (local_throw _).ite (local_pure ())

theorem local_checkSides (width height : ℕ) : Local (checkSides width height) :=
  (local_throw _).ite (local_pure ())

theorem local_readSides : Local readSides :=
  local_signedLong.bind fun _ => local_signedLong.bind fun _ =>
    .guard (.guard (.guard ((local_checkSides _ _).bind fun _ => local_pure _)))

theorem local_readCore (dataOffset : ℕ) : Local (readCore dataOffset) := by
  refine (local_number 2).bind fun width => (local_number 2).bind fun height =>
    (local_checkSides width height).bind fun _ => local_readPlanes.bind fun _ => (local_number 2).bind fun bits => ?_
  dsimp only
  split
  · exact (local_pure _).bind fun _ => local_pure _
  · exact (local_pure _).bind fun _ => local_pure _
  · exact (local_pure _).bind fun _ => local_pure _
  · exact (local_pure _).bind fun _ => local_pure _
  · exact (local_throw _).bind fun _ => local_pure _

theorem local_readMasks (size bits : ℕ) : Local (readMasks size bits) :=
  (local_number 4).bind fun _ => (local_number 4).bind fun _ => (local_number 4).bind fun _ =>
    ((local_number 4).bind fun _ => local_lift _).ite ((local_pure 0).bind fun _ => local_lift _)

theorem local_readInfo (dataOffset size : ℕ) : Local (readInfo dataOffset size) := by
  refine local_readSides.bind fun sides => local_readPlanes.bind fun _ => (local_number 2).bind fun bits =>
    (local_number 4).bind fun compression => .guard ((local_lift _).bind fun plain => (local_skip 12).bind fun _ =>
      (local_number 4).bind fun colorsUsed => (local_skip 4).bind fun _ => ?_)
  cases plain with
  | some storage => exact (local_pure storage).bind fun _ => local_pure _
  | none => exact (local_readMasks size bits).bind fun _ => (local_pure _).bind fun _ => local_pure _

/-- Bytes behind the headers make no difference to them. -/
theorem local_read : Local read :=
  local_byte.bind fun _ => local_byte.bind fun _ => .guard ((local_skip 8).bind fun _ =>
    (local_number 4).bind fun dataOffset => (local_number 4).bind fun size =>
      (local_readCore dataOffset).ite ((local_readInfo dataOffset size).ite ((local_throw _).ite (local_throw _))))

end Header

end Bmp

namespace Bitmap

open Bmp

/-- Plain rows of three-byte pixels give a picture, whatever the bytes in them. -/
theorem exists_decode_of_rows {data : Array UInt8} {h : Header} {place : ℕ}
    (read : Header.read data 0 = .ok (h, place))
    (plain : h.storage = .threeBytes) (memory : h.width * h.height * 3 ≤ memoryLimit)
    (rows : h.dataOffset + rowSize h.width h.bits * h.height ≤ data.size) :
    ∃ bitmap, decode data = .ok bitmap ∧ bitmap.picture.width = h.width ∧ bitmap.picture.height = h.height := by
  have noTable : ColorTable.read h data place = .ok (#[], place) := by
    unfold ColorTable.read Header.isIndexed
    rw [plain]
    rfl
  have headers : (do
      let h ← Header.read
      return (h, ← ColorTable.read h) : Reading (Header × ColorTable)) data 0 = .ok ((h, #[]), place) := by
    show (Header.read data 0).bind _ = _
    rw [read]
    show (ColorTable.read h data place).bind _ = _
    rw [noTable]
    rfl
  have fits : ¬ memoryLimit < h.width * h.height * h.channels := by
    unfold Header.channels Header.hasAlpha
    rw [plain]
    simpa using memory
  have pixels : ∃ image,
      readPixels h #[] data = .ok image ∧ image.width = h.width ∧ image.height = h.height := by
    have complete : ¬ data.size < h.dataOffset + rowSize h.width h.bits * h.height := Nat.not_lt.mpr rows
    unfold readPixels
    rw [plain]
    simp only [if_neg complete]
    exact ⟨_, rfl, rfl, rfl⟩
  obtain ⟨image, shown, width, height⟩ := pixels
  refine ⟨⟨image, h.hasAlpha⟩, ?_, width, height⟩
  show Except.bind ((do
      let h ← Header.read
      return (h, ← ColorTable.read h) : Reading (Header × ColorTable)) data 0) _ = _
  rw [headers]
  show (if memoryLimit < h.width * h.height * h.channels then _ else _ : Except BitmapError Bitmap) = _
  rw [if_neg fits]
  show Except.bind (readPixels h #[] data) _ = _
  rw [shown]
  rfl

end Bitmap

end BitmapAsset

import BitmapAsset.Proofs.Conversion
import BitmapAsset.Proofs.RoundTrip

/-! # No stream begins another one

A stream neither says how long it is nor ends with a mark.  That its end is found all the same is due to
the header and to the pairs: if a stream begins another one, both announce the same number of pixels, and
the pairs of the one are the first pairs of the other (`Stream.Pair.prefix_of_flatMap_bytes`).  Every
pair stands for at least one pixel, so there are no further pairs (`Stream.Pair.eq_of_begins`).

Hence a stream that has lost bytes at its end, or has got some more there, is refused
(`Stream.decode_prefix_free`).  This includes what a sink with too little room holds of a picture. -/

namespace BitmapAsset.Stream

open BoundedSink (collect)

/-! ### Pairs -/

namespace Pair

theorem bytes_injective {p q : Pair} (h : p.bytes = q.bytes) : p = q := by
  have read (r : Pair) : ofWords (Word.list r.bytes) = [r] := by
    have one := list_flatMap_bytes [r]
    rw [List.flatMap_singleton] at one
    rw [one, ofWords_flatMap_words]
  have same := read p
  rw [h, read q] at same
  exact (List.singleton_inj.mp same).symm

theorem prefix_of_flatMap_bytes : ∀ {pairs more : List Pair},
    pairs.flatMap bytes <+: more.flatMap bytes → pairs <+: more
  | [], more, _ => List.nil_prefix
  | p :: pairs, [], h => by
      have short := h.length_le
      rw [List.flatMap_cons, List.length_append] at short
      change 4 + _ ≤ 0 at short
      omega
  | p :: pairs, q :: more, h => by
      obtain ⟨rest, same⟩ := h
      rw [List.flatMap_cons, List.flatMap_cons, List.append_assoc] at same
      have length : p.bytes.length = q.bytes.length := rfl
      obtain ⟨first, others⟩ := List.append_inj same length
      have ih := prefix_of_flatMap_bytes ⟨rest, others⟩
      exact List.cons_prefix_cons.mpr ⟨bytes_injective first, ih⟩

theorem eq_of_begins {pairs more : List Pair} (h : pairs <+: more) (same : total more = total pairs) :
    pairs = more := by
  obtain ⟨rest, rfl⟩ := h
  cases rest with
  | nil => exact (List.append_nil pairs).symm
  | cons p rest =>
      simp only [total, List.map_append, List.map_cons, List.sum_append, List.sum_cons, count] at same
      omega

end Pair

/-! ### Streams -/

theorem headerBytes_append_inj {w h w' h' : UInt16} {body body' : Bytes}
    (same : headerBytes w h ++ body = headerBytes w' h' ++ body') : w = w' ∧ h = h' ∧ body = body' := by
  have length : (headerBytes w h).length = (headerBytes w' h').length := rfl
  obtain ⟨headers, bodies⟩ := List.append_inj same length
  have pairs : Pair.mk w h = ⟨w', h'⟩ := Pair.bytes_injective headers
  cases pairs
  exact ⟨rfl, rfl, bodies⟩

/-- No stream begins another one. -/
theorem eq_of_begins {b b' : Bytes} {d d' : Decoded} (h : decode b = .ok d) (h' : decode b' = .ok d')
    (begins : b <+: b') : b = b' := by
  obtain ⟨pairs, rfl, count, -⟩ := (decode_eq_ok_iff b d).mp h
  obtain ⟨more, rfl, count', -⟩ := (decode_eq_ok_iff b' d').mp h'
  obtain ⟨rest, same⟩ := begins
  rw [List.append_assoc] at same
  obtain ⟨width, height, bodies⟩ := headerBytes_append_inj same
  rw [← width, ← height] at count' ⊢
  rw [Pair.eq_of_begins (Pair.prefix_of_flatMap_bytes ⟨rest, bodies⟩) (count'.trans count.symm)]

theorem exists_error {b : Bytes} (h : ∀ d, decode b ≠ .ok d) : ∃ cause, decode b = .error cause := by
  cases read : decode b with
  | ok d => exact absurd read (h d)
  | error cause => exact ⟨cause, rfl⟩

theorem decode_of_lost {b b' : Bytes} {d : Decoded} (h : decode b = .ok d) (begins : b' <+: b)
    (lost : b' ≠ b) : ∃ cause, decode b' = .error cause :=
  exists_error fun _ read => lost (eq_of_begins read h begins)

theorem decode_append {b tail : Bytes} {d : Decoded} (h : decode b = .ok d) (more : tail ≠ []) :
    ∃ cause, decode (b ++ tail) = .error cause := by
  apply exists_error
  intro d' read
  have same := eq_of_begins h read (List.prefix_append b tail)
  exact more (List.append_right_eq_self.mp same.symm)

theorem decode_of_short_room {image : Image} (fits : image.Fits) {full : Bytes}
    (written : collect (write image) = .ok full) {room : ℕ} (short : room < full.length) :
    ∃ sink, write image (BoundedSink.ofRoom room) = .error (.write .full) sink ∧
      sink.toList = full.take room ∧ ∃ cause, decode sink.toList = .error cause := by
  obtain ⟨bytes, d, collected, read, -⟩ := decode_collect_write image fits
  have same : bytes = full := Except.ok.inj (collected.symm.trans written)
  rw [same] at read
  have all := (write_writes (W := BoundedSink) fits).collect_eq
  rw [written] at all
  refine ⟨⟨(full.take room).toArray, some 0⟩, ?_, rfl, ?_⟩
  · rw [(write_writes fits).eq_put, ← Except.ok.inj all]
    simp only [BoundedSink.ofRoom, BoundedSink.put, if_neg (Nat.not_le.mpr short), Array.empty_append]
  · apply decode_of_lost read (List.take_prefix room full)
    intro whole
    have length := congrArg List.length whole
    rw [List.length_take] at length
    omega

/-- **Streams are prefix-free**: of a stream no strict prefix is accepted, and nothing with bytes behind it.  So
of a picture that fits no part that a sink with too little room holds is taken for a picture. -/
theorem decode_prefix_free :
    (∀ b d, decode b = .ok d →
      (∀ b', b' <+: b → b' ≠ b → ∃ cause, decode b' = .error cause) ∧
      ∀ tail, tail ≠ [] → ∃ cause, decode (b ++ tail) = .error cause) ∧
    ∀ image : Image, image.Fits → ∃ full, collect (write image) = .ok full ∧
      ∀ room, room < full.length → ∃ sink,
        write image (BoundedSink.ofRoom room) = .error (.write .full) sink ∧ sink.toList = full.take room ∧
        ∃ cause, decode sink.toList = .error cause := by
  constructor
  · intro b d read
    constructor
    · intro b' begins lost
      exact decode_of_lost read begins lost
    · intro tail more
      exact decode_append read more
  · intro image fits
    have written := (write_writes (W := BoundedSink) fits).collect_eq
    refine ⟨_, written, ?_⟩
    intro room short
    exact decode_of_short_room fits written short

/-- Two pixels of one colour, with half of the pair, with half a pair more, and in front of too small a sink. -/
theorem decode_prefix_free_two_pixels :
    (∃ cause, decode [2, 0, 1, 0, 1, 0] = .error cause) ∧
    (∃ cause, decode ([2, 0, 1, 0, 1, 0, 7, 0] ++ [0, 0]) = .error cause) ∧
    ∃ full, collect (write (Image.uniform 2 1 (Pixel.ofColor 7))) = .ok full ∧
      ∀ room, room < full.length → ∃ sink,
        write (Image.uniform 2 1 (Pixel.ofColor 7)) (BoundedSink.ofRoom room) = .error (.write .full) sink ∧
        sink.toList = full.take room ∧ ∃ cause, decode sink.toList = .error cause := by
  obtain ⟨streams, pictures⟩ := decode_prefix_free
  have read : decode [2, 0, 1, 0, 1, 0, 7, 0] = .ok ⟨2, 1, #[7, 7]⟩ := by decide
  obtain ⟨lost, more⟩ := streams _ _ read
  exact ⟨lost _ (by decide) (by decide), more _ (by decide),
    pictures (Image.uniform 2 1 (Pixel.ofColor 7)) (by decide)⟩

end BitmapAsset.Stream

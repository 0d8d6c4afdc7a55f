import BitmapAsset.Event

/-! # Sinks

A sink takes bytes.  It may refuse: then it keeps what it took so far, the error says why, and the
work goes on from the state that is left, if it goes on at all.  Hence an action on a sink, or on
anything that stands in front of one, is a state transformer that keeps the state when it fails
(`Writing`).  A sink also hears the remarks of those who write to it (`Sink.note`) and may ignore
them.

`BoundedSink` is a sink in memory that takes a limited number of bytes.  Of a write that does not fit it
takes what fits.  It does not matter how a byte string is cut into writes (`BoundedSink.put_append`), and
`BoundedSink.collect` is what an action writes when there is no limit. -/

namespace BitmapAsset

/-- An action on a state of type `W` that may fail and then leaves a state too. -/
abbrev Writing (W : Type) := EStateM Error W

/-- Something that takes bytes and hears remarks. -/
class Sink (W : Type) where
  /-- Takes all the bytes, or fails with some of them taken. -/
  put : Bytes → Writing W Unit
  /-- Passes on whatever was held back. -/
  flush : Writing W Unit
  /-- Hears a remark. -/
  note : Event → W → W

namespace Writing

/-- Takes bytes. -/
@[inline] def put {W : Type} [Sink W] (bytes : Bytes) : Writing W Unit := Sink.put bytes

/-- Takes a text. -/
@[inline] def putText {W : Type} [Sink W] (text : String) : Writing W Unit := Sink.put (utf8 text)

/-- Takes byte strings in order, up to the first that is refused. -/
@[inline] def putAll {W : Type} [Sink W] (pieces : List Bytes) : Writing W Unit :=
  pieces.forM Sink.put

/-- Makes a remark. -/
@[inline] def note {W : Type} [Sink W] (event : Event) : Writing W Unit :=
  modify (Sink.note event)

/-- Works on a state of type `S` that is put up around a sink and taken down again, whether the work
succeeds or fails. -/
@[inline] def around {S W α : Type} (wrap : W → S) (unwrap : S → W) (work : Writing S α) :
    Writing W α := fun sink =>
  match work (wrap sink) with
  | .ok a s => .ok a (unwrap s)
  | .error e s => .error e (unwrap s)

end Writing

/-! ### A sink in memory -/

/-- The bytes taken so far, and how many more are taken; no limit where `room` is `none`. -/
structure BoundedSink where
  written : Array UInt8 := #[]
  room : Option Nat := none
deriving DecidableEq, Inhabited

namespace BoundedSink

/-- Takes the bytes as far as there is room, and fails if that is not all of them. -/
def put (bytes : Bytes) : Writing BoundedSink Unit
  | ⟨written, none⟩ => .ok () ⟨written ++ bytes.toArray, none⟩
  | ⟨written, some room⟩ =>
    if bytes.length ≤ room then .ok () ⟨written ++ bytes.toArray, some (room - bytes.length)⟩
    else .error (.write .full) ⟨written ++ (bytes.take room).toArray, some 0⟩

instance : Sink BoundedSink where
  put := put
  flush := pure ()
  note _ sink := sink

/-- The bytes taken so far, in order. -/
def toList (sink : BoundedSink) : Bytes := sink.written.toList

/-- Everything that an action writes to an empty sink without limit, if it succeeds. -/
def collect (action : Writing BoundedSink Unit) : Except Error Bytes :=
  match action ⟨#[], none⟩ with
  | .ok _ sink => .ok sink.toList
  | .error e _ => .error e

/-- Taking nothing changes nothing and never fails. -/
theorem put_nil : put [] = pure () := by
  funext ⟨written, room⟩
  cases room with
  | none => simp [put, pure, EStateM.pure]
  | some room => simp [put, pure, EStateM.pure]

/-- Taking two byte strings one after the other is taking them at once. -/
theorem put_append (a b : Bytes) : put (a ++ b) = (put a >>= fun _ => put b) := by
  funext ⟨written, room⟩
  cases room with
  | none => simp [put, bind, EStateM.bind]
  | some room =>
    by_cases ha : a.length ≤ room
    · by_cases hb : a.length + b.length ≤ room
      · have hb' : b.length ≤ room - a.length := by omega
        simp [put, bind, EStateM.bind, ha, hb, hb', Nat.sub_sub]
      · have hb' : ¬ b.length ≤ room - a.length := by omega
        simp [put, bind, EStateM.bind, ha, hb, hb', List.take_append, List.take_of_length_le ha]
    · have hb : ¬ a.length + b.length ≤ room := by omega
      have hr : room - a.length = 0 := by omega
      simp [put, bind, EStateM.bind, ha, hb, List.take_append, hr]

end BoundedSink

end BitmapAsset

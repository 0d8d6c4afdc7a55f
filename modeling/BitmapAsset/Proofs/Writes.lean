import BitmapAsset.Sink

/-! # What an action writes

`Writes f bytes` says that the action `f` consists of writes and remarks, and that the writes hand
`bytes` to the sink in order.  It says so for every sink: what becomes of the bytes is a matter of
the sink.  A sink in memory cannot tell such an action from a single write (`Writes.eq_put`), so
without a limit it ends up with exactly the bytes (`Writes.collect_eq`).

The writers in this library stand in front of a sink and hold a state of their own.  `Emits wrap work
a b bytes` says that `work`, begun in the state `a`, writes `bytes` to the sink behind and ends in the
state `b`; if the sink refuses, `work` stops with the same error.  Such statements follow one another
(`Emits.seq`), and a writer that is put up around a sink and taken down again just writes
(`Emits.writes_around`). -/

namespace BitmapAsset

/-- An action that writes bytes, in any number of pieces, and makes remarks. -/
inductive Writes {W : Type} [Sink W] : Writing W Unit → Bytes → Prop
  | done : Writes (pure ()) []
  | put (bytes : Bytes) : Writes (Sink.put bytes) bytes
  | note (event : Event) : Writes (Writing.note event) []
  | seq {f g : Writing W Unit} {a b : Bytes} :
      Writes f a → Writes g b → Writes (f >>= fun _ => g) (a ++ b)

namespace Writes

variable {W : Type} [Sink W]

theorem after_note (event : Event) {f : Writing W Unit} {bytes : Bytes} (h : Writes f bytes) :
    Writes (Writing.note event >>= fun _ => f) bytes := (note event).seq h

theorem putText (text : String) : Writes (Writing.putText text : Writing W Unit) (utf8 text) :=
  put (utf8 text)

theorem forM {α : Type} {f : α → Writing W Unit} {out : α → Bytes} (h : ∀ a, Writes (f a) (out a))
    (l : List α) : Writes (l.forM f) (l.flatMap out) := by
  induction l with
  | nil => exact done
  | cons a l ih => exact (h a).seq ih

theorem putAll (pieces : List Bytes) : Writes (Writing.putAll pieces : Writing W Unit) pieces.flatten := by
  have h := forM (W := W) (fun piece : Bytes => put piece) pieces
  rwa [List.flatMap_id'] at h

end Writes

/-! ### In memory -/

/-- A sink in memory cannot tell in how many pieces the bytes came. -/
theorem Writes.eq_put {f : Writing BoundedSink Unit} {bytes : Bytes} (h : Writes f bytes) :
    f = BoundedSink.put bytes := by
  induction h with
  | done => exact BoundedSink.put_nil.symm
  | put bytes => rfl
  | note event => exact BoundedSink.put_nil.symm
  | seq _ _ ihf ihg => rw [ihf, ihg, BoundedSink.put_append]

theorem Writes.collect_eq {f : Writing BoundedSink Unit} {bytes : Bytes} (h : Writes f bytes) :
    BoundedSink.collect f = .ok bytes := by
  rw [h.eq_put]
  simp [BoundedSink.collect, BoundedSink.put, BoundedSink.toList]

/-! ### Work on the members of a list -/

namespace Writing

variable {W α : Type} {f : α → Writing W Unit} {a : α} {w w' : W}

theorem forM_of_ok (h : f a w = .ok () w') (l : List α) : (a :: l).forM f w = l.forM f w' := by
  show EStateM.bind (f a) _ w = _
  simp only [EStateM.bind, h]

theorem forM_of_error {e : Error} (h : f a w = .error e w') (l : List α) :
    (a :: l).forM f w = .error e w' := by
  show EStateM.bind (f a) _ w = _
  simp only [EStateM.bind, h]

theorem forM_append_of_ok {l : List α} (h : l.forM f w = .ok () w') (l' : List α) :
    (l ++ l').forM f w = l'.forM f w' := by
  induction l generalizing w with
  | nil =>
      cases h
      rfl
  | cons a l ih =>
      cases first : f a w with
      | ok _ mid =>
          rw [forM_of_ok first] at h
          rw [List.cons_append, forM_of_ok first, ih h]
      | error e mid =>
          rw [forM_of_error first] at h
          cases h

/-! ### What work leaves behind -/

/-- The state that work leaves behind, whether it succeeds or not. -/
def left {β : Type} (work : Writing W β) (w : W) : W :=
  match work w with
  | .ok _ w' | .error _ w' => w'

theorem left_of_ok {β : Type} {work : Writing W β} {b : β} (h : work w = .ok b w') : left work w = w' := by
  rw [left, h]

theorem left_of_error {β : Type} {work : Writing W β} {e : Error} (h : work w = .error e w') :
    left work w = w' := by
  rw [left, h]

theorem left_seq (R : W → W → Prop) (trans : ∀ {a b c}, R a b → R b c → R a c) {f g : Writing W Unit}
    (hf : ∀ w, R w (left f w)) (hg : ∀ w, R w (left g w)) (w : W) : R w (left (f >>= fun _ => g) w) := by
  have first := hf w
  unfold left at first ⊢
  simp only [bind, EStateM.bind]
  cases hfw : f w with
  | ok _ w' =>
      rw [hfw] at first
      exact trans first (hg w')
  | error e w' =>
      rw [hfw] at first
      exact first

end Writing

/-! ### Writers in front of a sink -/

section front

variable {σ S W : Type} {wrap : σ → W → S}

/-- `work`, begun in the state `a`, does to the sink behind what `inner` does.  It ends in the state
`b`, or fails together with `inner`. -/
def Carries (wrap : σ → W → S) (work : Writing S Unit) (a b : σ) (inner : Writing W Unit) : Prop :=
  ∀ sink,
    (∃ sink', inner sink = .ok () sink' ∧ work (wrap a sink) = .ok () (wrap b sink')) ∨
    (∃ e sink' c, inner sink = .error e sink' ∧ work (wrap a sink) = .error e (wrap c sink'))

theorem Carries.seq {f g : Writing S Unit} {a b c : σ} {inner outer : Writing W Unit}
    (hf : Carries wrap f a b inner) (hg : Carries wrap g b c outer) :
    Carries wrap (f >>= fun _ => g) a c (inner >>= fun _ => outer) := by
  intro sink
  simp only [bind, EStateM.bind]
  rcases hf sink with ⟨mid, hi, hw⟩ | ⟨e, mid, q, hi, hw⟩
  · rw [hi, hw]
    exact hg mid
  · rw [hi, hw]
    exact Or.inr ⟨e, mid, q, rfl, rfl⟩

variable [Sink W]

/-- `work`, begun in the state `a`, writes `bytes` to the sink behind and ends in the state `b`. -/
def Emits (wrap : σ → W → S) (work : Writing S Unit) (a b : σ) (bytes : Bytes) : Prop :=
  ∃ inner, Writes inner bytes ∧ Carries wrap work a b inner

namespace Emits

theorem seq {f g : Writing S Unit} {a b c : σ} {x y : Bytes} (hf : Emits wrap f a b x)
    (hg : Emits wrap g b c y) : Emits wrap (f >>= fun _ => g) a c (x ++ y) := by
  obtain ⟨inner, wf, cf⟩ := hf
  obtain ⟨outer, wg, cg⟩ := hg
  exact ⟨_, wf.seq wg, cf.seq cg⟩

theorem of_eq {f g : Writing S Unit} {a b : σ} {bytes : Bytes}
    (h : ∀ sink, f (wrap a sink) = g (wrap a sink)) (hg : Emits wrap g a b bytes) :
    Emits wrap f a b bytes := by
  obtain ⟨inner, hw, hc⟩ := hg
  refine ⟨inner, hw, ?_⟩
  intro sink
  rw [h]
  exact hc sink

theorem move {work : Writing S Unit} {a b : σ}
    (h : ∀ sink, work (wrap a sink) = .ok () (wrap b sink)) : Emits wrap work a b [] :=
  ⟨pure (), .done, fun sink => Or.inl ⟨sink, rfl, h sink⟩⟩

theorem pure (a : σ) : Emits wrap (Pure.pure ()) a a [] := move fun _ => rfl

theorem behind {work : Writing S Unit} {a : σ} {inner : Writing W Unit} {bytes : Bytes}
    (hw : Writes inner bytes)
    (h : ∀ sink, work (wrap a sink) =
      match inner sink with
      | .ok u sink => .ok u (wrap a sink)
      | .error e sink => .error e (wrap a sink)) : Emits wrap work a a bytes := by
  refine ⟨inner, hw, ?_⟩
  intro sink
  rw [h]
  cases hi : inner sink with
  | ok u sink' => exact Or.inl ⟨sink', rfl, rfl⟩
  | error e sink' => exact Or.inr ⟨e, sink', a, rfl, rfl⟩

theorem writes_around {work : Writing S Unit} {a b : σ} {bytes : Bytes} {unwrap : S → W}
    (hu : ∀ c sink, unwrap (wrap c sink) = sink) (h : Emits wrap work a b bytes) :
    Writes (Writing.around (wrap a) unwrap work) bytes := by
  obtain ⟨inner, hw, hc⟩ := h
  have same : Writing.around (wrap a) unwrap work = inner := by
    funext sink
    rcases hc sink with ⟨sink', hi, hr⟩ | ⟨e, sink', c, hi, hr⟩
    · simp only [Writing.around, hr, hi, hu]
    · simp only [Writing.around, hr, hi, hu]
  rw [same]
  exact hw

end Emits

end front

theorem Emits.unlimited {σ S : Type} {wrap : σ → BoundedSink → S} {work : Writing S Unit} {a b : σ}
    {bytes : Bytes} (h : Emits wrap work a b bytes) (written : Array UInt8) :
    work (wrap a ⟨written, none⟩) = .ok () (wrap b ⟨written ++ bytes.toArray, none⟩) := by
  obtain ⟨inner, writes, carries⟩ := h
  obtain rfl := writes.eq_put
  rcases carries ⟨written, none⟩ with ⟨sink, taken, done⟩ | ⟨e, sink, c, refused, -⟩
  · cases taken
    exact done
  · cases refused

end BitmapAsset

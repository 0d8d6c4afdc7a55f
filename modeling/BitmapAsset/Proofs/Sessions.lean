import BitmapAsset.Proofs.NibbleLayout
import BitmapAsset.Proofs.RunWriter

/-! # Sessions with refusals

A session offers values to a writer, one after the other, while the room in the sink behind it comes and
goes.  When the sink refuses, the same value may be offered again, or another one.  `Session.play` keeps a
log of the values that were taken and of those that were refused, each with the bytes that went to the
sink meanwhile.

The run writer and the nibble writer take a value as a whole or not at all: if the sink takes all bytes
of the value, the state of the writer moves on, and if it takes only a part of them, the state stays
what it was (`OneWrite`).  One step of a session keeps this up (`Session.Steady.step`), hence so do
all of them (`Session.Steady.play`).  So nothing is lost and nothing is written twice
(`Session.play_resumes`): without the parts that refused calls left behind, the sink holds what it would
hold if only the values that were taken had been offered, to a sink without limit. -/

namespace BitmapAsset

open BoundedSink (collect)

namespace BoundedSink

/-- Some of the bytes were added to a sink, but not all. -/
def TookPart (bytes : Bytes) (before after : BoundedSink) : Prop :=
  ∃ part, part <+: bytes ∧ part ≠ bytes ∧ after.toList = before.toList ++ part

theorem not_tookPart_nil (before after : BoundedSink) : ¬ TookPart [] before after := by
  rintro ⟨part, starts, differs, -⟩
  exact differs (List.prefix_nil.mp starts)

theorem put_cases (bytes : Bytes) (sink : BoundedSink) :
    (∃ sink', put bytes sink = .ok () sink' ∧ sink'.toList = sink.toList ++ bytes) ∨
      ∃ e sink', put bytes sink = .error e sink' ∧ TookPart bytes sink sink' := by
  obtain ⟨written, room⟩ := sink
  cases room with
  | none => exact Or.inl ⟨_, rfl, by simp [toList]⟩
  | some room =>
      by_cases fits : bytes.length ≤ room
      · refine Or.inl ⟨⟨written ++ bytes.toArray, some (room - bytes.length)⟩, ?_, by simp [toList]⟩
        simp only [put, if_pos fits]
      · refine Or.inr ⟨.write .full, ⟨written ++ (bytes.take room).toArray, some 0⟩, ?_, bytes.take room,
          List.take_prefix room bytes, ?_, by simp [toList]⟩
        · simp only [put, if_neg fits]
        · intro all
          have length := congrArg List.length all
          rw [List.length_take] at length
          omega

end BoundedSink

/-! ### All or nothing -/

section
variable {σ S : Type} {wrap : σ → BoundedSink → S}

/-- `work`, begun in the state `a`, is one write of `bytes` to the sink behind.  It ends in the state `b`;
where the sink refuses, it fails and the state is `a` still. -/
def OneWrite (wrap : σ → BoundedSink → S) (work : Writing S Unit) (a b : σ) (bytes : Bytes) : Prop :=
  ∀ sink, work (wrap a sink) =
    match BoundedSink.put bytes sink with
    | .ok _ sink' => .ok () (wrap b sink')
    | .error e sink' => .error e (wrap a sink')

namespace OneWrite

variable {work : Writing S Unit} {a b : σ} {bytes : Bytes}

theorem of_emits (state : S → σ) (h : Emits wrap work a b bytes) (hs : ∀ c sink, state (wrap c sink) = c)
    (keeps : ∀ sink e s, work (wrap a sink) = .error e s → state s = a) : OneWrite wrap work a b bytes := by
  obtain ⟨inner, writes, carries⟩ := h
  obtain rfl := writes.eq_put
  intro sink
  rcases carries sink with ⟨sink', hp, hw⟩ | ⟨e, sink', c, hp, hw⟩
  · rw [hp, hw]
  · have same := keeps sink e _ hw
    rw [hs] at same
    rw [hp, hw, same]

/-- Work that is one write succeeds and adds the bytes, or fails and adds a part of them. -/
theorem cases (h : OneWrite wrap work a b bytes) (sink : BoundedSink) :
    (∃ sink', work (wrap a sink) = .ok () (wrap b sink') ∧ sink'.toList = sink.toList ++ bytes) ∨
      ∃ e sink', work (wrap a sink) = .error e (wrap a sink') ∧ BoundedSink.TookPart bytes sink sink' := by
  have write := h sink
  rcases BoundedSink.put_cases bytes sink with ⟨sink', hp, all⟩ | ⟨e, sink', hp, part⟩
  · rw [hp] at write
    exact Or.inl ⟨sink', write, all⟩
  · rw [hp] at write
    exact Or.inr ⟨e, sink', write, part⟩

theorem of_ok (h : OneWrite wrap work a b bytes) {sink : BoundedSink} {s : S}
    (done : work (wrap a sink) = .ok () s) :
    ∃ sink', s = wrap b sink' ∧ sink'.toList = sink.toList ++ bytes := by
  rcases h.cases sink with ⟨sink', ok, all⟩ | ⟨e, sink', failed, -⟩
  · rw [ok] at done
    cases done
    exact ⟨sink', rfl, all⟩
  · rw [failed] at done
    cases done

theorem of_error (h : OneWrite wrap work a b bytes) {sink : BoundedSink} {e : Error} {s : S}
    (stopped : work (wrap a sink) = .error e s) :
    ∃ sink', s = wrap a sink' ∧ BoundedSink.TookPart bytes sink sink' := by
  rcases h.cases sink with ⟨sink', ok, -⟩ | ⟨e', sink', failed, part⟩
  · rw [ok] at stopped
    cases stopped
  · rw [failed] at stopped
    cases stopped
    exact ⟨sink', rfl, part⟩

theorem unlimited (h : OneWrite wrap work a b bytes) (written : Array UInt8) :
    work (wrap a ⟨written, none⟩) = .ok () (wrap b ⟨written ++ bytes.toArray, none⟩) := h ⟨written, none⟩

end OneWrite

end

namespace RunWriter

variable {W : Type} [Sink W]

theorem update_of_not_extends {color : UInt16} {run : Run} (sink : W) (h : ¬ run.Extends color) :
    ∃ sink',
      update color ⟨some run, sink⟩ = (writePending >>= fun _ => start color) ⟨some run, sink'⟩ := by
  have h' : ¬ (run.color = color ∧ run.count < Run.maxCount) := h
  have branch : update color ⟨some run, sink⟩ = (do
      if run.count = Run.maxCount then
        onSink (Writing.note (.runCut run.count))
      writePending
      start color) ⟨some run, Sink.note (.color color) sink⟩ := by
    show (if run.color = color ∧ run.count < Run.maxCount then _ else _ : Writing (RunWriter W) Unit) _ = _
    rw [if_neg h']
  rw [branch]
  by_cases full : run.count = Run.maxCount
  · simp only [if_pos full]
    exact ⟨_, rfl⟩
  · simp only [if_neg full]
    exact ⟨_, rfl⟩

/-- A colour that is refused leaves the pending run as it was, whatever the sink is. -/
theorem pending_of_update_error {color : UInt16} {e : Error} {w w' : RunWriter W}
    (h : update color w = .error e w') : w'.pending = w.pending := by
  obtain ⟨pending, sink⟩ := w
  cases pending with
  | none =>
      rw [update_of_none] at h
      cases h
  | some run =>
      by_cases grows : run.Extends color
      · rw [update_of_extends sink grows] at h
        cases h
      · obtain ⟨sink', same⟩ := update_of_not_extends sink grows
        rw [same] at h
        simp only [bind, EStateM.bind, writePending_of_some] at h
        cases written : Sink.put run.bytes (Sink.note (.runWritten run) sink') with
        | ok _ k =>
            rw [written] at h
            cases h
        | error e' k =>
            rw [written] at h
            cases h
            rfl

theorem pending_of_finish_error {e : Error} {w w' : RunWriter W} (h : finish w = .error e w') :
    w'.pending = w.pending := by
  obtain ⟨pending, sink⟩ := w
  have branch : finish ⟨pending, sink⟩ = writePending ⟨pending, Sink.note (.lastRun pending) sink⟩ := rfl
  rw [branch] at h
  cases pending with
  | none =>
      rw [writePending_of_none] at h
      cases h
  | some run =>
      rw [writePending_of_some] at h
      cases written : Sink.put run.bytes (Sink.note (.runWritten run) (Sink.note (.lastRun (some run)) sink)) with
      | ok _ k =>
          rw [written] at h
          cases h
      | error e' k =>
          rw [written] at h
          cases h
          rfl

/-- Where at most one run is to be written, and this is the pending one, a part of it is a part of the pending
run. -/
theorem exists_tookPart {pending : Option Run} {runs : List Run} (h : ∀ r ∈ runs, pending = some r)
    (one : runs.length ≤ 1) {before after : BoundedSink}
    (part : BoundedSink.TookPart (runs.flatMap Run.bytes) before after) :
    ∃ r, pending = some r ∧ BoundedSink.TookPart r.bytes before after := by
  match runs, one with
  | [], _ => exact absurd part (BoundedSink.not_tookPart_nil before after)
  | [r], _ =>
      rw [List.flatMap_singleton] at part
      exact ⟨r, h r (List.mem_singleton_self r), part⟩

theorem update_oneWrite (pending : Option Run) (color : UInt16) :
    OneWrite mk (update color) pending (some (Run.after pending color))
      ((Run.completed pending color).flatMap Run.bytes) :=
  .of_emits RunWriter.pending (update_emits pending color) (fun _ _ => rfl)
    fun _ _ _ failed => pending_of_update_error failed

theorem finish_oneWrite (pending : Option Run) :
    OneWrite mk finish pending none (pending.toList.flatMap Run.bytes) :=
  .of_emits RunWriter.pending (finish_emits pending) (fun _ _ => rfl)
    fun _ _ _ failed => pending_of_finish_error failed

end RunWriter

namespace NibbleLiterals

open Writing (left)

section
variable {W : Type}

theorem nibbles_left_onSink {α : Type} (action : Writing W α) (w : NibbleLiterals W) :
    (left (onSink action) w).nibbles = w.nibbles := by
  obtain ⟨n, sink⟩ := w
  cases h : action sink <;> simp only [left, onSink, h]

theorem nibbles_left_seq {f g : Writing (NibbleLiterals W) Unit}
    (hf : ∀ w, (left f w).nibbles = w.nibbles) (hg : ∀ w, (left g w).nibbles = w.nibbles)
    (w : NibbleLiterals W) : (left (f >>= fun _ => g) w).nibbles = w.nibbles :=
  Writing.left_seq (fun a b : NibbleLiterals W => b.nibbles = a.nibbles) (fun ab bc => Eq.trans bc ab) hf hg w

end

variable {W : Type} [Sink W]

theorem nibbles_left_separate (w : NibbleLiterals W) : (left separate w).nibbles = w.nibbles := by
  have text (s : String) (w : NibbleLiterals W) : (left (onSink (Writing.putText s)) w).nibbles = w.nibbles :=
    nibbles_left_onSink _ w
  show (left (if w.nibbles % 2 = 0 then
      (do
        if w.nibbles ≠ 0 then
          onSink (Writing.putText ", ")
          if w.nibbles % perLine = 0 then
            onSink (Writing.putText "\n\t")
        onSink (Writing.putText "0x"))
    else pure ()) w).nibbles = _
  split_ifs
  · exact nibbles_left_seq (text _) (nibbles_left_seq (text _) (text _)) w
  · exact nibbles_left_seq (text _) (text _) w
  · exact text _ w
  · rfl

/-- A nibble that is refused leaves the count as it was, whatever the sink is. -/
theorem nibbles_of_update_error {nibble : UInt8} {e : Error} {w w' : NibbleLiterals W}
    (h : update nibble w = .error e w') : w'.nibbles = w.nibbles := by
  have same := nibbles_left_seq nibbles_left_separate (nibbles_left_onSink (Writing.put (digit nibble))) w
  have split : update nibble w =
      EStateM.bind (separate >>= fun _ => onSink (Writing.put (digit nibble))) (fun _ => count) w := by
    show _ = (_ >>= fun _ => count : Writing (NibbleLiterals W) Unit) w
    rw [bind_assoc]
    rfl
  rw [split, EStateM.bind] at h
  unfold left at same
  cases written :
      (separate >>= fun _ => onSink (Writing.put (digit nibble)) : Writing (NibbleLiterals W) Unit) w with
  | ok _ w₁ =>
      rw [written] at h
      cases h
  | error e₁ w₁ =>
      rw [written] at h same
      cases h
      exact same

theorem nibbles_of_finish_error {e : Error} {w w' : NibbleLiterals W} (h : finish w = .error e w') :
    w'.nibbles = w.nibbles := by
  have same : (left finish w).nibbles = w.nibbles := by
    show (left (if w.nibbles % 2 = 1 then
        (do
          onSink (Writing.note (.nibblePadded w.nibbles))
          onSink (Writing.putText "0"))
      else pure ()) w).nibbles = _
    split_ifs
    · exact nibbles_left_seq (nibbles_left_onSink _) (nibbles_left_onSink _) w
    · rfl
  rw [left, h] at same
  exact same

theorem update_oneWrite (n : ℕ) (nibble : UInt8) :
    OneWrite mk (update nibble) n (n + 1) (front n ++ digit nibble) :=
  .of_emits NibbleLiterals.nibbles (update_emits n nibble) (fun _ _ => rfl)
    fun _ _ _ failed => nibbles_of_update_error failed

theorem finish_oneWrite (n : ℕ) : OneWrite mk finish n n (padding n) :=
  .of_emits NibbleLiterals.nibbles (finish_emits n) (fun _ _ => rfl)
    fun _ _ _ failed => nibbles_of_finish_error failed

end NibbleLiterals

/-! ### Sessions -/

namespace Session

/-- A writer of values of type `α` in front of a sink in memory: its own state, of type `σ`, and the sink. -/
structure Writer (σ α S : Type) where
  inFront : σ → BoundedSink → S
  state : S → σ
  sink : S → BoundedSink
  update : α → Writing S Unit
  state_inFront : ∀ a k, state (inFront a k) = a := by exact fun _ _ => rfl
  sink_inFront : ∀ a k, sink (inFront a k) = k := by exact fun _ _ => rfl

/-- What happens in a session: a value is offered, or the sink has so much room from now on. -/
inductive Step (α : Type) where
  | offer (value : α)
  | room (room : Option ℕ)
deriving DecidableEq, Repr

/-- What came of a step: for a value, whether it was taken, and the bytes that went to the sink. -/
inductive Entry (α : Type) where
  | taken (value : α) (out : Bytes)
  | refused (value : α) (out : Bytes)
  | room (room : Option ℕ)
deriving DecidableEq, Repr

/-- The bytes that a step put in the sink. -/
def Entry.out {α : Type} : Entry α → Bytes
  | taken _ out | refused _ out => out
  | room _ => []

section
variable {σ α S : Type}

/-- The values that were taken, in order. -/
def accepted (log : List (Entry α)) : List α :=
  log.flatMap fun
    | .taken value _ => [value]
    | .refused .. | .room _ => []

/-- What the sink holds of a session without the parts that refused calls left behind. -/
def kept (log : List (Entry α)) : Bytes :=
  log.flatMap fun
    | .taken _ out => out
    | .refused .. | .room _ => []

/-- The bytes that were added to a sink. -/
def added (before after : BoundedSink) : Bytes := after.toList.drop before.toList.length

/-- Takes one step with a writer. -/
def step (w : Writer σ α S) : Step α → S → Entry α × S
  | .offer value, s =>
    match w.update value s with
    | .ok _ s' => (.taken value (added (w.sink s) (w.sink s')), s')
    | .error _ s' => (.refused value (added (w.sink s) (w.sink s')), s')
  | .room room, s => (.room room, w.inFront (w.state s) { w.sink s with room := room })

/-- Takes steps in order; failures do not end a session. -/
def play (w : Writer σ α S) : List (Step α) → S → List (Entry α) × S
  | [], s => ([], s)
  | first :: rest, s =>
    let (entry, s') := step w first s
    let (log, s'') := play w rest s'
    (entry :: log, s'')

/-- The bytes of values, one after the other. -/
def outs (next : σ → α → σ) (out : σ → α → Bytes) : σ → List α → Bytes
  | _, [] => []
  | a, value :: rest => out a value ++ outs next out (next a value) rest

/-- Each value is one write of its bytes, and moves the state on. -/
def Steady (w : Writer σ α S) (next : σ → α → σ) (out : σ → α → Bytes) : Prop :=
  ∀ a value, OneWrite w.inFront (w.update value) a (next a value) (out a value)

theorem added_eq {before after : BoundedSink} {bytes : Bytes} (h : after.toList = before.toList ++ bytes) :
    added before after = bytes := by
  rw [added, h, List.drop_left]

/-- A log that leads from the state `a` in front of `sink` to the state `b` in front of `sink'`: the values that
were taken move the state on, all bytes went to the sink, and the bytes of calls that succeeded are those of
the values that were taken. -/
structure Leads (next : σ → α → σ) (out : σ → α → Bytes) (log : List (Entry α)) (a : σ)
    (sink : BoundedSink) (b : σ) (sink' : BoundedSink) : Prop where
  state_eq : b = (accepted log).foldl next a
  sink_eq : sink'.toList = sink.toList ++ log.flatMap Entry.out
  kept_eq : kept log = outs next out a (accepted log)

variable {w : Writer σ α S} {next : σ → α → σ} {out : σ → α → Bytes}

theorem outs_append (a : σ) (values more : List α) :
    outs next out a (values ++ more) = outs next out a values ++ outs next out (values.foldl next a) more := by
  induction values generalizing a with
  | nil => rfl
  | cons value rest ih => rw [List.cons_append, outs, outs, ih, List.append_assoc, List.foldl_cons]

theorem Leads.append {log more : List (Entry α)} {a b c : σ} {sink mid sink' : BoundedSink}
    (first : Leads next out log a sink b mid) (rest : Leads next out more b mid c sink') :
    Leads next out (log ++ more) a sink c sink' := by
  have values : accepted (log ++ more) = accepted log ++ accepted more := List.flatMap_append
  have bytes : kept (log ++ more) = kept log ++ kept more := List.flatMap_append
  refine ⟨?_, ?_, ?_⟩
  · rw [rest.state_eq, first.state_eq, values, List.foldl_append]
  · rw [rest.sink_eq, first.sink_eq, List.flatMap_append, List.append_assoc]
  · rw [bytes, values, outs_append, first.kept_eq, rest.kept_eq, first.state_eq]

/-- One step: a value is taken as a whole, or the state stays as it is. -/
theorem Steady.step (h : Steady w next out) (first : Step α) (a : σ) (sink : BoundedSink) :
    ∃ entry b sink', Session.step w first (w.inFront a sink) = (entry, w.inFront b sink') ∧
      Leads next out [entry] a sink b sink' := by
  cases first with
  | room room =>
      refine ⟨.room room, a, { sink with room := room }, ?_, rfl, (List.append_nil _).symm, rfl⟩
      simp only [Session.step, w.state_inFront, w.sink_inFront]
  | offer value =>
      rcases (h a value).cases sink with ⟨sink', done, all⟩ | ⟨e, sink', failed, part, -, -, some⟩
      · refine ⟨.taken value (out a value), next a value, sink', ?_, rfl, ?_, rfl⟩
        · simp only [Session.step, done, w.sink_inFront, added_eq all]
        · rw [all, List.flatMap_singleton, Entry.out]
      · refine ⟨.refused value part, a, sink', ?_, rfl, ?_, rfl⟩
        · simp only [Session.step, failed, w.sink_inFront, added_eq some]
        · rw [some, List.flatMap_singleton, Entry.out]

/-- All steps: a session ends where its log leads. -/
theorem Steady.play (h : Steady w next out) (steps : List (Step α)) (a : σ) (sink : BoundedSink) :
    ∃ log b sink', Session.play w steps (w.inFront a sink) = (log, w.inFront b sink') ∧
      Leads next out log a sink b sink' := by
  induction steps generalizing a sink with
  | nil => exact ⟨[], a, sink, rfl, rfl, (List.append_nil _).symm, rfl⟩
  | cons first rest ih =>
      obtain ⟨entry, b, mid, done, one⟩ := h.step first a sink
      obtain ⟨log, c, sink', played, others⟩ := ih b mid
      refine ⟨entry :: log, c, sink', ?_, one.append others⟩
      simp only [Session.play, done, played]

theorem Steady.forM_unlimited (h : Steady w next out) (values : List α) (a : σ) (written : Bytes) :
    values.forM w.update (w.inFront a ⟨written.toArray, none⟩) =
      .ok () (w.inFront (values.foldl next a) ⟨(written ++ outs next out a values).toArray, none⟩) := by
  induction values generalizing a written with
  | nil =>
      rw [outs, List.append_nil]
      rfl
  | cons value rest ih =>
      have first := (h a value).unlimited written.toArray
      rw [List.append_toArray] at first
      rw [Writing.forM_of_ok first, ih, outs, List.foldl_cons, List.append_assoc]

end

/-! ### Runs and nibbles -/

/-- The run writer, offered colours. -/
def runs : Writer (Option Run) UInt16 (RunWriter BoundedSink) where
  inFront := RunWriter.mk
  state := RunWriter.pending
  sink := RunWriter.sink
  update := RunWriter.update

/-- The nibble writer, offered nibbles. -/
def nibbles : Writer ℕ UInt8 (NibbleLiterals BoundedSink) where
  inFront := NibbleLiterals.mk
  state := NibbleLiterals.nibbles
  sink := NibbleLiterals.sink
  update := NibbleLiterals.update

theorem steady_runs : Steady runs (fun pending color => some (Run.after pending color))
    (fun pending color => (Run.completed pending color).flatMap Run.bytes) :=
  RunWriter.update_oneWrite

theorem steady_nibbles : Steady nibbles (fun n _ => n + 1)
    (fun n nibble => NibbleLiterals.front n ++ NibbleLiterals.digit nibble) :=
  NibbleLiterals.update_oneWrite

theorem outs_runs (pending : Option Run) (colors : List UInt16) :
    outs (fun pending color => some (Run.after pending color))
        (fun pending color => (Run.completed pending color).flatMap Run.bytes) pending colors =
      (RunWriter.completedBy pending colors).flatMap Run.bytes := by
  induction colors generalizing pending with
  | nil => rfl
  | cons color rest ih => rw [outs, ih, RunWriter.completedBy, List.flatMap_append]

theorem outs_nibbles (n : ℕ) (values : List UInt8) :
    outs (fun n _ => n + 1) (fun n nibble => NibbleLiterals.front n ++ NibbleLiterals.digit nibble) n values =
      NibbleLiterals.text n values := by
  induction values generalizing n with
  | nil => rfl
  | cons value rest ih => rw [outs, ih, NibbleLiterals.text]

theorem foldl_count (n : ℕ) (values : List UInt8) : values.foldl (fun n _ => n + 1) n = n + values.length := by
  induction values generalizing n with
  | nil => rfl
  | cons value rest ih =>
      rw [List.foldl_cons, ih, List.length_cons]
      omega

/-- What a session with a run writer has come to: nothing that was taken is lost, and nothing is there twice. -/
structure RunsResumed (start : BoundedSink) (log : List (Entry UInt16)) (s : RunWriter BoundedSink) : Prop where
  /-- The sink holds what the calls put in it. -/
  sink_eq : s.sink.toList = start.toList ++ log.flatMap Entry.out
  /-- Without the parts from refused calls, writer and sink are those of a writer that was offered only the
  colours that were taken, and never refused one. -/
  fresh_eq : RunWriter.updateAll (accepted log) (RunWriter.ofSink (⟨#[], none⟩ : BoundedSink)) =
    .ok () ⟨s.pending, ⟨(kept log).toArray, none⟩⟩
  /-- Together with the pending run these are all bytes of the colours that were taken. -/
  whole : collect (RunWriter.writeAll (accepted log)) = .ok (kept log ++ s.pending.toList.flatMap Run.bytes)
  /-- No colour is lost, and none is there twice: without the parts from refused calls the sink holds whole runs,
  which stand, with the pending run behind them, for the colours that were taken. -/
  colors_eq : ∃ runs : List Run, kept log = runs.flatMap Run.bytes ∧
    (∀ r ∈ runs, 1 ≤ r.count ∧ r.count ≤ 65536) ∧
    ((runs ++ s.pending.toList).flatMap fun r => List.replicate r.count r.color) = accepted log
  /-- The pending run fits its four bytes. -/
  valid : ∀ r ∈ s.pending, 1 ≤ r.count ∧ r.count ≤ 65536 ∧ (UInt16.ofNat (r.count - 1)).toNat = r.count - 1
  /-- A colour that is refused leaves the pending run as it was, and a part of its bytes in the sink. -/
  refused : ∀ color e left, RunWriter.update color s = .error e left →
    left.pending = s.pending ∧ ∃ r, s.pending = some r ∧ BoundedSink.TookPart r.bytes s.sink left.sink
  /-- So does an end that is refused. -/
  unfinished : ∀ e left, RunWriter.finish s = .error e left →
    left.pending = s.pending ∧ ∃ r, s.pending = some r ∧ BoundedSink.TookPart r.bytes s.sink left.sink
  /-- An end that is not refused writes the pending run. -/
  finished : ∀ left, RunWriter.finish s = .ok () left →
    left.sink.toList = s.sink.toList ++ s.pending.toList.flatMap Run.bytes

/-- What a session with a nibble writer has come to. -/
structure NibblesResumed (start : BoundedSink) (log : List (Entry UInt8)) (s : NibbleLiterals BoundedSink) :
    Prop where
  sink_eq : s.sink.toList = start.toList ++ log.flatMap Entry.out
  fresh_eq : NibbleLiterals.updateAll (accepted log) (NibbleLiterals.ofSink (⟨#[], none⟩ : BoundedSink)) =
    .ok () ⟨s.nibbles, ⟨(kept log).toArray, none⟩⟩
  /-- The writer counts the nibbles that were taken, and without the parts from refused calls the sink holds
  their text. -/
  count_eq : s.nibbles = (accepted log).length
  text_eq : kept log = NibbleLiterals.text 0 (accepted log)
  /-- A nibble that is refused leaves the count as it was, and a part of its text in the sink. -/
  refused : ∀ nibble e left, NibbleLiterals.update nibble s = .error e left → left.nibbles = s.nibbles ∧
    BoundedSink.TookPart (NibbleLiterals.front s.nibbles ++ NibbleLiterals.digit nibble) s.sink left.sink
  unfinished : ∀ e left, NibbleLiterals.finish s = .error e left →
    left.nibbles = s.nibbles ∧ BoundedSink.TookPart (NibbleLiterals.padding s.nibbles) s.sink left.sink
  /-- An end that is not refused completes the text. -/
  finished : ∀ left, NibbleLiterals.finish s = .ok () left →
    ∃ rest, left.sink.toList = s.sink.toList ++ rest ∧
      collect (NibbleArray.writeNibbles (accepted log)) = .ok (kept log ++ rest)

theorem runsResumed_of_play (start : BoundedSink) (steps : List (Step UInt16)) :
    RunsResumed start (play runs steps (RunWriter.ofSink start)).1
      (play runs steps (RunWriter.ofSink start)).2 := by
  obtain ⟨log, pending, sink, played, leads⟩ := steady_runs.play steps none start
  have played : play runs steps (RunWriter.ofSink start) = (log, ⟨pending, sink⟩) := played
  rw [played]
  obtain ⟨folded, all, text⟩ := leads
  have state : pending = RunWriter.pendingAfter none (accepted log) := folded
  have runs := RunWriter.completedBy_append_pendingAfter none (accepted log)
  rw [← state] at runs
  have valid : ∀ r ∈ RunWriter.completedBy none (accepted log) ++ pending.toList, r.Valid := by
    rw [runs]
    exact Run.valid_of_mem_split
  refine ⟨all, ?_, ?_, ⟨RunWriter.completedBy none (accepted log), ?_, ?_, ?_⟩, ?_, ?_, ?_, ?_⟩
  · have fresh := steady_runs.forM_unlimited (accepted log) none []
    rw [List.nil_append, ← text, ← folded] at fresh
    exact fresh
  · have whole := (RunWriter.writeAll_writes (accepted log)).collect_eq
    rw [Run.split, ← runs, List.flatMap_append, ← outs_runs, ← text] at whole
    exact whole
  · rw [text, outs_runs]
  · intro r hr
    exact valid r (List.mem_append_left _ hr)
  · show ((_ ++ pending.toList).flatMap Run.colors) = _
    rw [runs]
    exact Run.flatMap_colors_split (accepted log)
  · intro r hr
    have fits := valid r (List.mem_append_right _ (Option.mem_toList.mpr hr))
    exact ⟨fits.1, fits.2, fits.toNat_count_sub_one⟩
  · intro color e left failed
    obtain ⟨sink', rfl, part⟩ := (RunWriter.update_oneWrite pending color).of_error failed
    exact ⟨rfl, RunWriter.exists_tookPart Run.eq_of_mem_completed (Run.length_completed pending color) part⟩
  · intro e left failed
    obtain ⟨sink', rfl, part⟩ := (RunWriter.finish_oneWrite pending).of_error failed
    exact ⟨rfl, RunWriter.exists_tookPart (fun _ => Option.mem_toList.mp) Option.length_toList_le part⟩
  · intro left done
    obtain ⟨sink', rfl, all⟩ := (RunWriter.finish_oneWrite pending).of_ok done
    exact all

theorem nibblesResumed_of_play (start : BoundedSink) (steps : List (Step UInt8)) :
    NibblesResumed start (play nibbles steps (NibbleLiterals.ofSink start)).1
      (play nibbles steps (NibbleLiterals.ofSink start)).2 := by
  obtain ⟨log, count, sink, played, leads⟩ := steady_nibbles.play steps 0 start
  have played : play nibbles steps (NibbleLiterals.ofSink start) = (log, ⟨count, sink⟩) := played
  rw [played]
  obtain ⟨state, all, text⟩ := leads
  have counted : count = (accepted log).length := by rw [state, foldl_count, Nat.zero_add]
  have shown : kept log = NibbleLiterals.text 0 (accepted log) := by rw [text, outs_nibbles]
  refine ⟨all, ?_, counted, shown, ?_, ?_, ?_⟩
  · have fresh := steady_nibbles.forM_unlimited (accepted log) 0 []
    rw [List.nil_append, ← text, ← state] at fresh
    exact fresh
  · intro nibble e left failed
    obtain ⟨sink', rfl, part⟩ := (NibbleLiterals.update_oneWrite count nibble).of_error failed
    exact ⟨rfl, part⟩
  · intro e left failed
    obtain ⟨sink', rfl, part⟩ := (NibbleLiterals.finish_oneWrite count).of_error failed
    exact ⟨rfl, part⟩
  · intro left done
    obtain ⟨sink', rfl, all⟩ := (NibbleLiterals.finish_oneWrite count).of_ok done
    refine ⟨NibbleLiterals.padding count, all, ?_⟩
    rw [(NibbleArray.writeNibbles_writes (accepted log)).collect_eq, NibbleArray.body, shown, counted]

/-- **Nothing is lost and nothing is written twice, whatever is refused on the way**: a session with a run writer
and one with a nibble writer have come to what their logs say, after any steps, and hence also after each of
them. -/
theorem play_resumes :
    (∀ start steps, RunsResumed start (play runs steps (RunWriter.ofSink start)).1
      (play runs steps (RunWriter.ofSink start)).2) ∧
    ∀ start steps, NibblesResumed start (play nibbles steps (NibbleLiterals.ofSink start)).1
      (play nibbles steps (NibbleLiterals.ofSink start)).2 :=
  ⟨runsResumed_of_play, nibblesResumed_of_play⟩

-- The sink has room for half a run.  Another colour is refused then, the old one is counted as before.
example : (play runs [.offer 7, .offer 8, .offer 7, .room none, .offer 8] (RunWriter.ofSink ⟨#[], some 2⟩)).1 =
    [.taken 7 [], .refused 8 [0, 0], .taken 7 [], .room none, .taken 8 [1, 0, 7, 0]] := by decide

end Session

end BitmapAsset

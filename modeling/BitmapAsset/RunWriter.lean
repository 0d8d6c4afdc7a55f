import BitmapAsset.Sink

/-! # Writing runs

A run writer stands in front of a sink, takes colours one at a time and writes them as runs.  It holds
back the run that is still growing.  A colour that cannot extend this run, because it differs or
because the run is full, makes it write the run first.  When that fails the run stays pending, so the
same or another colour may be offered again later.  `finish` writes the last run. -/

namespace BitmapAsset

/-- The run that is still growing, if any, and the sink behind. -/
structure RunWriter (W : Type) where
  pending : Option Run
  sink : W
deriving DecidableEq

namespace RunWriter

variable {W : Type} [Sink W]

/-- A writer that saw no colour yet. -/
def ofSink (sink : W) : RunWriter W := ⟨none, sink⟩

/-- Does something to the sink behind. -/
@[inline] def onSink {α : Type} (action : Writing W α) : Writing (RunWriter W) α
  | ⟨pending, sink⟩ =>
    match action sink with
    | .ok a sink => .ok a ⟨pending, sink⟩
    | .error e sink => .error e ⟨pending, sink⟩

/-- Puts a run in the place of the pending one. -/
@[inline] def setPending (pending : Option Run) : Writing (RunWriter W) Unit
  | ⟨_, sink⟩ => .ok () ⟨pending, sink⟩

/-- Begins a run with its first pixel. -/
def start (color : UInt16) : Writing (RunWriter W) Unit := do
  let run : Run := ⟨color, 1⟩
  setPending (some run)
  onSink (Writing.note (.runStarted run))

/-- Writes the pending run, if any.  It stays pending when the sink refuses. -/
def writePending : Writing (RunWriter W) Unit := do
  if let some run := (← get).pending then
    onSink (Writing.note (.runWritten run))
    onSink (Writing.put run.bytes)
  setPending none

/-- Takes one colour. -/
def update (color : UInt16) : Writing (RunWriter W) Unit := do
  onSink (Writing.note (.color color))
  match (← get).pending with
  | none => start color
  | some run =>
    if run.color = color ∧ run.count < Run.maxCount then
      setPending (some { run with count := run.count + 1 })
    else
      if run.count = Run.maxCount then
        onSink (Writing.note (.runCut run.count))
      writePending
      start color

/-- The first colour is kept as a run of one pixel. -/
theorem update_of_none (color : UInt16) (sink : W) :
    update color ⟨none, sink⟩ =
      .ok () ⟨some ⟨color, 1⟩, Sink.note (.runStarted ⟨color, 1⟩) (Sink.note (.color color) sink)⟩ :=
  rfl

/-- A colour that extends the pending run is counted, and nothing is written. -/
theorem update_of_extends {color : UInt16} {run : Run} (sink : W)
    (h : run.color = color ∧ run.count < Run.maxCount) :
    update color ⟨some run, sink⟩ =
      .ok () ⟨some ⟨run.color, run.count + 1⟩, Sink.note (.color color) sink⟩ := by
  show (if run.color = color ∧ run.count < Run.maxCount then _ else _ : Writing (RunWriter W) Unit) _ = _
  rw [if_pos h]
  rfl

/-- Where no run is pending, nothing is written. -/
theorem writePending_of_none (sink : W) : writePending ⟨none, sink⟩ = .ok () ⟨none, sink⟩ := rfl

/-- The pending run is written as its bytes, and stays pending exactly if the sink refuses them. -/
theorem writePending_of_some (run : Run) (sink : W) :
    writePending ⟨some run, sink⟩ =
      match Sink.put run.bytes (Sink.note (.runWritten run) sink) with
      | .ok _ sink => .ok () ⟨none, sink⟩
      | .error e sink => .error e ⟨some run, sink⟩ := by
  show EStateM.bind _ _ _ = _
  simp only [EStateM.bind, onSink, Writing.put]
  cases Sink.put run.bytes (Sink.note (.runWritten run) sink) <;> rfl

/-- Takes colours in order, up to the first that fails. -/
def updateAll (colors : List UInt16) : Writing (RunWriter W) Unit := colors.forM update

/-- Writes the run that is still pending. -/
def finish : Writing (RunWriter W) Unit := do
  onSink (Writing.note (.lastRun (← get).pending))
  writePending

/-- Writes colours as runs to a sink. -/
def writeAll (colors : List UInt16) : Writing W Unit :=
  Writing.around ofSink RunWriter.sink do
    updateAll colors
    finish

end RunWriter

end BitmapAsset

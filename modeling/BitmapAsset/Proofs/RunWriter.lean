import BitmapAsset.RunWriter
import BitmapAsset.Proofs.Runs
import BitmapAsset.Proofs.Writes

/-! # What a run writer writes

For any sink behind it, a run writer writes the completed runs of the colours it takes and holds back
the pending one (`RunWriter.updateAll_emits`).  With the last run written, the output is the bytes of
`Run.split` (`RunWriter.writeAll_writes`). -/

namespace BitmapAsset.RunWriter

variable {W : Type} [Sink W]

theorem onSink_emits {action : Writing W Unit} {bytes : Bytes} (h : Writes action bytes)
    (pending : Option Run) : Emits mk (onSink action) pending pending bytes :=
  .behind h (by
    intro sink
    cases hs : action sink <;> simp only [onSink, hs])

theorem remark_emits (event : Event) (pending : Option Run) :
    Emits (W := W) mk (onSink (Writing.note event)) pending pending [] := onSink_emits (.note event) pending

theorem setPending_emits (pending next : Option Run) :
    Emits (W := W) mk (setPending next) pending next [] := .move fun _ => rfl

theorem start_emits (pending : Option Run) (color : UInt16) :
    Emits (W := W) mk (start color) pending (some ⟨color, 1⟩) [] :=
  (setPending_emits pending _).seq (remark_emits _ _)

theorem writePending_emits (pending : Option Run) :
    Emits (W := W) mk writePending pending none (pending.toList.flatMap Run.bytes) := by
  cases pending with
  | none => exact .move writePending_of_none
  | some run =>
      have h := (remark_emits (W := W) (.runWritten run) (some run)).seq
        ((onSink_emits (.put run.bytes) (some run)).seq (setPending_emits (some run) none))
      rw [List.nil_append, List.append_nil] at h
      rw [Option.toList_some, List.flatMap_singleton]
      exact h.of_eq fun _ => rfl

theorem update_emits (pending : Option Run) (color : UInt16) :
    Emits (W := W) mk (update color) pending (some (Run.after pending color))
      ((Run.completed pending color).flatMap Run.bytes) := by
  cases pending with
  | none => exact ((remark_emits _ _).seq (start_emits none color)).of_eq fun _ => rfl
  | some run =>
      by_cases h : run.Extends color
      · simp only [Run.after, Run.completed, h, if_true]
        apply ((remark_emits (.color color) (some run)).seq (setPending_emits _ _)).of_eq
        intro sink
        exact update_of_extends sink h
      · simp only [Run.after, Run.completed, h, if_false]
        have cut : Emits (W := W) mk (if run.count = Run.maxCount then
            onSink (Writing.note (.runCut run.count)) else pure ()) (some run) (some run) [] := by
          split_ifs
          · exact remark_emits _ _
          · exact .pure _
        have rest := (remark_emits (.color color) (some run)).seq
          (cut.seq ((writePending_emits (some run)).seq (start_emits none color)))
        rw [List.append_nil, List.nil_append, List.nil_append] at rest
        apply rest.of_eq
        intro sink
        show (if run.color = color ∧ run.count < Run.maxCount then _ else _ :
          Writing (RunWriter W) Unit) _ = _
        have h' : ¬ (run.color = color ∧ run.count < Run.maxCount) := h
        rw [if_neg h']
        by_cases full : run.count = Run.maxCount
        · simp only [if_pos full]
          rfl
        · simp only [if_neg full]
          rfl

/-- The run that is pending behind colours. -/
def pendingAfter (pending : Option Run) (colors : List UInt16) : Option Run :=
  colors.foldl (fun p color => some (Run.after p color)) pending

/-- The runs that colours complete, behind a pending run. -/
def completedBy : Option Run → List UInt16 → List Run
  | _, [] => []
  | pending, color :: rest => Run.completed pending color ++ completedBy (some (Run.after pending color)) rest

theorem completedBy_append_pendingAfter (pending : Option Run) (colors : List UInt16) :
    completedBy pending colors ++ (pendingAfter pending colors).toList = Run.splitFrom pending colors := by
  induction colors generalizing pending with
  | nil => rfl
  | cons color rest ih =>
      rw [Run.splitFrom, completedBy, List.append_assoc, ← ih]
      rfl

/-- The runs that are complete are written, and the last one is pending. -/
theorem updateAll_emits (pending : Option Run) (colors : List UInt16) :
    Emits (W := W) mk (updateAll colors) pending (pendingAfter pending colors)
      ((completedBy pending colors).flatMap Run.bytes) := by
  induction colors generalizing pending with
  | nil => exact .pure pending
  | cons color rest ih =>
      rw [completedBy, List.flatMap_append]
      exact (update_emits pending color).seq (ih _)

theorem finish_emits (pending : Option Run) :
    Emits (W := W) mk finish pending none (pending.toList.flatMap Run.bytes) :=
  ((remark_emits (.lastRun pending) pending).seq (writePending_emits pending)).of_eq fun _ => rfl

/-- Colours are written as their runs, whatever the sink is. -/
theorem writeAll_writes (colors : List UInt16) :
    Writes (writeAll colors : Writing W Unit) ((Run.split colors).flatMap Run.bytes) := by
  have all := (updateAll_emits (W := W) none colors).seq (finish_emits (pendingAfter none colors))
  rw [← List.flatMap_append, completedBy_append_pendingAfter] at all
  exact all.writes_around fun _ _ => rfl

end BitmapAsset.RunWriter

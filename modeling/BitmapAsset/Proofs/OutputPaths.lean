import BitmapAsset.ArrayName
import BitmapAsset.Proofs.Extensions

/-! # Output paths

An output path has the stem of its input, or no file name where that stem is a single dot, and no identifier holds a
dot.  So an array is named alike in the input and in the output (`Path.identifier_withExtension`).

An output path is mostly its own output path.  It is not if the input's stem is a single dot and the text goes on behind
the file name (`Path.GoesOnBehindDot`): its output path is named by a dot, a dot and the extension, and with nothing
behind that name the next output path leads up (`Path.withExtension_twice`).  `Format.outputPath_keeps_identifier` puts
this together for every format; `Format.not_forall_outputPath_idempotent` has a path whose second output path is another
one. -/

namespace BitmapAsset

namespace Path

/-- Whether the stem of the file name is a single dot and something stands behind the file name. -/
def GoesOnBehindDot (p : Path) : Prop := p.fileStem? = some [dot] ∧ p.segments.getLast?.any isIdle = true

instance (p : Path) : Decidable p.GoesOnBehindDot := inferInstanceAs (Decidable (_ ∧ _))

namespace Named

variable (n : Named)

theorem goesOnBehindDot_path : n.path.GoesOnBehindDot ↔ n.stem = [dot] ∧ n.idle ≠ [] := by
  rw [GoesOnBehindDot, fileStem?_path, Option.some_inj, segments_path]
  refine and_congr_right fun _ => ?_
  rcases List.eq_nil_or_concat n.idle with nothing | ⟨front, last, ends⟩
  · rw [nothing, List.getLast?_concat, Option.any_some, n.leads]
    simp
  · rw [List.concat_eq_append] at ends
    have idle := n.nowhere last (by rw [ends]; exact List.mem_append_right _ List.mem_cons_self)
    rw [ends, ← List.cons_append, ← List.append_assoc, List.getLast?_concat, Option.any_some, idle]
    simp

end Named

/-! ### The extension put in place once and twice -/

variable {ext : Bytes}

theorem identifier_of_fileStem? {p : Path} (bare : p.fileStem? = some [dot] ∨ p.fileStem? = none) :
    identifier p = "" := by
  rcases bare with dot | none
  · rw [identifier, dot]
    decide
  · rw [identifier, none]
    decide

/-- An extension put in place does not change what an array is named. -/
theorem identifier_withExtension (p : Path) (h : IsExtension ext) :
    identifier (p.withExtension ext) = identifier p := by
  by_cases named : p.splitLast? = none
  · rw [withExtension_of_unnamed named]
  obtain ⟨n, rfl⟩ := exists_named named
  by_cases bare : n.stem = [dot] ∧ n.idle = []
  · have upwards : (n.path.withExtension ext).splitLast? = none := by
      rw [n.withExtension_path, if_pos bare]
      exact splitLast?_up n.above_clean
    rw [identifier_of_fileStem? (Or.inr (fileStem?_of_unnamed upwards)), identifier_of_fileStem? (Or.inl ?_)]
    rw [n.fileStem?_path, bare.1]
  · rw [n.withExtension_of_not_bare h bare, identifier, identifier, Named.fileStem?_path, Named.fileStem?_path,
      n.stem_output h]

/-- An extension put in place a second time changes nothing, unless the path goes on behind a name with the stem of
a single dot.  Then it leaves a path that leads up. -/
theorem withExtension_twice (p : Path) (h : IsExtension ext) :
    ¬ p.GoesOnBehindDot ∧ (p.withExtension ext).withExtension ext = p.withExtension ext ∨
      p.GoesOnBehindDot ∧ ∃ front : Bytes, p.withExtension ext = front ++ dot :: dot :: ext ∧
        (p.withExtension ext).withExtension ext = front ++ up ∧ withExtension (front ++ up) ext = front ++ up := by
  by_cases named : p.splitLast? = none
  · refine Or.inl ⟨?_, by rw [withExtension_of_unnamed named, withExtension_of_unnamed named]⟩
    rintro ⟨stem, -⟩
    rw [fileStem?_of_unnamed named] at stem
    cases stem
  obtain ⟨n, rfl⟩ := exists_named named
  have upwards : withExtension (n.front ++ up) ext = n.front ++ up :=
    withExtension_of_unnamed (splitLast?_up n.above_clean) ext
  rw [n.goesOnBehindDot_path]
  by_cases stem : n.stem = [dot]
  · by_cases nothing : n.idle = []
    · refine Or.inl ⟨fun goesOn => goesOn.2 nothing, ?_⟩
      rw [n.withExtension_path, if_pos ⟨stem, nothing⟩, upwards]
    · have once := n.withExtension_of_not_bare h fun bare => nothing bare.2
      refine Or.inr ⟨⟨stem, nothing⟩, n.front, ?_, ?_, upwards⟩
      · rw [once, n.path_output, stem]
        rfl
      · rw [once, Named.withExtension_path, if_pos ⟨(n.stem_output h).trans stem, rfl⟩]
        rfl
  · refine Or.inl ⟨fun goesOn => stem goesOn.1, ?_⟩
    have once := n.withExtension_of_not_bare h fun bare => stem bare.1
    have again := (n.output h).withExtension_of_not_bare h fun bare => stem ((n.stem_output h).symm.trans bare.1)
    rw [once, again, Named.path_output, Named.path_output, n.stem_output]
    rfl

end Path

namespace Format

/-- **Input and output name their arrays alike, and an output path mostly is its own.**  It is not exactly if the text
goes on behind a file name whose stem is a single dot: then the output path of the output path leads up.  From there on
nothing changes. -/
theorem outputPath_keeps_identifier (format : Format) (p : Path) :
    identifier (format.outputPath p) = identifier p ∧
      (format.outputPath (format.outputPath p) = format.outputPath p ↔ ¬ p.GoesOnBehindDot) ∧
      (p.GoesOnBehindDot → ∃ front : Bytes,
        format.outputPath p = front ++ Path.dot :: Path.dot :: format.fileExtension ∧
        format.outputPath (format.outputPath p) = front ++ Path.up) ∧
      format.outputPath (format.outputPath (format.outputPath p)) = format.outputPath (format.outputPath p) := by
  refine ⟨Path.identifier_withExtension p format.isExtension, ?_⟩
  unfold outputPath
  rcases p.withExtension_twice format.isExtension with ⟨other, same⟩ | ⟨goesOn, front, once, twice, upwards⟩
  · exact ⟨iff_of_true same other, fun goesOn => absurd goesOn other, by rw [same, same]⟩
  · refine ⟨iff_of_false ?_ (not_not_intro goesOn), fun _ => ⟨front, once, twice⟩, by rw [twice, upwards]⟩
    rw [once] at twice ⊢
    rw [twice]
    intro same
    have tail := List.append_cancel_left same
    exact format.isExtension.filled (List.cons_eq_cons.mp (List.cons_eq_cons.mp tail).2).2.symm

/-- A path that goes on behind a file name with the stem of a single dot. -/
def dottedPath : Path := utf8 "icons/..bmp/"

theorem outputPath_keeps_identifier_dotted :
    dottedPath.GoesOnBehindDot ∧ identifier (rgb565.outputPath dottedPath) = identifier dottedPath ∧
      rgb565.outputPath dottedPath = utf8 "icons/..h" ∧
      rgb565.outputPath (rgb565.outputPath dottedPath) = utf8 "icons/.." := by
  have goesOn : dottedPath.GoesOnBehindDot := by decide
  have written : rgb565.outputPath dottedPath = utf8 "icons/..h" := by decide
  obtain ⟨alike, -, leads, -⟩ := outputPath_keeps_identifier rgb565 dottedPath
  obtain ⟨front, once, twice⟩ := leads goesOn
  obtain rfl : utf8 "icons/" = front := List.append_cancel_right (written.symm.trans once)
  exact ⟨goesOn, alike, written, twice⟩

/-- **Not every output path is its own**: the one of a path that goes on behind two dots and an extension leads up if
it is taken again. -/
theorem not_forall_outputPath_idempotent :
    ¬ ∀ (format : Format) (p : Path), identifier (format.outputPath p) = identifier p ∧
      format.outputPath (format.outputPath p) = format.outputPath p := by
  intro all
  have same := (all rgb565 (utf8 "..bmp/")).2
  exact absurd same (by decide)

end Format

end BitmapAsset

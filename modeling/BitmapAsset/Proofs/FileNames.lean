import BitmapAsset.Proofs.Extensions
import BitmapAsset.Proofs.Lookup

/-! # The names of output files

An output path has the name of its input with another extension, so the file that it names ends in a dot and
that extension (`FileTree.location_of_outputPath`).  A path without a file name stays as it is; whatever it
names is a directory that the way went through, or one on the way to the working directory
(`FileTree.hasDirectory_of_unnamed`). -/

namespace BitmapAsset

namespace Path

theorem eq_up_of_splitLast? {p : Path} (h : p.splitLast? = none) :
    ∀ last ∈ (p.segments.reverse.dropWhile isIdle).head?, last = up := by
  rw [splitLast?] at h
  cases cut : p.segments.reverse.dropWhile isIdle with
  | nil => exact fun last mem => absurd mem (Option.not_mem_none last)
  | cons last others =>
      rw [cut] at h
      intro last' same
      obtain rfl : last = last' := Option.some.inj same
      by_cases name : last = up
      · exact name
      · dsimp only at h
        rw [if_neg name] at h
        cases h

end Path

namespace FileTree

variable {t : FileTree}

theorem exists_endOf_of_append {l : Location} {others : List Bytes} : ∀ (segments : List Bytes) (here : Location),
    t.endOf here (segments ++ others) = some l → ∃ mid, t.endOf mid others = some l
  | [], here, h => ⟨here, h⟩
  | segment :: rest, here, h => by
      rw [List.cons_append, endOf] at h
      split_ifs at h
      · exact exists_endOf_of_append rest here h
      · exact exists_endOf_of_append rest here.dropLast h
      · exact exists_endOf_of_append rest (here ++ [segment]) h

theorem getLast?_of_endOf_singleton {here l : Location} {name : FileName} (h : t.endOf here [name] = some l)
    (leads : Path.isIdle name = false) (down : name ≠ Path.up) : l.getLast? = some name := by
  rw [endOf, leads, if_neg Bool.false_ne_true, if_neg down] at h
  split_ifs at h
  rw [← Option.some.inj h]
  exact List.getLast?_concat

/-- A way that does not end with a name ends at a directory or does not go below its beginning. -/
theorem hasDirectory_of_unnamed {l : Location} : ∀ (segments : List Bytes) (here : Location),
    t.endOf here segments = some l →
      (∀ last ∈ (segments.reverse.dropWhile Path.isIdle).head?, last = Path.up) →
        t.hasDirectory l = true ∨ l <+: here
  | [], here, h, _ => by
      rw [← Option.some.inj h]
      exact Or.inr (List.prefix_refl here)
  | segment :: rest, here, h, unnamed => by
      have tail : ∀ last ∈ (rest.reverse.dropWhile Path.isIdle).head?, last = Path.up := by
        intro last mem
        obtain ⟨others, cut⟩ := List.head?_eq_some_iff.mp mem
        apply unnamed
        rw [List.reverse_cons, List.dropWhile_append, cut]
        rfl
      rw [endOf] at h
      split_ifs at h with directory idle up long
      · exact hasDirectory_of_unnamed rest here h tail
      · exact (hasDirectory_of_unnamed rest here.dropLast h tail).imp_right fun front =>
          front.trans (List.dropLast_prefix here)
      · rcases hasDirectory_of_unnamed rest (here ++ [segment]) h tail with found | front
        · exact Or.inl found
        · rcases List.prefix_concat_iff.mp front with rfl | above
          · cases rest with
            | nil =>
                refine absurd (unnamed segment ?_) up
                rw [List.reverse_singleton, List.dropWhile_cons_of_neg idle]
                rfl
            | cons next rest => exact Or.inl (hasDirectory_of_endOf h)
          · exact Or.inr above

/-- What an output path names ends in a dot and the extension of its format, or is a directory, or lies on the
way to the working directory. -/
theorem location_of_outputPath {format : Format} {file : Path} {l : Location}
    (h : t.named? (format.outputPath file) = some l) :
    (∃ stem, l.getLast? = some (stem ++ Path.dot :: format.fileExtension)) ∨ t.hasDirectory l = true ∨
      l <+: t.workDir := by
  rw [named?] at h
  split_ifs at h
  rcases Path.withExtension_cases file format.isExtension with ⟨n, put⟩ | none
  · rw [Format.outputPath, put, Path.Named.segments_path] at h
    obtain ⟨mid, last⟩ := exists_endOf_of_append _ _ h
    exact Or.inl ⟨n.stem, getLast?_of_endOf_singleton last (n.output format.isExtension).leads
      (n.output format.isExtension).down⟩
  · rcases hasDirectory_of_unnamed _ _ h (Path.eq_up_of_splitLast? none) with directory | above
    · exact Or.inr (Or.inl directory)
    · refine Or.inr (Or.inr (above.trans ?_))
      unfold origin
      split_ifs
      · exact List.nil_prefix
      · exact List.prefix_refl _

end FileTree

end BitmapAsset

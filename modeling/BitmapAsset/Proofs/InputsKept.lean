import BitmapAsset.Proofs.FileNames
import BitmapAsset.Proofs.RefusedInputs

/-! # What becomes of the input files

A run without a place for its output changes no file but those that the output paths of its inputs name
(`Program.run_put`).  An input file is such a file only if it has the extension of the output already, so
files with other extensions are safe, those of inputs that come later or are ignored included
(`Program.run_spares_inputs`).

Nothing keeps an output path from naming an input, though: a bitmap may have any name, and the output path of
`p.h` is `p.h`.  Then the input is read first, and overwritten with its own conversion
(`Program.ComesTo.run_overwrites`). -/

namespace BitmapAsset

open FileTree (FilesPut)
open Writing (left)

namespace FileTree

/-- The working directory and what lies above it are directories. -/
def Rooted (t : FileTree) : Prop := ∀ l, l <+: t.workDir → t.hasDirectory l = true

section
variable {t : FileTree} {l : Location} {content : Array UInt8} (there : t.get? l = some (.file content))
include there

theorem hasDirectory_of_file : t.hasDirectory l = false := by
  rw [hasDirectory, there]
  rfl

theorem plain_of_file (d : Device) : t.get? l ≠ some (.device d) := by
  rw [there]
  exact fun device => nomatch device

theorem canCreate_of_file {p : Path} (named : t.named? p = some l) : t.canCreate p = true := by
  rw [canCreate, resolve_of_named named there]
  rfl

end

end FileTree

namespace Program

open Buffered (Moved)
open CommandLine (Options parse normalize)
open Writing (forM_of_ok)

/-! ### Files that a run may change -/

theorem moved_convertShared (format : Format) (palette : Palette) (file : Path) (b : Buffered) :
    Moved b (left (convertShared format palette file) b) := by
  obtain ⟨held, place, fx⟩ := b
  obtain ⟨gx, same, ⟨image, -, read⟩ | ⟨-, e, failed⟩⟩ := readPicture_cases file fx
  · have converted : left (convertShared format palette file) ⟨held, place, fx⟩ =
        left (format.convert image file palette) ⟨held, place, gx⟩ := by
      simp only [left, convertShared, bind, EStateM.bind, Buffered.onEffects, read]
    have read : Moved ⟨held, place, fx⟩ ⟨held, place, gx⟩ := .of_tree rfl (Prod.mk.inj same).1.symm
    rw [converted]
    exact read.trans (Buffered.moved_convert format image file palette _)
  · have stopped : convertShared format palette file ⟨held, place, fx⟩ = .error e ⟨held, place, gx⟩ := by
      simp only [convertShared, bind, EStateM.bind, Buffered.onEffects, failed]
    rw [Writing.left_of_error stopped]
    exact .of_tree rfl (Prod.mk.inj same).1.symm

/-- Inputs that share an output change no file but the one behind the buffer. -/
theorem moved_forM_convertShared (format : Format) (palette : Palette) (files : List Path) (b : Buffered) :
    Moved b (left (files.forM (convertShared format palette)) b) := by
  induction files generalizing b with
  | nil => exact .of_tree rfl rfl
  | cons file files ih => exact Writing.left_seq Moved Moved.trans (moved_convertShared format palette file) ih b

theorem format_of_beside {format : Format} (beside : format.writesBesideInput = true) :
    format = .rgb565 ∨ format = .rgb565Rle ∨ format = .raw := by
  revert beside
  cases format <;> decide

/-- The locations that the output paths of the inputs name, if a run comes so far as to write beside its inputs. -/
def targets (o : Options) (t : FileTree) : List Location :=
  if (Palette.byName? o.paletteName).isSome ∧ o.effectiveFormat.writesBesideInput then
    t.outputLocations o.effectiveFormat (inputs o)
  else []

section
variable {o : Options} (logSpec : Option String) {args : List String}
  (parsed : parse (normalize args) = .ok (.convert o))
include parsed

theorem run_tree (tree : FileTree) :
    (run logSpec args tree).tree = (left (Program.convert o) ⟨tree, #[], #[]⟩).tree := by
  simp only [run, parsed, finish, left]
  cases Program.convert o ⟨tree, #[], #[]⟩ <;> rfl

/-- Without a place for its output, a run changes no files but those that the output paths of its inputs name. -/
theorem run_put (unset : o.outfile = none) (tree : FileTree) :
    FilesPut (targets o tree) tree (run logSpec args tree).tree := by
  unfold targets
  cases known : Palette.byName? o.paletteName with
  | none =>
      obtain ⟨fx, same, -, left, -⟩ := run_of_ends parsed logSpec (convert_of_unknown known ⟨tree, #[], #[]⟩)
      rw [left, ← (Prod.mk.inj same).1]
      exact (FilesPut.refl tree).mono (List.nil_subset _)
  | some palette =>
      rw [run_tree logSpec parsed, left, convert_eq known, ← left]
      unfold convertInputs
      rw [unset]
      by_cases beside : o.effectiveFormat.writesBesideInput = true
      · rw [if_pos ⟨rfl, beside⟩, if_pos ⟨rfl, beside⟩]
        exact forM_convertBeside_put o.effectiveFormat palette (inputs o) (begun o tree)
      · rw [if_neg fun both => beside both.2, if_neg fun both => beside both.2]
        have shared := moved_forM_convertShared o.effectiveFormat palette (inputs o)
        exact Buffered.within_put shared .stdout (begun o tree)

end

theorem exists_stem_of_mem_targets {o : Options} {tree : FileTree} (rooted : tree.Rooted) {l : Location}
    {content : Array UInt8} (file : tree.get? l = some (.file content)) (mem : l ∈ targets o tree) :
    ∃ stem, l.getLast? = some (stem ++ Path.dot :: o.effectiveFormat.fileExtension) := by
  have level : tree.hasDirectory l ≠ true := Bool.eq_false_iff.mp (FileTree.hasDirectory_of_file file)
  unfold targets at mem
  split_ifs at mem
  · obtain ⟨other, -, named⟩ := FileTree.mem_outputLocations.mp mem
    rcases FileTree.location_of_outputPath named with stem | directory | above
    · exact stem
    · exact absurd directory level
    · exact absurd (rooted l above) level
  · exact absurd mem List.not_mem_nil

section
variable {o : Options} {palette : Palette} {tree t : FileTree} {before later : List Path} {file : Path}
  (comes : ComesTo o palette tree before file t) (logSpec : Option String) {args : List String}
  (parsed : parse (normalize args) = .ok (.convert o)) (unset : o.outfile = none)
  (beside : o.effectiveFormat.writesBesideInput = true) (known : Palette.byName? o.paletteName = some palette)
  {l : Location} {content : Array UInt8} (named : tree.named? (o.effectiveFormat.outputPath file) = some l)
  (there : tree.get? l = some (.file content))
include comes parsed unset beside known named there

/-- A file that is there ends with the conversion of the last input whose output path names it. -/
theorem ComesTo.run_fills (all : inputs o = before ++ file :: later) {bytes : Bytes}
    (converts : t.conversion? o.effectiveFormat palette file = some bytes)
    (last : ∀ other ∈ later, tree.named? (o.effectiveFormat.outputPath other) ≠ some l) :
    (run logSpec args tree).tree.get? l = some (.file bytes.toArray) := by
  have put := comes.put
  obtain ⟨fx, converted, rfl⟩ := comes.converted
  have named' : fx.tree.named? (o.effectiveFormat.outputPath file) = some l := by rw [put.named?_eq, named]
  obtain ⟨content', there'⟩ : ∃ content', fx.tree.get? l = some (.file content') := by
    rcases put.get?_eq l with same | ⟨-, -, new⟩
    · exact ⟨content, same.trans there⟩
    · exact new
  have plain : ∀ l' ∈ fx.tree.named? (o.effectiveFormat.outputPath file), ∀ d,
      fx.tree.get? l' ≠ some (.device d) := by
    intro l' same d
    obtain rfl : l = l' := Option.some.inj (named'.symm.trans same)
    exact FileTree.plain_of_file there' d
  have output : fx.tree.besideOutput? o.effectiveFormat palette file = some bytes := by
    rw [FileTree.besideOutput?, if_pos (FileTree.canCreate_of_file there' named'), converts]
  have ends := convertBeside_ends o.effectiveFormat palette plain
  rw [output] at ends
  cases result : convertBeside o.effectiveFormat palette file fx with
  | error e gx =>
      rw [result] at ends
      exact absurd rfl ends.1
  | ok _ gx =>
      rw [result] at ends
      obtain ⟨-, filled⟩ := ends
      obtain ⟨l', same, written⟩ := filled.written bytes output
      obtain rfl : l = l' := Option.some.inj (named'.symm.trans same)
      have rest := forM_convertBeside_put o.effectiveFormat palette later gx
      have apart : l ∉ gx.tree.outputLocations o.effectiveFormat later := by
        intro mem
        obtain ⟨other, behind, theirs⟩ := FileTree.mem_outputLocations.mp mem
        rw [filled.put.named?_eq, put.named?_eq] at theirs
        exact last other behind theirs
      have run_eq : left (Program.convert o) ⟨tree, #[], #[]⟩ =
          left (later.forM (convertBeside o.effectiveFormat palette)) gx := by
        rw [left, convert_eq known, convertInputs_beside unset (format_of_beside beside), all,
          Writing.forM_append_of_ok converted, forM_of_ok result, left]
      rw [run_tree logSpec parsed, run_eq, rest.get?_of_notMem apart, written]

/-- The file that an output path names is overwritten, also if it is an input.  It ends with what the last
input is converted to whose output path names it, or with nothing if the picture of this input is refused. -/
theorem ComesTo.run_overwrites (all : inputs o = before ++ file :: later) {image : Image}
    (decoded : t.picture? file = some image)
    (last : ∀ other ∈ later, tree.named? (o.effectiveFormat.outputPath other) ≠ some l) :
    (run logSpec args tree).tree.get? l =
      some (.file ((t.conversion? o.effectiveFormat palette file).getD []).toArray) := by
  cases converts : t.conversion? o.effectiveFormat palette file with
  | some bytes => exact comes.run_fills logSpec parsed unset beside known named there all converts last
  | none =>
      rcases FileTree.conversion?_eq_none converts with missing | ⟨image', e, decoded', refuses⟩
      · rw [decoded] at missing
        cases missing
      · obtain ⟨-, -, -, -, empty⟩ :=
          comes.run_of_tooLarge logSpec parsed unset (format_of_beside beside) known decoded' refuses
        exact empty l named (FileTree.plain_of_file there) (FileTree.canCreate_of_file there named)

end

/-- **A run that is given no place for its output spares its inputs, unless their names are those of its
output.**  A command line that asks for no conversion changes no files.  An input file is what it was, whether the
run succeeds or fails, unless the format writes beside the inputs and the output path of an input that is
converted names this very file; such a file has the extension of the output in its name already.  And there
the loss is real: the file ends with what the last input is converted to whose output path names it, or with
nothing if the picture of that input is refused. -/
theorem run_spares_inputs (logSpec : Option String) (args : List String) (tree : FileTree) :
    ((∀ o, parse (normalize args) ≠ .ok (.convert o)) → (run logSpec args tree).tree = tree) ∧
    ∀ o, parse (normalize args) = .ok (.convert o) → o.outfile = none →
      (∀ input ∈ o.files.map utf8, (∀ l, tree.named? input = some l → l ∉ targets o tree) →
        ((run logSpec args tree).tree.openToRead input).toOption = (tree.openToRead input).toOption) ∧
      (tree.Rooted → ∀ input ∈ o.files.map utf8, ∀ l content,
        tree.named? input = some l → tree.get? l = some (.file content) →
        (∀ stem, l.getLast? ≠ some (stem ++ Path.dot :: o.effectiveFormat.fileExtension)) →
        (run logSpec args tree).tree.openToRead input = .ok (.file content)) ∧
      ∀ palette before file later t image l content, Palette.byName? o.paletteName = some palette →
        o.effectiveFormat.writesBesideInput = true → inputs o = before ++ file :: later →
        ComesTo o palette tree before file t → t.picture? file = some image →
        tree.named? (o.effectiveFormat.outputPath file) = some l → tree.get? l = some (.file content) →
        (∀ other ∈ later, tree.named? (o.effectiveFormat.outputPath other) ≠ some l) →
        ∀ input ∈ o.files.map utf8, tree.named? input = some l →
          (run logSpec args tree).tree.openToRead input =
            .ok (.file ((t.conversion? o.effectiveFormat palette file).getD []).toArray) := by
  constructor
  · intro other
    unfold run
    cases parsed : parse (normalize args) with
    | error e => rfl
    | ok request =>
        cases request with
        | help => rfl
        | convert o => exact absurd parsed (other o)
  · intro o parsed unset
    have put := run_put logSpec parsed unset tree
    refine ⟨?_, ?_, ?_⟩
    · intro input _ apart
      rw [FileTree.toOption_openToRead, FileTree.toOption_openToRead, put.resolve_eq apart]
    · intro rooted input _ l content named file other
      have apart : l ∉ targets o tree := fun mem => by
        obtain ⟨stem, ends⟩ := exists_stem_of_mem_targets rooted file mem
        exact other stem ends
      rw [← put.named?_eq] at named
      exact FileTree.openToRead_of_named named ((put.get?_of_notMem apart).trans file)
    · intro palette before file later t image l content known beside all comes decoded target there last input _
        named
      have written := comes.run_overwrites logSpec parsed unset beside known target there all decoded last
      rw [← put.named?_eq] at named
      exact FileTree.openToRead_of_named named written

/-- A directory with two bitmaps, one of them with the name of an output. -/
def lookalike : FileTree :=
  ⟨[], [([], .directory), ([utf8 "a.bmp"], .file FileTree.whiteDot), ([utf8 "p.h"], .file FileTree.whiteDot)]⟩

/-- The bitmap as an array of colour words. -/
def lookalikeText : Bytes :=
  utf8 "// File generated by bmp2c\n\n#include <cstdint>\n\nextern const uint16_t p[] =\n" ++
    utf8 "\x7b\n\t1, 1,\t\t\t// width and height in pixels\n\t0xffff\n\x7d;\n\n"

/-- Of two inputs, the one with the name of an output is lost. -/
theorem run_spares_inputs_lookalike :
    (run none ["-format", "rgb565", "a.bmp", "p.h"] lookalike).tree.openToRead (utf8 "a.bmp") =
        .ok (.file FileTree.whiteDot) ∧
      (run none ["-format", "rgb565", "a.bmp", "p.h"] lookalike).tree.openToRead (utf8 "p.h") =
        .ok (.file lookalikeText.toArray) := by
  have parsed : parse (normalize ["-format", "rgb565", "a.bmp", "p.h"]) =
      .ok (.convert ⟨false, some .rgb565, none, none, ["a.bmp", "p.h"]⟩) := by decide +kernel
  have known : Palette.byName? "paneldue" = some Palette.panelDue := by decide +kernel
  have separate : lookalike.Separate .rgb565 [utf8 "a.bmp"] := by decide +kernel
  have first : [utf8 "a.bmp"] ++ [utf8 "p.h"] <+: inputs ⟨false, some .rgb565, none, none, ["a.bmp", "p.h"]⟩ := by
    decide +kernel
  obtain ⟨t, comes⟩ : ∃ t, ComesTo ⟨false, some .rgb565, none, none, ["a.bmp", "p.h"]⟩ Palette.panelDue lookalike
      [utf8 "a.bmp"] (utf8 "p.h") t := exists_comesTo first separate (by decide +kernel)
  have text : t.conversion? .rgb565 Palette.panelDue (utf8 "p.h") = some lookalikeText := by
    rw [comes.put.conversion?_eq .rgb565 Palette.panelDue (by decide +kernel)]
    decide +kernel
  have rooted : lookalike.Rooted := by
    intro l front
    rw [List.prefix_nil.mp front]
    decide +kernel
  obtain ⟨-, spares⟩ := run_spares_inputs none ["-format", "rgb565", "a.bmp", "p.h"] lookalike
  obtain ⟨-, kept, lost⟩ := spares _ parsed rfl
  constructor
  · refine kept rooted (utf8 "a.bmp") (by decide +kernel) [utf8 "a.bmp"] FileTree.whiteDot (by decide +kernel)
      (by decide +kernel) ?_
    intro stem ends
    have letter : (utf8 "a.bmp").getLast? = (stem ++ Path.dot :: Format.rgb565.fileExtension).getLast? :=
      congrArg List.getLast? (Option.some.inj ends)
    have last : (Path.dot :: Format.rgb565.fileExtension).getLast? = some 0x68 := rfl
    rw [List.getLast?_append, last, Option.some_or] at letter
    exact absurd letter (by decide)
  · obtain ⟨image, decoded, -⟩ := FileTree.conversion?_eq_some text
    have written : (run none ["-format", "rgb565", "a.bmp", "p.h"] lookalike).tree.openToRead (utf8 "p.h") =
        .ok (.file ((t.conversion? .rgb565 Palette.panelDue (utf8 "p.h")).getD []).toArray) :=
      lost Palette.panelDue [utf8 "a.bmp"] (utf8 "p.h") [] t image [utf8 "p.h"] FileTree.whiteDot known
        rfl (by decide +kernel) comes decoded (by decide +kernel) (by decide +kernel) (by simp) (utf8 "p.h")
        (by decide +kernel) (by decide +kernel)
    rw [text] at written
    exact written

/-- A bitmap that has the name of its own output. -/
def alone : FileTree := ⟨[], [([], .directory), ([utf8 "p.h"], .file FileTree.whiteDot)]⟩

/-- **A run does not spare all its inputs**: a bitmap with the name of its own output is overwritten. -/
theorem not_forall_run_spares_inputs :
    ¬ ∀ (logSpec : Option String) (args : List String) (o : Options) (tree : FileTree),
      parse (normalize args) = .ok (.convert o) → o.outfile = none → ∀ input ∈ o.files.map utf8,
        ((run logSpec args tree).tree.openToRead input).toOption = (tree.openToRead input).toOption := by
  intro all
  have parsed : parse (normalize ["-format", "rgb565", "p.h"]) =
      .ok (.convert ⟨false, some .rgb565, none, none, ["p.h"]⟩) := by decide +kernel
  have known : Palette.byName? "paneldue" = some Palette.panelDue := by decide +kernel
  have comes : ComesTo ⟨false, some .rgb565, none, none, ["p.h"]⟩ Palette.panelDue alone [] (utf8 "p.h") alone :=
    ⟨⟨[], rfl⟩, _, rfl, rfl⟩
  have target : alone.named? (Format.rgb565.outputPath (utf8 "p.h")) = some [utf8 "p.h"] := by decide +kernel
  have there : alone.get? [utf8 "p.h"] = some (.file FileTree.whiteDot) := by decide +kernel
  have text : alone.conversion? .rgb565 Palette.panelDue (utf8 "p.h") = some lookalikeText := by decide +kernel
  have written := comes.run_fills none parsed rfl rfl known target there rfl text (by simp)
  have named : alone.named? (utf8 "p.h") = some [utf8 "p.h"] := by decide +kernel
  have named' := named
  rw [← (run_put none parsed rfl alone).named?_eq] at named'
  have same := all none _ _ alone parsed rfl (utf8 "p.h") (by decide +kernel)
  rw [FileTree.openToRead_of_named named there, FileTree.openToRead_of_named named' written] at same
  exact absurd same (by decide +kernel)

end Program

end BitmapAsset

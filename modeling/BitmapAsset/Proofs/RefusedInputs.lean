import BitmapAsset.Proofs.BesideInputs
import BitmapAsset.Proofs.HeaderReading
import BitmapAsset.Proofs.SharedOutput

/-! # Inputs that are refused

Whatever the files are, work on inputs changes no files but those that the output paths of these inputs name
(`Program.forM_convertBeside_put`).  So when a run comes to an input that cannot be opened or decoded,
and stops, the file beside this input is what it was when the run began, unless it is
the output of an earlier input (`Program.run_of_unreadable`).

A picture that its format cannot tell the size of is another matter.  It is refused only after its output
file was created or emptied, and the file stays empty (`Program.run_of_tooLarge`).  Such a picture
has more than 65535 rows, stored from the top, and only raw output refuses it (`Program.run_refused`). -/

namespace BitmapAsset

open BoundedSink (collect)
open FileTree (FilesPut FileOrNothing)
open Writing (left)

/-! ### Frames -/

namespace Buffered

/-- From one buffer to another, nothing but what they hold, standard output and the file behind them may be
different. -/
structure Moved (b b' : Buffered) : Prop where
  place_eq : b'.place = b.place
  put : FilesPut b.place.locations b.effects.tree b'.effects.tree

theorem Moved.of_tree {b b' : Buffered} (place : b'.place = b.place) (tree : b'.effects.tree = b.effects.tree) :
    Moved b b' := by
  refine ⟨place, ?_⟩
  rw [tree]
  exact (FilesPut.refl _).mono (List.nil_subset _)

theorem Moved.trans {a b c : Buffered} (ab : Moved a b) (bc : Moved b c) : Moved a c := by
  have put := bc.put
  rw [ab.place_eq] at put
  exact ⟨bc.place_eq.trans ab.place_eq,
    (ab.put.trans put).mono (List.append_subset.mpr ⟨List.Subset.refl _, List.Subset.refl _⟩)⟩

theorem moved_pass (bytes : Array UInt8) (b : Buffered) : Moved b (left (pass bytes) b) := by
  obtain ⟨held, place, fx⟩ := b
  cases appended : fx.append place bytes with
  | ok gx =>
      have passed : pass bytes ⟨held, place, fx⟩ = .ok () ⟨held, place, gx⟩ := by simp only [pass, appended]
      rw [Writing.left_of_ok passed]
      exact ⟨rfl, Effects.filesPut_of_append appended⟩
  | error cause =>
      have refused : pass bytes ⟨held, place, fx⟩ = .error (.write (.os cause)) ⟨held, place, fx⟩ := by
        simp only [pass, appended]
      rw [Writing.left_of_error refused]
      exact .of_tree rfl rfl

theorem moved_flush (b : Buffered) : Moved b (left flush b) := by
  have forget (b : Buffered) : Moved b (left (modify fun b : Buffered => { b with held := #[] }) b) :=
    .of_tree rfl rfl
  exact Writing.left_seq Moved Moved.trans (moved_pass b.held) forget b

theorem moved_put (bytes : Bytes) (b : Buffered) : Moved b (left (put bytes) b) := by
  have room (c : Buffered) :
      Moved c (left (if capacity < b.held.size + bytes.length then flush else pure ()) c) := by
    split_ifs
    · exact moved_flush c
    · exact .of_tree rfl rfl
  have rest (c : Buffered) :
      Moved c (left (if capacity ≤ bytes.length then pass bytes.toArray else hold bytes) c) := by
    split_ifs
    · exact moved_pass bytes.toArray c
    · exact .of_tree rfl rfl
  have both := Writing.left_seq Moved Moved.trans room rest b
  rw [left] at both ⊢
  rw [put_eq]
  exact both

/-- Work that writes changes no file but the one behind the buffer, even where that one refuses. -/
theorem moved_of_writes {work : Writing Buffered Unit} {bytes : Bytes} (h : Writes work bytes) (b : Buffered) :
    Moved b (left work b) := by
  induction h generalizing b with
  | done => exact .of_tree rfl rfl
  | put bytes => exact moved_put bytes b
  | note event => exact .of_tree rfl rfl
  | seq _ _ ihf ihg => exact Writing.left_seq Moved Moved.trans ihf ihg b

theorem moved_convert (format : Format) (image : Image) (file : Path) (palette : Palette) (b : Buffered) :
    Moved b (left (format.convert image file palette) b) := by
  by_cases holds : format.Holds image
  · obtain ⟨bytes, writes⟩ := Format.exists_convert_writes holds file palette
    exact moved_of_writes (writes Buffered) b
  · rw [Writing.left_of_error (Format.convert_of_not_holds holds file palette b)]
    exact .of_tree rfl rfl

theorem within_put {work : Writing Buffered Unit} (h : ∀ b, Moved b (left work b)) (place : OutputPlace)
    (fx : Effects) : FilesPut place.locations fx.tree (left (within place work) fx).tree := by
  have both := Writing.left_seq Moved Moved.trans h moved_flush ⟨#[], place, fx⟩
  rw [left] at both ⊢
  unfold within
  cases result : (work >>= fun _ => flush) ⟨#[], place, fx⟩ with
  | ok _ b =>
      rw [result] at both
      exact both.put
  | error e b =>
      rw [result] at both
      have handed : b.release = (left flush b).effects := by
        unfold release left
        cases flush b <;> rfl
      dsimp only
      rw [handed]
      exact (both.trans (moved_flush b)).put

end Buffered

namespace Program

open CommandLine (Options parse normalize)
open Writing (Ends forM_of_ok forM_of_error)

theorem create_put (p : Path) (fx : Effects) :
    (∃ place gx, Effects.create p fx = .ok place gx ∧ place.locations ⊆ (fx.tree.named? p).toList ∧
        FilesPut (fx.tree.named? p).toList fx.tree gx.tree) ∨
      ∃ e, Effects.create p fx = .error e fx := by
  by_cases plain : ∀ l ∈ fx.tree.named? p, ∀ d, fx.tree.get? l ≠ some (.device d)
  · rcases create_cases fx plain with ⟨l, named, free, -, created⟩ | ⟨-, failed⟩
    · refine Or.inl ⟨_, _, created, ?_, ?_⟩
      · rw [named]
        exact List.Subset.refl _
      · rw [named]
        exact FilesPut.put free _
    · exact Or.inr failed
  · simp only [not_forall, not_not] at plain
    obtain ⟨l, named, d, device⟩ := plain
    have opened : Effects.create p fx = .ok (.device d) fx := by
      unfold Effects.create
      rw [Writing.get_bind, FileTree.resolve_of_named named device]
      rfl
    exact Or.inl ⟨_, _, opened, List.nil_subset _, (FilesPut.refl _).mono (List.nil_subset _)⟩

theorem outputLocations_singleton (t : FileTree) (format : Format) (file : Path) :
    t.outputLocations format [file] = (t.named? (format.outputPath file)).toList := by
  unfold FileTree.outputLocations
  cases named : t.named? (format.outputPath file) <;> simp [named]

/-- An input changes no file but the one beside it, whatever becomes of it. -/
theorem convertBeside_put (format : Format) (palette : Palette) (file : Path) (fx : Effects) :
    FilesPut (fx.tree.outputLocations format [file]) fx.tree (left (convertBeside format palette file) fx).tree := by
  have nothing {t t' : FileTree} (same : t = t') : FilesPut (t.outputLocations format [file]) t t' := by
    rw [same]
    exact (FilesPut.refl _).mono (List.nil_subset _)
  obtain ⟨gx, same, ⟨image, -, read⟩ | ⟨-, e, failed⟩⟩ := readPicture_cases file fx
  · obtain ⟨treeEq, -⟩ := Prod.mk.inj same
    rw [left, convertBeside_eq read, treeEq, outputLocations_singleton]
    rcases create_put (format.outputPath file) (gx.note (.writing (format.outputPath file))) with
      ⟨place, hx, created, behind, put⟩ | ⟨e, failed⟩
    · have filled := Buffered.within_put (Buffered.moved_convert format image file palette) place hx
      rw [left] at filled
      simp only [bind, EStateM.bind, created]
      exact (put.trans filled).mono (List.append_subset.mpr ⟨List.Subset.refl _, behind⟩)
    · simp only [bind, EStateM.bind, failed]
      rw [← outputLocations_singleton]
      exact nothing rfl
  · have stopped : convertBeside format palette file fx = .error e gx := by
      simp only [convertBeside, bind, EStateM.bind, failed]
    rw [Writing.left_of_error stopped]
    exact nothing (Prod.mk.inj same).1

/-- Inputs change no files but those beside them. -/
theorem forM_convertBeside_put (format : Format) (palette : Palette) (files : List Path) (fx : Effects) :
    FilesPut (fx.tree.outputLocations format files) fx.tree
      (left (files.forM (convertBeside format palette)) fx).tree := by
  induction files generalizing fx with
  | nil => exact FilesPut.refl _
  | cons file files ih =>
      have first := convertBeside_put format palette file fx
      rw [FileTree.outputLocations_cons]
      cases result : convertBeside format palette file fx with
      | error e gx =>
          rw [Writing.left_of_error result] at first
          rw [Writing.left_of_error (forM_of_error result files)]
          exact first.mono (List.subset_append_left _ _)
      | ok _ gx =>
          rw [Writing.left_of_ok result] at first
          have rest := ih gx
          have names : gx.tree.outputLocations format files = fx.tree.outputLocations format files := by
            unfold FileTree.outputLocations
            rw [funext first.named?_eq]
          rw [names] at rest
          have same : left ((file :: files).forM (convertBeside format palette)) fx =
              left (files.forM (convertBeside format palette)) gx := by
            rw [left, forM_of_ok result, left]
          rw [same]
          exact first.trans rest

/-! ### One input that is refused -/

section
variable {format : Format} (palette : Palette) {file : Path} {fx : Effects}

/-- An input that cannot be opened or decoded fails before anything is done about its output. -/
theorem convertBeside_of_none (missing : fx.tree.picture? file = none) :
    ∃ e gx, convertBeside format palette file fx = .error e gx ∧ gx.tree = fx.tree := by
  obtain ⟨e, gx, failed, same⟩ := readPicture_of_none missing
  refine ⟨e, gx, ?_, (Prod.mk.inj same).1.symm⟩
  simp only [convertBeside, bind, EStateM.bind, failed]

theorem create_of_canCreate {p : Path} {l : Location} (named : fx.tree.named? p = some l)
    (plain : ∀ d, fx.tree.get? l ≠ some (.device d)) (can : fx.tree.canCreate p = true) :
    Effects.create p fx = .ok (.file l) { fx with tree := fx.tree.put l (.file #[]) } := by
  have only : ∀ l' ∈ fx.tree.named? p, ∀ d, fx.tree.get? l' ≠ some (.device d) := by
    intro l' named'
    obtain rfl : l = l' := Option.some.inj (named.symm.trans named')
    exact plain
  rcases create_cases fx only with ⟨l', named', -, -, created⟩ | ⟨cannot, -⟩
  · obtain rfl : l = l' := Option.some.inj (named.symm.trans named')
    exact created
  · rw [can] at cannot
    cases cannot

theorem within_of_refused {image : Image} {e : Error}
    (refuses : collect (format.convert image file palette) = .error e) (place : OutputPlace) (fx : Effects) :
    ∃ gx, Buffered.within place (format.convert image file palette) fx = .error e gx ∧
      ∀ l, place = .file l → fx.tree.get? l = some (.file #[]) → gx = fx := by
  have failed : Buffered.within place (format.convert image file palette) fx =
      .error e (Buffered.release ⟨#[], place, fx⟩) := by
    simp only [Buffered.within, bind, EStateM.bind, Format.refuses_of_collect refuses]
  refine ⟨_, failed, ?_⟩
  rintro l rfl empty
  have nothing : fx.append (.file l) #[] = .ok fx := by
    simp only [Effects.append, empty, Array.append_empty, FileTree.put_self empty]
  have passed : Buffered.pass #[] ⟨#[], .file l, fx⟩ = .ok () ⟨#[], .file l, fx⟩ := by
    simp only [Buffered.pass, nothing]
  have flushed : Buffered.flush ⟨#[], .file l, fx⟩ = .ok () ⟨#[], .file l, fx⟩ := by
    show EStateM.bind (Buffered.pass #[]) _ _ = _
    simp only [EStateM.bind, passed]
    rfl
  rw [Buffered.release, flushed]

/-- An input whose picture is refused fails with its output file empty, if the file can be created or
emptied. -/
theorem convertBeside_of_refused {image : Image} (there : fx.tree.picture? file = some image) {e : Error}
    (refuses : collect (format.convert image file palette) = .error e) :
    ∃ e gx, convertBeside format palette file fx = .error e gx ∧
      ∀ l, fx.tree.named? (format.outputPath file) = some l → (∀ d, fx.tree.get? l ≠ some (.device d)) →
        fx.tree.canCreate (format.outputPath file) = true → gx.tree.get? l = some (.file #[]) := by
  obtain ⟨gx, read, same⟩ := readPicture_of_some there
  obtain ⟨start, begin⟩ : ∃ start, start = gx.note (.writing (format.outputPath file)) := ⟨_, rfl⟩
  have treeEq : fx.tree = start.tree := by
    rw [begin]
    exact (Prod.mk.inj same).1
  rw [convertBeside_eq read, ← begin, treeEq]
  cases result : Effects.create (format.outputPath file) start with
  | error e' hx =>
      refine ⟨e', hx, by simp only [bind, EStateM.bind, result], ?_⟩
      intro l named plain can
      rw [create_of_canCreate named plain can] at result
      cases result
  | ok place hx =>
      obtain ⟨ix, failed, nothing⟩ := within_of_refused palette refuses place hx
      refine ⟨e, ix, by simp only [bind, EStateM.bind, result, failed], ?_⟩
      intro l named plain can
      rw [create_of_canCreate named plain can] at result
      cases result
      have empty : (start.tree.put l (.file #[])).get? l = some (.file #[]) := by
        rw [FileTree.get?_put, if_pos rfl]
      rw [nothing l rfl empty]
      exact empty

end

/-! ### Where a run stops -/

/-- How things are when a run comes to its first input. -/
def begun (o : Options) (tree : FileTree) : Effects := ⟨tree, #[], (preface o).toArray⟩

/-- A run comes to the input `file` when it has converted the inputs in front of it, and the files are those of
`t` then. -/
structure ComesTo (o : Options) (palette : Palette) (tree : FileTree) (before : List Path) (file : Path)
    (t : FileTree) : Prop where
  first : before ++ [file] <+: inputs o
  converted : ∃ fx,
    before.forM (convertBeside o.effectiveFormat palette) (begun o tree) = .ok () fx ∧ fx.tree = t

section
variable {o : Options} {palette : Palette} {tree t : FileTree} {before : List Path} {file : Path}

theorem convert_eq (known : Palette.byName? o.paletteName = some palette) (tree : FileTree) :
    Program.convert o ⟨tree, #[], #[]⟩ = convertInputs o palette (begun o tree) := by
  rw [convert_of_palette known, begun]
  simp

theorem exists_comesTo (first : before ++ [file] <+: inputs o) (separate : tree.Separate o.effectiveFormat before)
    (converts : ∀ other ∈ before, (tree.besideOutput? o.effectiveFormat palette other).isSome) :
    ∃ t, ComesTo o palette tree before file t := by
  have ends : Ends (before.forM (convertBeside o.effectiveFormat palette) (begun o tree)) _ _ :=
    forM_convertBeside separate (FilesPut.refl tree) (fun _ mem => absurd mem List.not_mem_nil)
  cases result : before.forM (convertBeside o.effectiveFormat palette) (begun o tree) with
  | ok _ fx => exact ⟨fx.tree, first, fx, result, rfl⟩
  | error e fx =>
      rw [result] at ends
      exact absurd converts ends.1

theorem ComesTo.put (comes : ComesTo o palette tree before file t) :
    FilesPut (tree.outputLocations o.effectiveFormat before) tree t := by
  obtain ⟨fx, converted, rfl⟩ := comes.converted
  have put := forM_convertBeside_put o.effectiveFormat palette before (begun o tree)
  rw [Writing.left_of_ok converted] at put
  exact put

theorem ComesTo.run_of_error (comes : ComesTo o palette tree before file t) (logSpec : Option String)
    {args : List String} (parsed : parse (normalize args) = .ok (.convert o)) (unset : o.outfile = none)
    (beside : o.effectiveFormat = .rgb565 ∨ o.effectiveFormat = .rgb565Rle ∨ o.effectiveFormat = .raw)
    (known : Palette.byName? o.paletteName = some palette) (leaves : FileTree → Prop)
    (fails : ∀ fx : Effects, fx.tree = t →
      ∃ e gx, convertBeside o.effectiveFormat palette file fx = .error e gx ∧ leaves gx.tree) :
    (run logSpec args tree).code = 1 ∧ leaves (run logSpec args tree).tree := by
  obtain ⟨⟨later, all⟩, fx, converted, same⟩ := comes
  obtain ⟨e, gx, failed, left⟩ := fails fx same
  have stops : Program.convert o ⟨tree, #[], #[]⟩ = .error e gx := by
    rw [convert_eq known, convertInputs_beside unset beside, ← all, List.append_assoc,
      Writing.forM_append_of_ok converted, List.singleton_append, forM_of_error failed]
  have done : finish o tree = (1, gx.note (.failed e)) := by
    unfold finish
    rw [stops]
  simp only [run, parsed, done]
  exact ⟨trivial, left⟩

section
variable (comes : ComesTo o palette tree before file t) (logSpec : Option String) {args : List String}
  (parsed : parse (normalize args) = .ok (.convert o)) (unset : o.outfile = none)
  (beside : o.effectiveFormat = .rgb565 ∨ o.effectiveFormat = .rgb565Rle ∨ o.effectiveFormat = .raw)
  (known : Palette.byName? o.paletteName = some palette)
include comes parsed unset beside known

theorem ComesTo.run_of_unreadable (missing : t.picture? file = none) :
    (run logSpec args tree).code = 1 ∧ (run logSpec args tree).tree = t := by
  refine comes.run_of_error logSpec parsed unset beside known (fun left => left = t) ?_
  rintro fx rfl
  exact convertBeside_of_none palette missing

/-- Only raw output refuses pictures beside their inputs, and only those of a first input with a side that is too
long.  The output file is empty then. -/
theorem ComesTo.run_of_tooLarge {image : Image} (there : t.picture? file = some image) {e : Error}
    (refuses : collect (o.effectiveFormat.convert image file palette) = .error e) :
    (run logSpec args tree).code = 1 ∧ o.effectiveFormat = .raw ∧ before = [] ∧
      (65535 < image.width ∨ 65535 < image.height) ∧
      ∀ l, tree.named? (o.effectiveFormat.outputPath file) = some l →
        (∀ d, tree.get? l ≠ some (.device d)) → tree.canCreate (o.effectiveFormat.outputPath file) = true →
          (run logSpec args tree).tree.get? l = some (.file #[]) := by
  obtain ⟨-, binary, large⟩ := (Format.collect_eq_error_iff _ _ _ _ _).mp refuses
  have raw : o.effectiveFormat = .raw := by
    rcases binary with rle | raw
    · rw [rle] at beside
      rcases beside with other | other | other <;> cases other
    · exact raw
  have none : before = [] := by
    have length := comes.first.length_le
    rw [inputs, raw, List.length_append, List.length_singleton, List.length_map] at length
    change before.length + 1 ≤ (o.files.take 1).length at length
    rw [List.length_take] at length
    exact List.eq_nil_of_length_eq_zero (by omega)
  have same : tree = t := by
    obtain ⟨fx, converted, rfl⟩ := comes.converted
    rw [none] at converted
    cases converted
    rfl
  obtain ⟨code, empty⟩ := comes.run_of_error logSpec parsed unset beside known
    (fun left => ∀ l, tree.named? (o.effectiveFormat.outputPath file) = some l →
      (∀ d, tree.get? l ≠ some (.device d)) → tree.canCreate (o.effectiveFormat.outputPath file) = true →
        left.get? l = some (.file #[])) (by
    rintro fx rfl
    rw [same]
    exact convertBeside_of_refused palette there refuses)
  exact ⟨code, raw, none, large, empty⟩

end

end

/-- **A run that comes to an input that cannot be opened, decoded or converted** fails.  If the input cannot be
opened or decoded, its output path leads where it led before the run, to the same file with the same content
or to nothing, unless it names the output of an earlier input.  And if it can be decoded, its picture has a
side that raw output cannot tell, nothing was converted before, and the output file is empty after the run,
if it can be created or emptied at all. -/
theorem run_refused (logSpec : Option String) {args : List String} {o : Options} {palette : Palette}
    (parsed : parse (normalize args) = .ok (.convert o)) (unset : o.outfile = none)
    (beside : o.effectiveFormat = .rgb565 ∨ o.effectiveFormat = .rgb565Rle ∨ o.effectiveFormat = .raw)
    (known : Palette.byName? o.paletteName = some palette) {tree t : FileTree} {before : List Path} {file : Path}
    (comes : ComesTo o palette tree before file t)
    (refused : t.conversion? o.effectiveFormat palette file = none) :
    (run logSpec args tree).code = 1 ∧
    (t.picture? file = none →
      (∀ l, tree.named? (o.effectiveFormat.outputPath file) = some l →
        l ∉ tree.outputLocations o.effectiveFormat before) →
      ((run logSpec args tree).tree.resolve (o.effectiveFormat.outputPath file)).toOption =
        (tree.resolve (o.effectiveFormat.outputPath file)).toOption) ∧
    ∀ image, t.picture? file = some image →
      o.effectiveFormat = .raw ∧ before = [] ∧ (65535 < image.width ∨ 65535 < image.height) ∧
      ∀ l, tree.named? (o.effectiveFormat.outputPath file) = some l →
        (∀ d, tree.get? l ≠ some (.device d)) → tree.canCreate (o.effectiveFormat.outputPath file) = true →
          (run logSpec args tree).tree.get? l = some (.file #[]) := by
  rcases FileTree.conversion?_eq_none refused with missing | ⟨image, e, there, refuses⟩
  · obtain ⟨code, left⟩ := comes.run_of_unreadable logSpec parsed unset beside known missing
    refine ⟨code, ?_, ?_⟩
    · intro _ apart
      rw [left]
      exact comes.put.resolve_eq apart
    · intro image there
      rw [missing] at there
      cases there
  · obtain ⟨code, rest⟩ := comes.run_of_tooLarge logSpec parsed unset beside known there refuses
    refine ⟨code, ?_, ?_⟩
    · intro missing
      rw [there] at missing
      cases missing
    · intro image' there'
      obtain rfl : image = image' := Option.some.inj (there.symm.trans there')
      exact rest

/-- A picture, and a file that is none, with older files beside both. -/
def torn : FileTree :=
  ⟨[], [([], .directory), ([utf8 "a.bmp"], .file FileTree.whiteDot), ([utf8 "a.h"], .file (utf8 "old\n").toArray),
    ([utf8 "b.bmp"], .file (utf8 "BM").toArray), ([utf8 "b.h"], .file (utf8 "older\n").toArray)]⟩

/-- The run stops at the second input, and the file beside it is still the older one. -/
theorem run_refused_torn :
    (run none ["-format", "rgb565", "a.bmp", "b.bmp"] torn).code = 1 ∧
      ((run none ["-format", "rgb565", "a.bmp", "b.bmp"] torn).tree.resolve (utf8 "b.h")).toOption =
        some (.present [utf8 "b.h"] (.file (utf8 "older\n").toArray)) := by
  have parsed : parse (normalize ["-format", "rgb565", "a.bmp", "b.bmp"]) =
      .ok (.convert ⟨false, some .rgb565, none, none, ["a.bmp", "b.bmp"]⟩) := by decide +kernel
  have known : Palette.byName? "paneldue" = some Palette.panelDue := by decide +kernel
  have separate : torn.Separate .rgb565 [utf8 "a.bmp"] := by decide +kernel
  have converts : ∀ other ∈ [utf8 "a.bmp"], (torn.besideOutput? .rgb565 Palette.panelDue other).isSome := by
    decide +kernel
  have first : [utf8 "a.bmp"] ++ [utf8 "b.bmp"] <+:
      inputs ⟨false, some .rgb565, none, none, ["a.bmp", "b.bmp"]⟩ := by decide +kernel
  obtain ⟨t, comes⟩ :=
    exists_comesTo (o := ⟨false, some .rgb565, none, none, ["a.bmp", "b.bmp"]⟩) first separate converts
  have missing : t.picture? (utf8 "b.bmp") = none := by
    rw [comes.put.picture?_eq (by decide +kernel)]
    decide +kernel
  have refused : t.conversion? .rgb565 Palette.panelDue (utf8 "b.bmp") = none := by
    rw [FileTree.conversion?, missing]
    rfl
  obtain ⟨code, same, -⟩ := run_refused none parsed rfl (Or.inl rfl) known comes refused
  refine ⟨code, (same missing (by decide +kernel)).trans ?_⟩
  decide +kernel

/-- The headers of a bitmap of one column and 65536 rows of three-byte pixels, the top row first. -/
def tallHeaders : Array UInt8 :=
  #[0x42, 0x4D, 0, 0, 0, 0, 0, 0, 0, 0, 54, 0, 0, 0,
    40, 0, 0, 0, 1, 0, 0, 0, 0, 0, 0xFF, 0xFF, 1, 0, 24, 0, 0, 0, 0, 0, 0, 0, 0, 0,
    0x13, 0x0B, 0, 0, 0x13, 0x0B, 0, 0, 0, 0, 0, 0, 0, 0, 0, 0]

/-- Such a bitmap, and an older file beside it. -/
def tower : FileTree :=
  ⟨[], [([], .directory), ([utf8 "tall.bmp"], .file (tallHeaders ++ Array.replicate 262144 255)),
    ([utf8 "tall.bin"], .file (utf8 "stale").toArray)]⟩

theorem exists_picture_tower : ∃ image, tower.picture? (utf8 "tall.bmp") = some image ∧
    image.width = 1 ∧ image.height = 65536 := by
  have headers : Bmp.Header.read tallHeaders 0 = .ok (⟨54, 40, 1, 65536, true, 24, .threeBytes, 0⟩, 54) := by
    decide +kernel
  have size : (tallHeaders ++ Array.replicate 262144 (255 : UInt8)).size = 262198 := by
    rw [Array.size_append, Array.size_replicate]
    rfl
  obtain ⟨bitmap, decoded, width, height⟩ :=
    Bitmap.exists_decode_of_rows (Bmp.Header.local_read _ (Array.replicate 262144 255) _ _ headers) rfl (by decide)
      (by rw [size]; decide)
  have named : tower.named? (utf8 "tall.bmp") = some [utf8 "tall.bmp"] := by decide +kernel
  have found : tower.get? [utf8 "tall.bmp"] = some (.file (tallHeaders ++ Array.replicate 262144 255)) := rfl
  exact ⟨bitmap.picture, FileTree.picture?_of_decode named found decoded, width, height⟩

/-- **An input that is refused does not always leave its output alone**: raw output empties the file beside a
bitmap that has too many rows. -/
theorem not_forall_run_refused :
    ¬ ∀ (logSpec : Option String) (args : List String) (o : Options) (palette : Palette) (tree t : FileTree)
      (before : List Path) (file : Path),
      parse (normalize args) = .ok (.convert o) → o.outfile = none →
      (o.effectiveFormat = .rgb565 ∨ o.effectiveFormat = .rgb565Rle ∨ o.effectiveFormat = .raw) →
      Palette.byName? o.paletteName = some palette → ComesTo o palette tree before file t →
      t.conversion? o.effectiveFormat palette file = none →
      (∀ l, tree.named? (o.effectiveFormat.outputPath file) = some l →
        l ∉ tree.outputLocations o.effectiveFormat before) →
      ((run logSpec args tree).tree.resolve (o.effectiveFormat.outputPath file)).toOption =
        (tree.resolve (o.effectiveFormat.outputPath file)).toOption := by
  intro all
  have parsed : parse (normalize ["-format", "raw", "tall.bmp"]) =
      .ok (.convert ⟨false, some .raw, none, none, ["tall.bmp"]⟩) := by decide +kernel
  have known : Palette.byName? "paneldue" = some Palette.panelDue := by decide +kernel
  have comes : ComesTo ⟨false, some .raw, none, none, ["tall.bmp"]⟩ Palette.panelDue tower []
      (utf8 "tall.bmp") tower :=
    ⟨⟨[], rfl⟩, _, rfl, rfl⟩
  obtain ⟨image, there, -, height⟩ := exists_picture_tower
  have refuses : collect (Format.raw.convert image (utf8 "tall.bmp") Palette.panelDue) =
      .error (.tooLarge image.width image.height) := by
    refine (Format.collect_eq_error_iff _ _ _ _ _).mpr ⟨rfl, Or.inr rfl, Or.inr ?_⟩
    rw [height]
    decide
  have refused : tower.conversion? .raw Palette.panelDue (utf8 "tall.bmp") = none := by
    rw [FileTree.conversion?, there]
    show (collect _).toOption = none
    rw [refuses]
    rfl
  have named : tower.named? (utf8 "tall.bin") = some [utf8 "tall.bin"] := by decide +kernel
  have stale : tower.get? [utf8 "tall.bin"] = some (.file (utf8 "stale").toArray) := by decide +kernel
  have plain : ∀ d, tower.get? [utf8 "tall.bin"] ≠ some (.device d) := by
    rw [stale]
    decide
  obtain ⟨-, -, -, -, empty⟩ := comes.run_of_tooLarge none parsed rfl (Or.inr (Or.inr rfl)) known there refuses
  have emptied := empty [utf8 "tall.bin"] named plain (by decide +kernel)
  have left := FileTree.get?_of_resolve (all none _ _ _ _ _ _ _ parsed rfl (Or.inr (Or.inr rfl)) known comes refused
    (fun _ _ => List.not_mem_nil)) named stale
  rw [left] at emptied
  exact absurd emptied (by decide)

end Program

end BitmapAsset

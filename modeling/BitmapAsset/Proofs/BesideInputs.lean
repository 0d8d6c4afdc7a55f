import BitmapAsset.Proofs.Inputs

/-! # Runs that write beside their inputs

A run that writes beside its inputs fills the output files of the inputs before the first that fails, and
changes no file but these and the output file of the one that fails (`Program.run_beside`).

One input fills its output file or fails, and changes no other file (`Program.convertBeside_ends`).  If the
output paths name different files, and no inputs (`FileTree.Separate`), what is done for one input
has no effect on what is done for the others: the loop goes from tree to tree, and each is the first
one but for output files of earlier inputs, so each input, and each path beside an input, is still
what it was when the run began (`Program.forM_convertBeside`). -/

namespace BitmapAsset

open BoundedSink (collect)
open Writing (Ends)

namespace FileTree

/-- Whether a file can be created or emptied: its directory must be there, and it must not be one itself. -/
def canCreate (t : FileTree) (p : Path) : Bool :=
  (t.resolve p).toOption.any fun place => place.standing? != some .directory

/-- What the file beside an input is to hold, if the input can be converted and the file can be created. -/
def besideOutput? (t : FileTree) (format : Format) (palette : Palette) (file : Path) : Option Bytes :=
  if t.canCreate (format.outputPath file) then t.conversion? format palette file else none

/-- The inputs before the first that fails. -/
def finished (t : FileTree) (format : Format) (palette : Palette) (files : List Path) : List Path :=
  files.takeWhile fun file => (t.besideOutput? format palette file).isSome

/-- The inputs up to the first that fails, and that one. -/
def reached (t : FileTree) (format : Format) (palette : Palette) (files : List Path) : List Path :=
  files.take ((t.finished format palette files).length + 1)

/-- The locations that output paths name. -/
def outputLocations (t : FileTree) (format : Format) (files : List Path) : List Location :=
  files.filterMap fun file => t.named? (format.outputPath file)

theorem mem_outputLocations {t : FileTree} {format : Format} {files : List Path} {l : Location} :
    l ∈ t.outputLocations format files ↔ ∃ file ∈ files, t.named? (format.outputPath file) = some l :=
  List.mem_filterMap

theorem outputLocations_cons (t : FileTree) (format : Format) (file : Path) (files : List Path) :
    t.outputLocations format (file :: files) = t.outputLocations format [file] ++ t.outputLocations format files := by
  show List.filterMap _ ([file] ++ files) = _
  exact List.filterMap_append

/-- The output paths name different files, none of them an input and none a device. -/
structure Separate (t : FileTree) (format : Format) (files : List Path) : Prop where
  distinct : files.Pairwise fun a b =>
    ∀ l ∈ t.named? (format.outputPath a), t.named? (format.outputPath b) ≠ some l
  apart : ∀ a ∈ files, ∀ b ∈ files, ∀ l ∈ t.named? (format.outputPath a), t.named? b ≠ some l
  plain : ∀ a ∈ files, ∀ l ∈ t.named? (format.outputPath a), ∀ d, t.get? l ≠ some (.device d)

instance {p : Device → Prop} [DecidablePred p] : Decidable (∀ d, p d) :=
  decidable_of_iff (p .null ∧ p .zero ∧ p .full ∧ p .stdout)
    ⟨fun ⟨null, zero, full, stdout⟩ d => by cases d <;> assumption, fun all => ⟨all _, all _, all _, all _⟩⟩

instance (t : FileTree) (format : Format) (files : List Path) : Decidable (t.Separate format files) :=
  decidable_of_iff
    ((files.Pairwise fun a b => ∀ l ∈ t.named? (format.outputPath a), t.named? (format.outputPath b) ≠ some l) ∧
      (∀ a ∈ files, ∀ b ∈ files, ∀ l ∈ t.named? (format.outputPath a), t.named? b ≠ some l) ∧
      ∀ a ∈ files, ∀ l ∈ t.named? (format.outputPath a), ∀ d, t.get? l ≠ some (.device d))
    ⟨fun ⟨distinct, apart, plain⟩ => ⟨distinct, apart, plain⟩, fun h => ⟨h.distinct, h.apart, h.plain⟩⟩

section
variable {t : FileTree} {format : Format} {palette : Palette} {file : Path}

theorem conversion?_of_besideOutput? {out : Bytes} (h : t.besideOutput? format palette file = some out) :
    t.conversion? format palette file = some out := by
  rw [besideOutput?] at h
  split_ifs at h
  exact h

theorem finished_cons_of_some {out : Bytes} (h : t.besideOutput? format palette file = some out)
    (files : List Path) :
    t.finished format palette (file :: files) = file :: t.finished format palette files :=
  List.takeWhile_cons_of_pos (Option.isSome_of_eq_some h)

theorem finished_cons_of_none (h : t.besideOutput? format palette file = none) (files : List Path) :
    t.finished format palette (file :: files) = [] :=
  List.takeWhile_cons_of_neg (by rw [h]; exact Bool.false_ne_true)

theorem reached_cons_of_some {out : Bytes} (h : t.besideOutput? format palette file = some out)
    (files : List Path) :
    t.reached format palette (file :: files) = file :: t.reached format palette files := by
  rw [reached, finished_cons_of_some h]
  rfl

theorem reached_cons_of_none (h : t.besideOutput? format palette file = none) (files : List Path) :
    t.reached format palette (file :: files) = [file] := by
  rw [reached, finished_cons_of_none h]
  rfl

theorem Separate.tail {files : List Path} (h : t.Separate format (file :: files)) : t.Separate format files where
  distinct := (List.pairwise_cons.mp h.distinct).2
  apart a ha b hb := h.apart a (List.mem_cons_of_mem _ ha) b (List.mem_cons_of_mem _ hb)
  plain a ha := h.plain a (List.mem_cons_of_mem _ ha)

theorem FilesPut.besideOutput?_eq {places : List Location} {t' : FileTree} (h : FilesPut places t t')
    (input : ∀ l, t.named? file = some l → l ∉ places)
    (output : ∀ l, t.named? (format.outputPath file) = some l → l ∉ places) :
    t'.besideOutput? format palette file = t.besideOutput? format palette file := by
  rw [besideOutput?, besideOutput?, canCreate, canCreate, h.resolve_eq output,
    h.conversion?_eq format palette input]

end

end FileTree

open FileTree (FilesPut FileOrNothing)

namespace Program

open CommandLine (Options parse normalize)
open Writing (forM_of_ok forM_of_error)

/-! ### One input -/

/-- An input changed its output file at most, and filled it if it did not fail. -/
structure Filled (t : FileTree) (format : Format) (palette : Palette) (file : Path) (before after : Effects) :
    Prop where
  stdout_eq : after.stdout = before.stdout
  put : FilesPut (t.outputLocations format [file]) before.tree after.tree
  written : ∀ bytes ∈ t.besideOutput? format palette file, ∃ l,
    t.named? (format.outputPath file) = some l ∧ after.tree.get? l = some (.file bytes.toArray)

theorem Filled.untouched {t : FileTree} {format : Format} {palette : Palette} {file : Path} {fx gx : Effects}
    (same : fx.lasting = gx.lasting) (fails : t.besideOutput? format palette file = none) :
    Filled t format palette file fx gx := by
  obtain ⟨treeEq, stdoutEq⟩ := Prod.mk.inj same
  refine ⟨stdoutEq.symm, ?_, ?_⟩
  · rw [← treeEq]
    exact (FilesPut.refl _).mono (List.nil_subset _)
  · intro bytes impossible
    rw [fails] at impossible
    cases impossible

theorem create_cases (fx : Effects) {p : Path}
    (plain : ∀ l ∈ fx.tree.named? p, ∀ d, fx.tree.get? l ≠ some (.device d)) :
    (∃ l, fx.tree.named? p = some l ∧ FileOrNothing (fx.tree.get? l) ∧ fx.tree.canCreate p = true ∧
        Effects.create p fx = .ok (.file l) { fx with tree := fx.tree.put l (.file #[]) }) ∨
      fx.tree.canCreate p = false ∧ ∃ e, Effects.create p fx = .error e fx := by
  unfold FileTree.canCreate Effects.create
  rw [Writing.get_bind]
  cases leads : fx.tree.resolve p with
  | error cause => exact Or.inr ⟨rfl, _, rfl⟩
  | ok there =>
      obtain ⟨named, stands⟩ := FileTree.resolve_eq_ok leads
      cases there with
      | vacant location => exact Or.inl ⟨location, named, Or.inl stands, rfl, rfl⟩
      | present location entry =>
          cases entry with
          | file content => exact Or.inl ⟨location, named, Or.inr ⟨content, stands⟩, rfl, rfl⟩
          | directory => exact Or.inr ⟨rfl, _, rfl⟩
          | device d => exact absurd stands (plain location named d)

theorem within_convert_ends {format : Format} {image : Image} {file : Path} {palette : Palette} {l : Location}
    {fx : Effects} (empty : fx.tree.get? l = some (.file #[])) :
    Ends (Buffered.within (.file l) (format.convert image file palette) fx)
      (collect (format.convert image file palette)).toOption.isSome
      (fun gx => gx.stdout = fx.stdout ∧ gx.tree =
        fx.tree.put l (.file ((collect (format.convert image file palette)).toOption.getD []).toArray)) := by
  have appended (bytes : Bytes) : fx.append (.file l) bytes.toArray =
      .ok { fx with tree := fx.tree.put l (.file bytes.toArray) } := by
    simp only [Effects.append, empty, Array.empty_append]
  have took := Buffered.took_nil ⟨_, appended []⟩
  have finish {r : EStateM.Result Error Effects Unit} {success : Prop} {bytes : Bytes}
      (h : Ends r success fun gx =>
        Effects.lasting { fx with tree := fx.tree.put l (.file bytes.toArray) } = gx.lasting) :
      Ends r success fun gx => gx.stdout = fx.stdout ∧ gx.tree = fx.tree.put l (.file bytes.toArray) := by
    refine h.imp Iff.rfl ?_
    intro gx same
    exact ⟨(Prod.mk.inj same).2.symm, (Prod.mk.inj same).1.symm⟩
  cases converts : collect (format.convert image file palette) with
  | ok bytes =>
      obtain ⟨b, wrote, took'⟩ :=
        Buffered.took_of_writes (Format.writes_of_collect converts) took ⟨_, appended bytes⟩
      refine finish (Buffered.within_ends ?_ (appended bytes))
      rw [wrote]
      exact ⟨rfl, took'⟩
  | error e =>
      refine finish (Buffered.within_ends ?_ (appended []))
      rw [Format.refuses_of_collect converts]
      exact ⟨Bool.false_ne_true, took⟩

theorem Filled.of_put_file {format : Format} {palette : Palette} {file : Path} {fx gx : Effects} {l : Location}
    {bytes : Bytes} (named : fx.tree.named? (format.outputPath file) = some l)
    (free : FileOrNothing (fx.tree.get? l)) (stdoutEq : gx.stdout = fx.stdout)
    (treeEq : gx.tree = fx.tree.put l (.file bytes.toArray))
    (right : ∀ out ∈ fx.tree.besideOutput? format palette file, out = bytes) :
    Filled fx.tree format palette file fx gx := by
  have mem : l ∈ fx.tree.outputLocations format [file] :=
    FileTree.mem_outputLocations.mpr ⟨file, List.mem_singleton_self file, named⟩
  refine ⟨stdoutEq, ?_, ?_⟩
  · rw [treeEq]
    exact (FilesPut.put free _).mono (List.cons_subset.mpr ⟨mem, List.nil_subset _⟩)
  · intro out written
    refine ⟨l, named, ?_⟩
    rw [treeEq, FileTree.get?_put, if_pos rfl, right out written]

theorem create_within_ends {format : Format} (palette : Palette) {file : Path} {image : Image} (fx : Effects)
    (plain : ∀ l ∈ fx.tree.named? (format.outputPath file), ∀ d, fx.tree.get? l ≠ some (.device d))
    (there : fx.tree.picture? file = some image) :
    Ends ((Effects.create (format.outputPath file) >>= fun place =>
        Buffered.within place (format.convert image file palette)) fx)
      (fx.tree.besideOutput? format palette file).isSome (Filled fx.tree format palette file fx) := by
  have converts : fx.tree.conversion? format palette file =
      (collect (format.convert image file palette)).toOption := by
    rw [FileTree.conversion?, there]
    rfl
  rcases create_cases fx plain with ⟨l, named, free, can, created⟩ | ⟨cannot, e, failed⟩
  · have output : fx.tree.besideOutput? format palette file =
        (collect (format.convert image file palette)).toOption := by
      rw [FileTree.besideOutput?, if_pos can, converts]
    simp only [bind, EStateM.bind, created]
    refine (within_convert_ends ?_).imp ?_ ?_
    · rw [FileTree.get?_put, if_pos rfl]
    · rw [output]
    · rintro gx ⟨stdoutEq, treeEq⟩
      refine Filled.of_put_file named free stdoutEq (treeEq.trans (FileTree.put_put fx.tree l _ _)) ?_
      intro out written
      rw [← output, written]
      rfl
  · have fails : fx.tree.besideOutput? format palette file = none := by
      rw [FileTree.besideOutput?, if_neg (Bool.eq_false_iff.mp cannot)]
    simp only [bind, EStateM.bind, failed, fails]
    exact ⟨Bool.false_ne_true, Filled.untouched rfl fails⟩

theorem convertBeside_eq {format : Format} {palette : Palette} {file : Path} {fx gx : Effects} {image : Image}
    (read : readPicture file fx = .ok image gx) : convertBeside format palette file fx =
      (Effects.create (format.outputPath file) >>= fun place =>
        Buffered.within place (format.convert image file palette)) (gx.note (.writing (format.outputPath file))) := by
  simp only [convertBeside, bind, EStateM.bind, read]
  rfl

/-- An input fills its output file or fails, and no other file changes. -/
theorem convertBeside_ends (format : Format) (palette : Palette) {file : Path} {fx : Effects}
    (plain : ∀ l ∈ fx.tree.named? (format.outputPath file), ∀ d, fx.tree.get? l ≠ some (.device d)) :
    Ends (convertBeside format palette file fx) (fx.tree.besideOutput? format palette file).isSome
      (Filled fx.tree format palette file fx) := by
  cases there : fx.tree.picture? file with
  | none =>
      obtain ⟨e, gx, failed, same⟩ := readPicture_of_none there
      have fails : fx.tree.besideOutput? format palette file = none := by
        rw [FileTree.besideOutput?, FileTree.conversion?, there]
        exact ite_self none
      simp only [convertBeside, bind, EStateM.bind, failed, fails]
      exact ⟨Bool.false_ne_true, Filled.untouched same fails⟩
  | some image =>
      obtain ⟨gx, read, same⟩ := readPicture_of_some there
      obtain ⟨tree, stdout, events⟩ := fx
      obtain ⟨tree', stdout', events'⟩ := gx
      obtain ⟨rfl, rfl⟩ := Prod.mk.inj same
      have fill := create_within_ends palette ⟨tree, stdout, events'.push (.writing (format.outputPath file))⟩ plain there
      rw [convertBeside_eq read]
      exact fill.imp Iff.rfl fun _ filled => ⟨filled.stdout_eq, filled.put, filled.written⟩

/-! ### All inputs -/

/-- The inputs changed the output files up to the first that failed, and filled those before. -/
structure FilledAll (t : FileTree) (format : Format) (palette : Palette) (files : List Path)
    (before after : Effects) : Prop where
  stdout_eq : after.stdout = before.stdout
  put : FilesPut (t.outputLocations format (t.reached format palette files)) before.tree after.tree
  written : ∀ file ∈ t.finished format palette files, ∃ l bytes, t.named? (format.outputPath file) = some l ∧
    t.besideOutput? format palette file = some bytes ∧ after.tree.get? l = some (.file bytes.toArray)

section
variable {t : FileTree} {format : Format} {palette : Palette} {file : Path} {files : List Path}
  {fx gx hx : Effects}

theorem filledAll_nil (t : FileTree) (format : Format) (palette : Palette) (fx : Effects) :
    FilledAll t format palette [] fx fx :=
  ⟨rfl, FilesPut.refl _, fun _ mem => absurd mem List.not_mem_nil⟩

theorem FilledAll.get?_eq (h : FilledAll t format palette files fx gx) {l : Location}
    (apart : ∀ file ∈ t.reached format palette files, t.named? (format.outputPath file) ≠ some l) :
    gx.tree.get? l = fx.tree.get? l := by
  refine h.put.get?_of_notMem ?_
  intro mem
  obtain ⟨file, reached, named⟩ := FileTree.mem_outputLocations.mp mem
  exact apart file reached named

theorem Filled.last (head : Filled t format palette file fx gx)
    (fails : t.besideOutput? format palette file = none) : FilledAll t format palette (file :: files) fx gx := by
  refine ⟨head.stdout_eq, ?_, ?_⟩
  · rw [FileTree.reached_cons_of_none fails]
    exact head.put
  · rw [FileTree.finished_cons_of_none fails]
    exact fun _ mem => absurd mem List.not_mem_nil

theorem Filled.cons (head : Filled t format palette file fx gx) {out : Bytes}
    (converts : t.besideOutput? format palette file = some out) (rest : FilledAll t format palette files gx hx)
    (distinct : ∀ other ∈ files, ∀ l ∈ t.named? (format.outputPath file),
      t.named? (format.outputPath other) ≠ some l) :
    FilledAll t format palette (file :: files) fx hx := by
  refine ⟨rest.stdout_eq.trans head.stdout_eq, ?_, ?_⟩
  · rw [FileTree.reached_cons_of_some converts, FileTree.outputLocations_cons]
    exact head.put.trans rest.put
  · rw [FileTree.finished_cons_of_some converts, List.forall_mem_cons]
    refine ⟨?_, rest.written⟩
    obtain ⟨l, named, written⟩ := head.written out converts
    refine ⟨l, out, named, converts, ?_⟩
    rw [rest.get?_eq, written]
    intro other reached there
    exact distinct other (List.mem_of_mem_take reached) l named there

theorem Filled.of_put {places : List Location} {t' : FileTree} (put : FilesPut places t t')
    (input : ∀ l, t.named? file = some l → l ∉ places)
    (output : ∀ l, t.named? (format.outputPath file) = some l → l ∉ places)
    (h : Filled t' format palette file fx gx) : Filled t format palette file fx gx := by
  have names : t'.named? = t.named? := funext put.named?_eq
  obtain ⟨stdoutEq, filled, written⟩ := h
  rw [FileTree.outputLocations, names] at filled
  rw [names, put.besideOutput?_eq input output] at written
  exact ⟨stdoutEq, filled, written⟩

end

/-- The inputs fill their output files up to the first that fails.  Some output files of earlier inputs
may be there already, at places that no input and no output path names. -/
theorem forM_convertBeside {t : FileTree} {format : Format} {palette : Palette} {files : List Path}
    (separate : t.Separate format files) {places : List Location} {fx : Effects}
    (put : FilesPut places t fx.tree)
    (fresh : ∀ l ∈ places, ∀ file ∈ files, t.named? file ≠ some l ∧ t.named? (format.outputPath file) ≠ some l) :
    Ends (files.forM (convertBeside format palette) fx)
      (∀ file ∈ files, (t.besideOutput? format palette file).isSome) (FilledAll t format palette files fx) := by
  induction files generalizing places fx with
  | nil => exact ⟨fun _ mem => absurd mem List.not_mem_nil, filledAll_nil t format palette fx⟩
  | cons file files ih =>
      have first : file ∈ file :: files := List.mem_cons_self
      have input : ∀ l, t.named? file = some l → l ∉ places := fun l named mem => (fresh l mem file first).1 named
      have output : ∀ l, t.named? (format.outputPath file) = some l → l ∉ places :=
        fun l named mem => (fresh l mem file first).2 named
      have plain : ∀ l ∈ fx.tree.named? (format.outputPath file), ∀ d, fx.tree.get? l ≠ some (.device d) := by
        intro l named
        rw [put.named?_eq] at named
        rw [put.get?_of_notMem (output l named)]
        exact separate.plain file first l named
      have step := (convertBeside_ends format palette plain).imp Iff.rfl fun _ => Filled.of_put put input output
      rw [put.besideOutput?_eq input output] at step
      cases result : convertBeside format palette file fx with
      | error e gx =>
          rw [result] at step
          rw [forM_of_error result]
          obtain ⟨fails, filled⟩ := step
          refine ⟨fun all => fails (all file first), filled.last ?_⟩
          exact Option.not_isSome_iff_eq_none.mp fails
      | ok _ gx =>
          rw [result] at step
          rw [forM_of_ok result, List.forall_mem_cons]
          obtain ⟨succeeds, filled⟩ := step
          obtain ⟨out, converts⟩ := Option.isSome_iff_exists.mp succeeds
          have distinct := (List.pairwise_cons.mp separate.distinct).1
          have fresh' : ∀ l ∈ places ++ t.outputLocations format [file], ∀ other ∈ files,
              t.named? other ≠ some l ∧ t.named? (format.outputPath other) ≠ some l := by
            intro l mem other there
            rcases List.mem_append.mp mem with old | new
            · exact fresh l old other (List.mem_cons_of_mem _ there)
            · obtain ⟨same, only, named⟩ := FileTree.mem_outputLocations.mp new
              rw [List.mem_singleton.mp only] at named
              exact ⟨separate.apart file first other (List.mem_cons_of_mem _ there) l named,
                distinct other there l named⟩
          refine (ih separate.tail (put.trans filled.put) fresh').imp ?_ ?_
          · exact ⟨fun all => ⟨succeeds, all⟩, And.right⟩
          · exact fun hx rest => filled.cons converts rest distinct

/-! ### The run -/

theorem convertInputs_beside {o : Options} (unset : o.outfile = none)
    (beside : o.effectiveFormat = .rgb565 ∨ o.effectiveFormat = .rgb565Rle ∨ o.effectiveFormat = .raw)
    (palette : Palette) :
    convertInputs o palette = (inputs o).forM (convertBeside o.effectiveFormat palette) := by
  refine if_pos ⟨Option.isNone_iff_eq_none.mpr unset, ?_⟩
  rcases beside with format | format | format
  all_goals rw [format]; rfl

/-- **A run that writes beside its inputs touches exactly their output files.**  Its inputs are those that
are named, or for raw output the first of them.  With output paths that name different files and none of the
inputs, the output file of every input before the first that cannot be opened, decoded, created or converted
ends with exactly what the input is converted to; files other than the output files of these inputs and of
that first one stay as they were, as do those of later inputs; nothing goes to standard output; and the run
succeeds exactly if no input failed. -/
theorem run_beside (logSpec : Option String) {args : List String} {o : Options} {palette : Palette}
    (parsed : parse (normalize args) = .ok (.convert o)) (unset : o.outfile = none)
    (beside : o.effectiveFormat = .rgb565 ∨ o.effectiveFormat = .rgb565Rle ∨ o.effectiveFormat = .raw)
    (known : Palette.byName? o.paletteName = some palette) {tree : FileTree}
    (separate : tree.Separate o.effectiveFormat (inputs o)) :
    (∀ file ∈ tree.finished o.effectiveFormat palette (inputs o), ∃ bytes,
      tree.conversion? o.effectiveFormat palette file = some bytes ∧
      (run logSpec args tree).tree.openToRead (o.effectiveFormat.outputPath file) = .ok (.file bytes.toArray)) ∧
    (∀ l, (∀ file ∈ tree.reached o.effectiveFormat palette (inputs o),
        tree.named? (o.effectiveFormat.outputPath file) ≠ some l) →
      (run logSpec args tree).tree.get? l = tree.get? l) ∧
    (∀ file ∈ (inputs o).drop ((tree.finished o.effectiveFormat palette (inputs o)).length + 1),
      ∀ l ∈ tree.named? (o.effectiveFormat.outputPath file),
        (run logSpec args tree).tree.get? l = tree.get? l) ∧
    (run logSpec args tree).stdout = #[] ∧
    ((run logSpec args tree).code = 0 ↔
      ∀ file ∈ inputs o, (tree.besideOutput? o.effectiveFormat palette file).isSome) := by
  have ends : Ends ((inputs o).forM (convertBeside o.effectiveFormat palette)
      ⟨tree, #[], (#[] : Array Event) ++ preface o⟩) _ _ :=
    forM_convertBeside separate (FilesPut.refl tree) (fun _ mem => absurd mem List.not_mem_nil)
  rw [← convertInputs_beside unset beside, ← convert_of_palette known ⟨tree, #[], #[]⟩] at ends
  obtain ⟨fx, filled, stdout, left, -, code⟩ := run_of_ends parsed logSpec ends
  rw [left]
  refine ⟨?_, fun l => filled.get?_eq, ?_, stdout.trans filled.stdout_eq, code⟩
  · intro file mem
    obtain ⟨l, bytes, named, output, written⟩ := filled.written file mem
    refine ⟨bytes, FileTree.conversion?_of_besideOutput? output, ?_⟩
    rw [← filled.put.named?_eq] at named
    rw [FileTree.openToRead, FileTree.resolve_of_named named written]
    rfl
  · intro file later l named
    have distinct := separate.distinct
    rw [← List.take_append_drop ((tree.finished o.effectiveFormat palette (inputs o)).length + 1) (inputs o),
      List.pairwise_append] at distinct
    refine filled.get?_eq ?_
    intro other reached there
    exact distinct.2.2 other reached file later l there named

/-- A directory with two pictures and an older file beside the first. -/
def shelf : FileTree :=
  ⟨[], [([], .directory), ([utf8 "a.bmp"], .file FileTree.whiteDot), ([utf8 "a.h"], .file (utf8 "old\n").toArray),
    ([utf8 "c.bmp"], .file FileTree.whiteDot)]⟩

/-- The first picture as an array of colour words. -/
def shelfText : Bytes :=
  utf8 "// File generated by bmp2c\n\n#include <cstdint>\n\nextern const uint16_t a[] =\n" ++
    utf8 "\x7b\n\t1, 1,\t\t\t// width and height in pixels\n\t0xffff\n\x7d;\n\n"

/-- With the second of three inputs missing, the older file beside the first is replaced, and there is none
beside the third.  For raw output a second input that is missing does not matter. -/
theorem run_beside_shelf :
    (run none ["-format", "rgb565", "a.bmp", "gone.bmp", "c.bmp"] shelf).tree.openToRead (utf8 "a.h") =
        .ok (.file shelfText.toArray) ∧
      (run none ["-format", "rgb565", "a.bmp", "gone.bmp", "c.bmp"] shelf).tree.get? [utf8 "c.h"] = none ∧
      (run none ["-format", "rgb565", "a.bmp", "gone.bmp", "c.bmp"] shelf).code ≠ 0 ∧
      (run none ["-format", "raw", "a.bmp", "gone.bmp"] shelf).tree.openToRead (utf8 "a.bin") =
        .ok (.file #[1, 0, 1, 0, 0xFF, 0xFF]) ∧
      (run none ["-format", "raw", "a.bmp", "gone.bmp"] shelf).code = 0 := by
  have parsed : parse (normalize ["-format", "rgb565", "a.bmp", "gone.bmp", "c.bmp"]) =
      .ok (.convert ⟨false, some .rgb565, none, none, ["a.bmp", "gone.bmp", "c.bmp"]⟩) := by decide +kernel
  have parsed' : parse (normalize ["-format", "raw", "a.bmp", "gone.bmp"]) =
      .ok (.convert ⟨false, some .raw, none, none, ["a.bmp", "gone.bmp"]⟩) := by decide +kernel
  have known : Palette.byName? "paneldue" = some Palette.panelDue := by decide +kernel
  have separate : shelf.Separate .rgb565 [utf8 "a.bmp", utf8 "gone.bmp", utf8 "c.bmp"] := by decide +kernel
  have separate' : shelf.Separate .raw [utf8 "a.bmp"] := by decide +kernel
  have text : shelf.conversion? .rgb565 Palette.panelDue (utf8 "a.bmp") = some shelfText := by decide +kernel
  have raw : shelf.conversion? .raw Palette.panelDue (utf8 "a.bmp") = some [1, 0, 1, 0, 0xFF, 0xFF] := by decide +kernel
  have missing : shelf.besideOutput? .rgb565 Palette.panelDue (utf8 "gone.bmp") = none := by decide +kernel
  obtain ⟨filled, -, later, -, succeeds⟩ := run_beside none parsed rfl (Or.inl rfl) known separate
  obtain ⟨filled', -, -, -, succeeds'⟩ := run_beside none parsed' rfl (Or.inr (Or.inr rfl)) known separate'
  refine ⟨?_, ?_, ?_, ?_, ?_⟩
  · obtain ⟨bytes, converts, holds⟩ := filled (utf8 "a.bmp") (by decide +kernel)
    rw [← Option.some.inj (converts.symm.trans text)]
    exact holds
  · exact later (utf8 "c.bmp") (by decide +kernel) [utf8 "c.h"] (by decide +kernel)
  · intro success
    exact absurd missing (Option.ne_none_iff_isSome.mpr (succeeds.mp success (utf8 "gone.bmp") (by decide +kernel)))
  · obtain ⟨bytes, converts, holds⟩ := filled' (utf8 "a.bmp") (by decide +kernel)
    obtain rfl := Option.some.inj (converts.symm.trans raw)
    exact holds
  · exact succeeds'.mpr (by decide +kernel)

end Program

end BitmapAsset

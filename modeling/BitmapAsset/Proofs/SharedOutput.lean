import BitmapAsset.Proofs.Inputs

/-! # Runs with one output

A run whose inputs share an output adds to it what the inputs are converted to, one after the other, up
to the first input that fails (`Program.run_shared`).

While the inputs are converted, only the output changes, so every input is still what it was when the run
began, and the buffer in front of the output has taken exactly the conversions so far.  One input keeps this
up: it either adds its conversion, or fails and adds nothing (`Program.convertShared_of_some`,
`Program.convertShared_of_none`).  Hence so do all of them (`Program.forM_convertShared`), and when the
buffer goes away, all that it took is in its place. -/

namespace BitmapAsset

/-- The locations whose files change when a place takes bytes. -/
def OutputPlace.locations : OutputPlace → List Location
  | .file location => [location]
  | .stdout | .device _ => []

namespace FileTree

/-- The place that opens to append to: what a path leads to must be there, and no directory. -/
def appendPlace? (t : FileTree) (p : Path) : Option OutputPlace :=
  match t.resolve p with
  | .ok (.present location (.file _)) => some (.file location)
  | .ok (.present _ (.device d)) => some (.device d)
  | _ => none

/-- What the inputs are converted to, one after the other, up to the first that cannot be converted. -/
def outputOf (t : FileTree) (format : Format) (palette : Palette) (files : List Path) : Bytes :=
  (files.takeWhile fun file => (t.conversion? format palette file).isSome).flatMap
    fun file => (t.conversion? format palette file).getD []

section
variable {t : FileTree} {format : Format} {palette : Palette} {file : Path}

theorem outputOf_cons_of_some {out : Bytes} (h : t.conversion? format palette file = some out)
    (files : List Path) :
    t.outputOf format palette (file :: files) = out ++ t.outputOf format palette files := by
  rw [outputOf, List.takeWhile_cons_of_pos (by rw [h]; rfl), List.flatMap_cons, h]
  rfl

theorem outputOf_cons_of_none (h : t.conversion? format palette file = none) (files : List Path) :
    t.outputOf format palette (file :: files) = [] := by
  rw [outputOf, List.takeWhile_cons_of_neg (by rw [h]; exact Bool.false_ne_true), List.flatMap_nil]

end

end FileTree

open FileTree (FilesPut)
open Effects (lasting)

theorem Effects.filesPut_of_append {fx gx : Effects} {place : OutputPlace} {bytes : Array UInt8}
    (h : fx.append place bytes = .ok gx) : FilesPut place.locations fx.tree gx.tree := by
  rcases append_eq_ok h with ⟨rfl | rfl, rfl⟩ | ⟨location, content, rfl, found, rfl⟩ | ⟨d, -, rfl, rfl⟩
  · exact FilesPut.refl _
  · exact FilesPut.refl _
  · exact FilesPut.put (Or.inr ⟨content, found⟩) _
  · exact FilesPut.refl _

theorem Buffered.Took.filesPut {start : Effects} {place : OutputPlace} {bytes : Bytes} {b : Buffered}
    (took : Took start place bytes b) : FilesPut place.locations start.tree b.effects.tree := by
  obtain ⟨-, passed, fx, -, first, same⟩ := took
  rw [← (Prod.mk.inj same).1]
  exact Effects.filesPut_of_append first

namespace Program

open CommandLine (Options parse normalize)
open Buffered (Took)
open Writing (Ends forM_of_ok forM_of_error)

/-! ### The inputs -/

section
variable {start : Effects} {place : OutputPlace} {bytes : Bytes} {b : Buffered} {format : Format}
  {palette : Palette} {file : Path} (took : Took start place bytes b)
include took

/-- An input adds its conversion to what the buffer took. -/
theorem convertShared_of_some {out : Bytes} (h : start.tree.conversion? format palette file = some out)
    (apart : ∀ l, start.tree.named? file = some l → l ∉ place.locations)
    (takes : start.Takes place (bytes ++ out)) :
    ∃ b', convertShared format palette file b = .ok () b' ∧ Took start place (bytes ++ out) b' := by
  rw [← took.filesPut.conversion?_eq format palette apart] at h
  obtain ⟨image, there, converts⟩ := FileTree.conversion?_eq_some h
  obtain ⟨gx, read, same⟩ := readPicture_of_some there
  obtain ⟨b', wrote, took'⟩ :=
    Buffered.took_of_writes (Format.writes_of_collect converts) (took.withEffects same) takes
  refine ⟨b', ?_, took'⟩
  simp only [convertShared, bind, EStateM.bind, Buffered.onEffects, read, wrote]

/-- An input that cannot be converted adds nothing, and stops with an error. -/
theorem convertShared_of_none (h : start.tree.conversion? format palette file = none)
    (apart : ∀ l, start.tree.named? file = some l → l ∉ place.locations) :
    ∃ e b', convertShared format palette file b = .error e b' ∧ Took start place bytes b' := by
  rw [← took.filesPut.conversion?_eq format palette apart] at h
  rcases FileTree.conversion?_eq_none h with missing | ⟨image, e, there, refused⟩
  · obtain ⟨e, gx, failed, same⟩ := readPicture_of_none missing
    refine ⟨e, _, ?_, took.withEffects same⟩
    simp only [convertShared, bind, EStateM.bind, Buffered.onEffects, failed]
  · obtain ⟨gx, read, same⟩ := readPicture_of_some there
    refine ⟨e, _, ?_, took.withEffects same⟩
    simp only [convertShared, bind, EStateM.bind, Buffered.onEffects, read]
    exact Format.refuses_of_collect refused _

end

/-- The inputs add their conversions, up to the first that cannot be converted. -/
theorem forM_convertShared {start : Effects} {place : OutputPlace} {format : Format} {palette : Palette}
    {files : List Path} (apart : ∀ file ∈ files, ∀ l, start.tree.named? file = some l → l ∉ place.locations)
    {bytes : Bytes} {b : Buffered} (took : Took start place bytes b)
    (takes : start.Takes place (bytes ++ start.tree.outputOf format palette files)) :
    Ends (files.forM (convertShared format palette) b)
      (∀ file ∈ files, (start.tree.conversion? format palette file).isSome)
      (Took start place (bytes ++ start.tree.outputOf format palette files)) := by
  induction files generalizing bytes b with
  | nil =>
      refine ⟨fun _ h => absurd h List.not_mem_nil, ?_⟩
      exact (List.append_nil bytes).symm ▸ took
  | cons file files ih =>
      obtain ⟨here, later⟩ := List.forall_mem_cons.mp apart
      rw [List.forall_mem_cons]
      cases h : start.tree.conversion? format palette file with
      | none =>
          rw [FileTree.outputOf_cons_of_none h, List.append_nil]
          obtain ⟨e, b', failed, took'⟩ := convertShared_of_none took h here
          rw [forM_of_error failed]
          exact ⟨fun all => Bool.false_ne_true all.1, took'⟩
      | some out =>
          rw [FileTree.outputOf_cons_of_some h, ← List.append_assoc] at takes ⊢
          obtain ⟨b', converted, took'⟩ := convertShared_of_some took h here takes.left
          rw [forM_of_ok converted]
          exact (ih later took' takes).imp ⟨fun all => ⟨rfl, all⟩, And.right⟩ (fun _ => id)

/-! ### The output -/

/-- The place where the inputs' conversions go, if it can be opened: standard output if none is given, or `-`. -/
def sharedPlace? (o : Options) (t : FileTree) : Option OutputPlace :=
  match o.outfile with
  | none => some .stdout
  | some name => if name = "-" then some .stdout else t.appendPlace? (utf8 name)

theorem openToAppend_cases (p : Path) (fx : Effects) :
    (∃ place, fx.tree.appendPlace? p = some place ∧ Effects.openToAppend p fx = .ok place fx) ∨
      fx.tree.appendPlace? p = none ∧ ∃ e, Effects.openToAppend p fx = .error e fx := by
  unfold FileTree.appendPlace? Effects.openToAppend
  rw [Writing.get_bind]
  cases fx.tree.resolve p with
  | error cause => exact Or.inr ⟨rfl, _, rfl⟩
  | ok there =>
      cases there with
      | vacant location => exact Or.inr ⟨rfl, _, rfl⟩
      | present location entry =>
          cases entry with
          | file content => exact Or.inl ⟨_, rfl, rfl⟩
          | directory => exact Or.inr ⟨rfl, _, rfl⟩
          | device d => exact Or.inl ⟨_, rfl, rfl⟩

theorem openOutput_of_ne {name : String} (named : name ≠ "-") (fx : Effects) :
    openOutput name fx = Effects.openToAppend (utf8 name) (fx.note (.appending (utf8 name))) := by
  have other : ¬ name = stdoutName := named
  unfold openOutput
  rw [if_neg other]
  rfl

theorem openOutput_cases (o : Options) (fx : Effects) : ∃ gx, fx.lasting = gx.lasting ∧
    ((∃ place, sharedPlace? o fx.tree = some place ∧
        openOutput (o.outfile.getD stdoutName) fx = .ok place gx) ∨
      sharedPlace? o fx.tree = none ∧ ∃ e, openOutput (o.outfile.getD stdoutName) fx = .error e gx) := by
  unfold sharedPlace?
  cases o.outfile with
  | none => exact ⟨fx, rfl, Or.inl ⟨_, rfl, rfl⟩⟩
  | some name =>
      by_cases stdout : name = "-"
      · subst stdout
        exact ⟨fx, rfl, Or.inl ⟨_, rfl, rfl⟩⟩
      · simp only [Option.getD_some, if_neg stdout, openOutput_of_ne stdout]
        exact ⟨fx.note _, rfl, openToAppend_cases _ (fx.note (.appending (utf8 name)))⟩

/-! ### The run -/

/-- A run left the files and standard output of `t` behind, with bytes added at the end of a place. -/
def Outcome.Added (place : OutputPlace) (bytes : Bytes) (t : FileTree) (r : Outcome) : Prop :=
  match place with
  | .stdout | .device .stdout => r.stdout = bytes.toArray ∧ r.tree = t
  | .file location => r.stdout = #[] ∧
      (∃ content, t.get? location = some (.file content) ∧
        r.tree.get? location = some (.file (content ++ bytes.toArray))) ∧
      ∀ other, other ≠ location → r.tree.get? other = t.get? other
  | .device _ => r.stdout = #[] ∧ r.tree = t

theorem Outcome.added_of_append {t : FileTree} {place : OutputPlace} {bytes : Bytes} {fx : Effects}
    (h : Effects.append place bytes.toArray ⟨t, #[], #[]⟩ = .ok fx) {r : Outcome}
    (stdout : r.stdout = fx.stdout) (tree : r.tree = fx.tree) : r.Added place bytes t := by
  rcases Effects.append_eq_ok h with ⟨rfl | rfl, rfl⟩ | ⟨location, content, rfl, found, rfl⟩ | ⟨d, other, rfl, rfl⟩
  · exact ⟨stdout.trans Array.empty_append, tree⟩
  · exact ⟨stdout.trans Array.empty_append, tree⟩
  · refine ⟨stdout, ⟨content, found, ?_⟩, ?_⟩
    · rw [tree, FileTree.get?_put, if_pos rfl]
    · intro place apart
      rw [tree, FileTree.get?_put, if_neg apart]
  · cases d with
    | stdout => exact absurd rfl other
    | null | zero | full => exact ⟨stdout, tree⟩

section
variable {o : Options} (shared : o.outfile.isSome ∨ o.effectiveFormat = .nibbles ∨ o.effectiveFormat = .rle)
include shared

theorem convertInputs_shared (palette : Palette) : convertInputs o palette = (do
    let place ← openOutput (o.outfile.getD stdoutName)
    Buffered.within place ((inputs o).forM (convertShared o.effectiveFormat palette))) := by
  refine if_neg ?_
  rintro ⟨none, beside⟩
  rcases shared with given | format | format
  · rw [Option.isNone_iff_eq_none.mp none] at given
    cases given
  · rw [format] at beside
    cases beside
  · rw [format] at beside
    cases beside

/-- Without a palette or an output nothing comes of a run. -/
theorem convert_of_closed (fx : Effects)
    (closed : Palette.byName? o.paletteName = none ∨ sharedPlace? o fx.tree = none) :
    Ends (Program.convert o fx) False (fun gx => fx.lasting = gx.lasting) := by
  cases known : Palette.byName? o.paletteName with
  | none => exact convert_of_unknown known fx
  | some palette =>
      have closed : sharedPlace? o fx.tree = none := by simpa [known] using closed
      rw [convert_of_palette known, convertInputs_shared shared]
      obtain ⟨hx, same, ⟨place, opens, -⟩ | ⟨-, e, failed⟩⟩ :=
        openOutput_cases o { fx with events := fx.events ++ preface o }
      · rw [closed] at opens
        cases opens
      · simp only [bind, EStateM.bind, failed]
        exact ⟨not_false, same⟩

theorem convert_of_open {palette : Palette} {place : OutputPlace} (fx : Effects)
    (known : Palette.byName? o.paletteName = some palette) (opens : sharedPlace? o fx.tree = some place) :
    ∃ start, fx.lasting = start.lasting ∧ Program.convert o fx =
      Buffered.within place ((inputs o).forM (convertShared o.effectiveFormat palette)) start := by
  rw [convert_of_palette known, convertInputs_shared shared]
  obtain ⟨hx, same, ⟨place', opens', opened⟩ | ⟨closed, -⟩⟩ :=
    openOutput_cases o { fx with events := fx.events ++ preface o }
  · obtain rfl : place = place' := Option.some.inj (opens.symm.trans opens')
    refine ⟨hx, same, ?_⟩
    simp only [bind, EStateM.bind, opened]
  · rw [opens] at closed
    cases closed

/-- **A run with a shared output adds the conversions before the first failure.**  Its inputs are those
that are named, or for a binary format the first of them.  If the palette is unknown or the output cannot
be opened, the run fails and leaves everything as it was.  Else the output, which is none of the inputs
and takes what it is given, ends with the conversions of the inputs up to the first that cannot be opened,
decoded or converted; no other file changes; and the run succeeds exactly if all inputs could be
converted. -/
theorem run_shared (logSpec : Option String) {args : List String}
    (parsed : parse (normalize args) = .ok (.convert o)) (tree : FileTree) :
    (Palette.byName? o.paletteName = none ∨ sharedPlace? o tree = none →
      (run logSpec args tree).code = 1 ∧ (run logSpec args tree).stdout = #[] ∧
        (run logSpec args tree).tree = tree) ∧
    ∀ palette place, Palette.byName? o.paletteName = some palette → sharedPlace? o tree = some place →
      (∀ file ∈ inputs o, ∀ location ∈ place.locations, tree.named? file ≠ some location) →
      Effects.Takes ⟨tree, #[], #[]⟩ place (tree.outputOf o.effectiveFormat palette (inputs o)) →
        (run logSpec args tree).Added place (tree.outputOf o.effectiveFormat palette (inputs o)) tree ∧
        ((run logSpec args tree).code = 0 ↔
          ∀ file ∈ inputs o, (tree.conversion? o.effectiveFormat palette file).isSome) := by
  constructor
  · intro closed
    obtain ⟨fx, same, stdout, left, code, fails⟩ :=
      run_of_ends parsed logSpec (convert_of_closed shared ⟨tree, #[], #[]⟩ closed)
    obtain ⟨treeEq, stdoutEq⟩ := Prod.mk.inj same
    have failed : (run logSpec args tree).code = 1 := Nat.le_antisymm code (Nat.pos_of_ne_zero fails.mp)
    exact ⟨failed, stdout.trans stdoutEq.symm, left.trans treeEq.symm⟩
  · rintro palette place known opens distinct ⟨hx, appended⟩
    obtain ⟨start, same, begun⟩ := convert_of_open shared ⟨tree, #[], #[]⟩ known opens
    obtain ⟨ix, appended', same'⟩ := Effects.append_of_lasting same appended
    obtain rfl : tree = start.tree := (Prod.mk.inj same).1
    have apart : ∀ file ∈ inputs o, ∀ l, start.tree.named? file = some l → l ∉ place.locations :=
      fun file mem l named there => distinct file mem l there named
    have takes : start.Takes place (start.tree.outputOf o.effectiveFormat palette (inputs o)) := ⟨ix, appended'⟩
    have ends := Buffered.within_ends (forM_convertShared apart (Buffered.took_nil takes) takes) appended'
    rw [← begun] at ends
    obtain ⟨gx, same'', stdout, left, -, code⟩ := run_of_ends parsed logSpec ends
    obtain ⟨treeEq, stdoutEq⟩ := Prod.mk.inj (same'.trans same'')
    exact ⟨Outcome.added_of_append appended (stdout.trans stdoutEq.symm) (left.trans treeEq.symm), code⟩

end

/-- A directory with a picture and a file of one line. -/
def desk : FileTree :=
  ⟨[], [([], .directory), ([utf8 "a.bmp"], .file FileTree.whiteDot), ([utf8 "out.h"], .file (utf8 "old\n").toArray)]⟩

/-- The picture as an array of palette indices. -/
def deskText : Bytes := utf8 "extern const uint8_t a.bmp[] =\n\x7b\t1, 1,\t// width, height\n\t0x10\n\x7d;\n"

/-- With the second input missing the run fails, but the picture of the first one is added; with the
output missing nothing happens.  For a run-length stream a second input that is missing does not matter. -/
theorem run_shared_desk :
    (run none ["-outfile", "out.h", "a.bmp", "gone.bmp"] desk).Added (.file [utf8 "out.h"]) deskText desk ∧
      (run none ["-outfile", "out.h", "a.bmp", "gone.bmp"] desk).code ≠ 0 ∧
      (run none ["-outfile", "gone.h", "a.bmp"] desk).tree = desk ∧
      (run none ["-binary", "a.bmp", "gone.bmp"] desk).Added .stdout [1, 0, 1, 0, 0, 0, 0xFF, 0xFF] desk ∧
      (run none ["-binary", "a.bmp", "gone.bmp"] desk).code = 0 := by
  have parsed : parse (normalize ["-outfile", "out.h", "a.bmp", "gone.bmp"]) =
      .ok (.convert ⟨false, none, some "out.h", none, ["a.bmp", "gone.bmp"]⟩) := by decide +kernel
  have parsed' : parse (normalize ["-outfile", "gone.h", "a.bmp"]) =
      .ok (.convert ⟨false, none, some "gone.h", none, ["a.bmp"]⟩) := by decide +kernel
  have binary : parse (normalize ["-binary", "a.bmp", "gone.bmp"]) =
      .ok (.convert ⟨true, none, none, none, ["a.bmp", "gone.bmp"]⟩) := by decide +kernel
  have known : Palette.byName? "paneldue" = some Palette.panelDue := by decide +kernel
  have text : desk.outputOf .nibbles Palette.panelDue [utf8 "a.bmp", utf8 "gone.bmp"] = deskText := by decide +kernel
  have stream : desk.outputOf .rle Palette.panelDue [utf8 "a.bmp"] = [1, 0, 1, 0, 0, 0, 0xFF, 0xFF] := by decide +kernel
  have missing : desk.conversion? .nibbles Palette.panelDue (utf8 "gone.bmp") = none := by decide +kernel
  have takes : Effects.Takes ⟨desk, #[], #[]⟩ (.file [utf8 "out.h"])
      (desk.outputOf .nibbles Palette.panelDue [utf8 "a.bmp", utf8 "gone.bmp"]) := ⟨_, rfl⟩
  obtain ⟨added, succeeds⟩ := (run_shared (Or.inl rfl) none parsed desk).2 Palette.panelDue (.file [utf8 "out.h"])
    known (by decide +kernel) (by decide +kernel) takes
  have closed := (run_shared (Or.inl rfl) none parsed' desk).1 (by decide +kernel)
  obtain ⟨shown, succeeds'⟩ := (run_shared (Or.inr (Or.inr rfl)) none binary desk).2 Palette.panelDue .stdout
    known rfl (by decide +kernel) ⟨_, rfl⟩
  rw [← text, ← stream]
  refine ⟨added, ?_, closed.2.2, shown, succeeds'.mpr (by decide +kernel)⟩
  intro success
  have converted := succeeds.mp success (utf8 "gone.bmp") (by decide +kernel)
  exact absurd missing (Option.ne_none_iff_isSome.mpr converted)

end Program

end BitmapAsset

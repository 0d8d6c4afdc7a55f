import BitmapAsset.CommandLine
import Mathlib.Tactic.SplitIfs

/-! # What arguments stand for

`normalize` gives the second dash to arguments before anything is known about them; only `parse` finds out which of them
are options.  Here each argument of a command line as it was typed has its role (`roles`), and `Reads` tells the options
of a run from the arguments in each role.

`parse_normalize_reads` says what a command line asks for: an option means the same with one dash and with two, but the
value of an option and what follows the end of the options get a second dash as well if they are spelled like an option
with one (`not_forall_reads_id`). -/

namespace BitmapAsset.CommandLine

/-! ### Roles -/

/-- What an argument stands for. -/
inductive Role where
  /-- An option, or the request for help. -/
  | flag
  /-- The value of an option. -/
  | value (option : ValueOption)
  /-- An input in front of the end of the options. -/
  | input
  /-- The two dashes that end the options. -/
  | terminator
  /-- An input behind them. -/
  | operand
deriving DecidableEq, Repr

/-- The arguments as they were typed, each with what it stands for.  An option may be spelled with one dash or two;
it takes the next argument as its value, whatever it is. -/
def roles : List String → List (Role × String)
  | [] => []
  | arg :: rest =>
      if arg = "--" then (.terminator, arg) :: rest.map (.operand, ·)
      else
        match ValueOption.ofName? (normalizeArg arg), rest with
        | some option, value :: rest => (.flag, arg) :: (.value option, value) :: roles rest
        | some _, [] => [(.flag, arg)]
        | none, rest =>
            if normalizeArg arg ∈ helpTriggers ∨ startsWithDash arg then (.flag, arg) :: roles rest
            else (.input, arg) :: roles rest

/-- The arguments that stand for the same. -/
def typed (role : Role) (rs : List (Role × String)) : List String := (rs.filter (·.1 = role)).map Prod.snd

/-! ### Spelling -/

/-- The options that get a second dash. -/
def dashed : List String := longFlags.map ("-" ++ ·)

theorem normalizeArg_cases (arg : String) :
    (∃ flag ∈ longFlags, arg = "-" ++ flag ∧ normalizeArg arg = "--" ++ flag) ∨
      arg ∉ dashed ∧ normalizeArg arg = arg := by
  unfold normalizeArg
  cases found : longFlags.find? fun flag => arg == "-" ++ flag with
  | some flag =>
      have same := List.find?_some found
      exact Or.inl ⟨flag, List.mem_of_find?_eq_some found, eq_of_beq same, rfl⟩
  | none =>
      refine Or.inr ⟨?_, rfl⟩
      intro mem
      obtain ⟨flag, long, rfl⟩ := List.mem_map.mp mem
      exact List.find?_eq_none.mp found flag long BEq.rfl

/-- Only the five names with one dash are changed. -/
theorem normalizeArg_eq_self_iff (arg : String) : normalizeArg arg = arg ↔ arg ∉ dashed := by
  rcases normalizeArg_cases arg with ⟨flag, long, rfl, more⟩ | ⟨other, same⟩
  · have changed : ∀ flag ∈ longFlags, "--" ++ flag ≠ "-" ++ flag := by decide
    refine iff_of_false ?_ (not_not_intro (List.mem_map_of_mem long))
    rw [more]
    exact changed flag long
  · exact iff_of_true same other

@[simp] theorem normalizeArg_normalizeArg (arg : String) : normalizeArg (normalizeArg arg) = normalizeArg arg := by
  rcases normalizeArg_cases arg with ⟨flag, long, rfl, more⟩ | ⟨other, same⟩
  · have two : ∀ flag ∈ longFlags, "--" ++ flag ∉ dashed := by decide
    rw [more]
    exact (normalizeArg_eq_self_iff _).mpr (two flag long)
  · rw [same, same]

theorem normalizeArg_eq_terminator_iff (arg : String) : normalizeArg arg = "--" ↔ arg = "--" := by
  rcases normalizeArg_cases arg with ⟨flag, long, rfl, more⟩ | ⟨other, same⟩
  · have longer : ∀ flag ∈ longFlags, "--" ++ flag ≠ "--" ∧ "-" ++ flag ≠ "--" := by decide
    rw [more]
    exact iff_of_false (longer flag long).1 (longer flag long).2
  · rw [same]

theorem startsWithDash_normalizeArg (arg : String) : startsWithDash (normalizeArg arg) = startsWithDash arg := by
  rcases normalizeArg_cases arg with ⟨flag, long, rfl, more⟩ | ⟨other, same⟩
  · have dash : ∀ flag ∈ longFlags, startsWithDash ("--" ++ flag) = startsWithDash ("-" ++ flag) := by decide
    rw [more]
    exact dash flag long
  · rw [same]

theorem ofName_normalizeArg {arg : String} {f : Format} (h : Format.ofName (normalizeArg arg) = .ok f) :
    normalizeArg arg = arg := by
  rcases normalizeArg_cases arg with ⟨flag, long, rfl, more⟩ | ⟨other, same⟩
  · have none : ∀ flag ∈ longFlags, (Format.ofName ("--" ++ flag)).toOption = none := by decide
    have no := none flag long
    rw [more] at h
    rw [h] at no
    cases no
  · exact same

/-! ### The roles in a command line -/

section Roles

variable {arg value : String} {rest : List String} {option : ValueOption}

theorem roles_terminator : roles ("--" :: rest) = (.terminator, "--") :: rest.map (.operand, ·) := by
  have unnamed : ValueOption.ofName? (normalizeArg "--") = none := by decide
  simp [roles, unnamed]

theorem roles_option (notEnd : arg ≠ "--") (named : ValueOption.ofName? (normalizeArg arg) = some option) :
    roles (arg :: value :: rest) = (.flag, arg) :: (.value option, value) :: roles rest := by
  simp [roles, notEnd, named]

theorem roles_switch (notEnd : arg ≠ "--") (unnamed : ValueOption.ofName? (normalizeArg arg) = none)
    (dash : startsWithDash arg = true) : roles (arg :: rest) = (.flag, arg) :: roles rest := by
  simp [roles, notEnd, unnamed, dash]

theorem name_eq (named : ValueOption.ofName? arg = some option) : option.name = arg := by
  rw [ValueOption.ofName?] at named
  have same := List.find?_some named
  exact eq_of_beq same

theorem ofName?_eq_none (plain : startsWithDash arg = false) : ValueOption.ofName? arg = none := by
  cases named : ValueOption.ofName? arg with
  | none => rfl
  | some option =>
      have dash : startsWithDash option.name = true := by cases option <;> decide
      rw [name_eq named, plain] at dash
      cases dash

theorem normalizeArg_of_plain (plain : startsWithDash arg = false) : normalizeArg arg = arg := by
  rcases normalizeArg_cases arg with ⟨flag, long, rfl, -⟩ | ⟨-, same⟩
  · have dash : ∀ flag ∈ longFlags, startsWithDash ("-" ++ flag) = true := by decide
    rw [dash flag long] at plain
    cases plain
  · exact same

theorem roles_input (plain : startsWithDash arg = false) (noHelp : arg ∉ helpTriggers) :
    roles (arg :: rest) = (.input, arg) :: roles rest := by
  have notEnd : arg ≠ "--" := by
    rintro rfl
    cases plain
  have same := normalizeArg_of_plain plain
  simp [roles, notEnd, same, ofName?_eq_none plain, noHelp, plain]

theorem map_snd_roles (args : List String) : (roles args).map Prod.snd = args := by
  fun_induction roles args <;> simp_all [Function.comp_def]

example : roles ["-outfile", "-binary", "a.bmp", "--", "-help"] =
    [(.flag, "-outfile"), (.value .outfile, "-binary"), (.input, "a.bmp"), (.terminator, "--"),
      (.operand, "-help")] := by
  decide

theorem mem_typed {role : Role} {rs : List (Role × String)} : arg ∈ typed role rs ↔ (role, arg) ∈ rs := by
  simp [typed]

theorem startsWithDash_of_input {args : List String} (mem : (Role.input, arg) ∈ roles args) :
    startsWithDash arg = false := by
  fun_induction roles args with
  | case6 first rest _ _ other ih =>
      rcases List.mem_cons.mp mem with same | mem
      · obtain rfl := (Prod.mk.inj same).2
        exact eq_false_of_ne_true (not_or.mp other).2
      · exact ih mem
  | _ => simp_all

theorem eq_of_terminator {args : List String} (mem : (Role.terminator, arg) ∈ roles args) : arg = "--" := by
  fun_induction roles args <;> simp_all

end Roles

/-! ### Reading -/

/-- The options `o` are what `start` becomes by arguments in these roles, where values and operands have got the
given spelling. -/
structure Reads (spell : String → String) (start : Options) (rs : List (Role × String)) (o : Options) : Prop where
  binary : o.binary = true ↔ start.binary = true ∨ ∃ arg, (Role.flag, arg) ∈ rs ∧ normalizeArg arg = "--binary"
  format : o.format.toList.map Except.ok =
    start.format.toList.map Except.ok ++ (typed (.value .format) rs).map Format.ofName
  outfile : o.outfile.toList = start.outfile.toList ++ (typed (.value .outfile) rs).map spell
  palette : o.palette.toList = start.palette.toList ++ (typed (.value .palette) rs).map spell
  files : o.files = start.files ++ typed .input rs ++ (typed .operand rs).map spell

theorem parseFrom_of_ended {s : ParseState} (ended : s.ended = true) (noHelp : s.help = false) (args : List String) :
    parseFrom s args = .ok (.convert { s.options with files := s.options.files ++ args }) := by
  induction args generalizing s with
  | nil => simp [parseFrom, ParseState.request, noHelp]
  | cons arg rest ih =>
      have step : parseFrom s (arg :: rest) = parseFrom (s.addFile arg) rest := by
        rw [parseFrom.eq_def]
        exact if_pos ended
      rw [step, ih (s := s.addFile arg) ended noHelp]
      simp [ParseState.addFile]

theorem parseFrom_of_help {s : ParseState} (help : s.help = true) (args : List String) (o : Options) :
    parseFrom s args ≠ .ok (.convert o) := by
  fun_induction parseFrom s args <;> simp_all [ParseState.request, ParseState.addFile]

section Reads

variable {spell : String → String} {start mid o : Options} {first rest : List (Role × String)} {arg value : String}

theorem typed_append (role : Role) : typed role (first ++ rest) = typed role first ++ typed role rest := by
  simp [typed]

theorem Reads.nil : Reads spell start [] start := by
  constructor <;> simp [typed]

theorem Reads.append (h : Reads spell start first mid) (inOptions : typed .operand first = [])
    (next : Reads spell mid rest o) : Reads spell start (first ++ rest) o where
  binary := by
    rw [next.binary, h.binary, or_assoc, ← exists_or]
    simp only [List.mem_append, or_and_right]
  format := by rw [next.format, h.format, typed_append, List.map_append, List.append_assoc]
  outfile := by rw [next.outfile, h.outfile, typed_append, List.map_append, List.append_assoc]
  palette := by rw [next.palette, h.palette, typed_append, List.map_append, List.append_assoc]
  files := by
    rw [next.files, h.files, typed_append, typed_append, inOptions]
    simp only [List.map_nil, List.append_nil, List.nil_append, List.append_assoc]

theorem Reads.exists_format (h : Reads spell start rest o) (mem : (Role.value .format, arg) ∈ rest) :
    ∃ f, Format.ofName arg = .ok f := by
  have ok : Format.ofName arg ∈ o.format.toList.map Except.ok := by
    rw [h.format]
    exact List.mem_append_right _ (List.mem_map_of_mem (mem_typed.mpr mem))
  obtain ⟨f, -, named⟩ := List.mem_map.mp ok
  exact ⟨f, named.symm⟩

theorem Reads.input (arg : String) :
    Reads spell start [(.input, arg)] { start with files := start.files ++ [arg] } := by
  constructor <;> simp [typed]

theorem Reads.binarySwitch (named : normalizeArg arg = "--binary") :
    Reads spell start [(.flag, arg)] { start with binary := true } := by
  constructor <;> simp [typed, named]

theorem Reads.terminator : Reads spell start [(.terminator, arg)] start := by
  constructor <;> simp [typed]

theorem Reads.operands (args : List String) :
    Reads spell start (args.map (.operand, ·)) { start with files := start.files ++ args.map spell } := by
  have all : typed .operand (args.map (Role.operand, ·)) = args := by simp [typed, List.filter_map, Function.comp_def]
  have no : ∀ role ≠ Role.operand, typed role (args.map (Role.operand, ·)) = [] := by
    intro role other
    simp [typed, Ne.symm other]
  constructor <;> simp [all, no]

theorem Reads.valueOption {option : ValueOption} (named : normalizeArg arg = option.name)
    (h : start.set option (normalizeArg value) = .ok mid) :
    Reads normalizeArg start [(.flag, arg), (.value option, value)] mid := by
  cases option with
  | format =>
      cases free : start.format with
      | some _ => simp [Options.set, free] at h
      | none =>
          cases given : Format.ofName (normalizeArg value) with
          | error e => simp [Options.set, free, given] at h
          | ok f =>
              obtain rfl : { start with format := some f } = mid := by simpa [Options.set, free, given] using h
              have asTyped : Format.ofName value = .ok f := by rw [← ofName_normalizeArg given, given]
              constructor <;> simp [typed, named, ValueOption.name, free, asTyped]
  | outfile =>
      cases free : start.outfile with
      | some _ => simp [Options.set, free] at h
      | none =>
          obtain rfl : { start with outfile := some (normalizeArg value) } = mid := by simpa [Options.set, free] using h
          constructor <;> simp [typed, named, ValueOption.name, free]
  | palette =>
      cases free : start.palette with
      | some _ => simp [Options.set, free] at h
      | none =>
          obtain rfl : { start with palette := some (normalizeArg value) } = mid := by simpa [Options.set, free] using h
          constructor <;> simp [typed, named, ValueOption.name, free]

end Reads

/-- What is read is what the arguments stand for, each value and operand with its second dash. -/
theorem parseFrom_reads {s : ParseState} (running : s.ended = false) (noHelp : s.help = false) {args : List String}
    {o : Options} (h : parseFrom s (normalize args) = .ok (.convert o)) :
    Reads normalizeArg s.options (roles args) o := by
  -- Along the reading.  The arguments are those whose spelling is read, so each case first finds the ones as typed.
  generalize spelled : normalize args = read at h
  fun_induction parseFrom s read generalizing args with
  | case1 s =>
      obtain rfl : args = [] := List.map_eq_nil_iff.mp spelled
      obtain rfl : s.options = o := by simpa [ParseState.request, noHelp] using h
      exact Reads.nil
  | case2 s arg rest ended ih =>
      rw [running] at ended
      cases ended
  | case3 s arg rest _ trigger ih => exact absurd h (parseFrom_of_help rfl rest o)
  | case4 s spelledArg rest _ noTrigger plain ih =>
      obtain ⟨arg, args, rfl, rfl, rfl⟩ := List.map_eq_cons_iff.mp spelled
      have plain : startsWithDash arg = false := by simpa [startsWithDash_normalizeArg] using plain
      have same := normalizeArg_of_plain plain
      rw [same] at noTrigger ih h
      rw [roles_input plain noTrigger]
      exact (Reads.input arg).append rfl (ih running noHelp rfl h)
  | case5 s rest =>
      obtain ⟨arg, args, rfl, terminator, rfl⟩ := List.map_eq_cons_iff.mp spelled
      obtain rfl := (normalizeArg_eq_terminator_iff arg).mp terminator
      have ended := parseFrom_of_ended (s := { s with ended := true }) rfl noHelp (args.map normalizeArg)
      obtain rfl := Request.convert.inj (Except.ok.inj (ended.symm.trans h))
      rw [roles_terminator]
      exact Reads.terminator.append rfl (Reads.operands args)
  | case6 s arg rest _ _ _ _ help =>
      rw [noHelp] at help
      cases help
  | case7 s rest _ _ _ _ _ ih =>
      obtain ⟨arg, args, rfl, named, rfl⟩ := List.map_eq_cons_iff.mp spelled
      have dash : startsWithDash arg = true := by
        rw [← startsWithDash_normalizeArg, named]
        decide
      have notEnd : arg ≠ "--" := by
        rintro rfl
        revert named
        decide
      rw [roles_switch notEnd (by rw [named]; decide) dash]
      exact (Reads.binarySwitch named).append rfl (ih running noHelp rfl h)
  | case8 | case9 | case11 => cases h
  | case10 s spelledArg _ _ _ notEnd _ _ option spelledValue rest named options set ih =>
      obtain ⟨arg, _, rfl, rfl, more⟩ := List.map_eq_cons_iff.mp spelled
      obtain ⟨value, args, rfl, rfl, rfl⟩ := List.map_eq_cons_iff.mp more
      have notEnd : arg ≠ "--" := fun same => notEnd ((normalizeArg_eq_terminator_iff arg).mpr same)
      rw [roles_option notEnd named]
      exact (Reads.valueOption (name_eq named).symm set).append rfl (ih running noHelp rfl h)

/-! ### Dashes outside the options -/

/-- No argument but an option is spelled like an option with one dash. -/
def OnlyFlagsDashed (args : List String) : Prop := ∀ p ∈ roles args, p.2 ∈ dashed → p.1 = .flag

instance (args : List String) : Decidable (OnlyFlagsDashed args) :=
  inferInstanceAs (Decidable (∀ p ∈ roles args, p.2 ∈ dashed → p.1 = .flag))

/-- The arguments with a second dash for the options only. -/
def dashFlags (args : List String) : List String :=
  (roles args).map fun p => if p.1 = .flag then normalizeArg p.2 else p.2

theorem normalize_eq_map_roles (args : List String) : normalize args = (roles args).map (normalizeArg ·.2) := by
  calc normalize args = ((roles args).map Prod.snd).map normalizeArg := by rw [map_snd_roles, normalize]
    _ = (roles args).map (normalizeArg ·.2) := List.map_map

theorem normalize_dashFlags (args : List String) : normalize (dashFlags args) = normalize args := by
  rw [normalize, normalize_eq_map_roles, dashFlags, List.map_map]
  refine List.map_congr_left ?_
  rintro ⟨role, arg⟩ -
  by_cases flag : role = .flag <;> simp [flag]

theorem normalize_eq_dashFlags_iff (args : List String) : normalize args = dashFlags args ↔ OnlyFlagsDashed args := by
  rw [normalize_eq_map_roles, dashFlags, List.map_inj_left]
  refine forall₂_congr fun p _ => ?_
  by_cases flag : p.1 = .flag
  · simp [flag]
  · simp [flag, normalizeArg_eq_self_iff]

/-- Values and operands were kept only if none of them is spelled like an option. -/
theorem Reads.onlyFlagsDashed {start o : Options} {args : List String}
    (spelled : Reads normalizeArg start (roles args) o) (asTyped : Reads id start (roles args) o) :
    OnlyFlagsDashed args := by
  rintro ⟨role, arg⟩ mem dash
  have changed : normalizeArg arg ≠ arg := mt (normalizeArg_eq_self_iff arg).mp (not_not_intro dash)
  have kept : ∀ {args : List String}, args.map normalizeArg = args.map id → arg ∈ args → normalizeArg arg = arg :=
    fun same mem => List.map_inj_left.mp same arg mem
  cases role with
  | flag => rfl
  | value option =>
      exfalso
      cases option with
      | format =>
          have noFormat : ∀ arg ∈ dashed, (Format.ofName arg).toOption = none := by decide
          obtain ⟨f, named⟩ := asTyped.exists_format mem
          have no := noFormat arg dash
          rw [named] at no
          cases no
      | outfile =>
          have same := List.append_cancel_left (spelled.outfile.symm.trans asTyped.outfile)
          exact changed (kept same (mem_typed.mpr mem))
      | palette =>
          have same := List.append_cancel_left (spelled.palette.symm.trans asTyped.palette)
          exact changed (kept same (mem_typed.mpr mem))
  | input => exact absurd (normalizeArg_of_plain (startsWithDash_of_input mem)) changed
  | terminator =>
      obtain rfl := eq_of_terminator mem
      exact absurd dash (by decide)
  | operand =>
      have same := List.append_cancel_left (spelled.files.symm.trans asTyped.files)
      exact absurd (kept same (mem_typed.mpr mem)) changed

theorem Reads.asTyped {start o : Options} {args : List String} (spelled : Reads normalizeArg start (roles args) o)
    (only : OnlyFlagsDashed args) : Reads id start (roles args) o := by
  have kept : ∀ role ≠ .flag, (typed role (roles args)).map normalizeArg = (typed role (roles args)).map id := by
    intro role other
    refine List.map_congr_left fun arg mem => ?_
    exact (normalizeArg_eq_self_iff arg).mpr fun dash => other (only _ (mem_typed.mp mem) dash)
  refine { spelled with outfile := ?_, palette := ?_, files := ?_ }
  · rw [spelled.outfile, kept _ Role.noConfusion]
  · rw [spelled.palette, kept _ Role.noConfusion]
  · rw [spelled.files, kept _ Role.noConfusion]

/-- **Values and operands get a second dash like options.**  A command line that asks for a conversion asks for what
its arguments stand for, options in either spelling, with every value and every operand in its spelling with two dashes.
So they are read as typed, and the second dash goes to options only, exactly if no other argument is spelled like an
option. -/
theorem parse_normalize_reads {args : List String} {o : Options} (h : parse (normalize args) = .ok (.convert o)) :
    Reads normalizeArg {} (roles args) o ∧ (Reads id {} (roles args) o ↔ OnlyFlagsDashed args) ∧
      (normalize args = dashFlags args ↔ OnlyFlagsDashed args) ∧ normalize (dashFlags args) = normalize args := by
  have spelled : Reads normalizeArg {} (roles args) o := parseFrom_reads rfl rfl h
  refine ⟨spelled, ?_, normalize_eq_dashFlags_iff args, normalize_dashFlags args⟩
  exact ⟨spelled.onlyFlagsDashed, spelled.asTyped⟩

/-- A command line whose output file is spelled like an option, -/
def dashedOutfile : List String := ["-outfile", "-binary", "a_21h.bmp"]

/-- and what it asks for. -/
def dashedOutfileRead : Options := { outfile := some "--binary", files := ["a_21h.bmp"] }

theorem parse_dashedOutfile_reads :
    parse (normalize dashedOutfile) = .ok (.convert dashedOutfileRead) ∧
      Reads normalizeArg {} (roles dashedOutfile) dashedOutfileRead ∧
      ¬ Reads id {} (roles dashedOutfile) dashedOutfileRead ∧ normalize dashedOutfile ≠ dashFlags dashedOutfile := by
  have parsed : parse (normalize dashedOutfile) = .ok (.convert dashedOutfileRead) := rfl
  have other : ¬ OnlyFlagsDashed dashedOutfile := by decide
  obtain ⟨spelled, asTyped, flagsOnly, -⟩ := parse_normalize_reads parsed
  exact ⟨parsed, spelled, mt asTyped.mp other, mt flagsOnly.mp other⟩

/-- What is typed need not be what is read. -/
theorem not_forall_reads_id :
    ¬ ∀ (args : List String) (o : Options), parse (normalize args) = .ok (.convert o) → Reads id {} (roles args) o := by
  intro all
  have asTyped := all dashedOutfile dashedOutfileRead rfl
  exact absurd asTyped.outfile (by decide)

end BitmapAsset.CommandLine

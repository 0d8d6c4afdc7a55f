import BitmapAsset.Format
import Mathlib.Data.List.TakeWhile
import Mathlib.Tactic.SplitIfs

/-! # Extensions put in place

A path with a file name is the text in front of the name, the name, and segments behind it that lead nowhere
(`Path.Named`, `Path.exists_named`).  `Path.withExtension` cuts as many bytes off its end as the old extension has.
These need not be the extension: where the text goes on behind the name, a beginning of the extension is left, or all of
it.  The stem is left in any case, and the new extension is put behind it (`Path.Named.withExtension_path`).

There is one exception.  A name of two dots and an extension has a single dot for its stem.  If nothing stands behind
it, two dots are left; they lead up and are no file name, so they stay as they are. -/

namespace BitmapAsset

namespace Path

/-! ### Segments -/

theorem slash_notMem_of_mem_segments {p : Path} {segment : Bytes} (mem : segment ∈ p.segments) :
    slash ∉ segment := by
  rw [segments] at mem
  induction p generalizing segment with
  | nil =>
      rw [List.splitOn_nil, List.mem_singleton] at mem
      rw [mem]
      exact List.not_mem_nil
  | cons byte p ih =>
      rw [List.splitOn_cons_eq_if_modifyHead] at mem
      split_ifs at mem with cut
      · rcases List.mem_cons.mp mem with rfl | later
        · exact List.not_mem_nil
        · exact ih later
      · obtain ⟨first, others, split⟩ := List.exists_cons_of_ne_nil (List.splitOn_ne_nil slash p)
        rw [split, List.modifyHead_cons] at mem
        rw [split] at ih
        rcases List.mem_cons.mp mem with rfl | later
        · rw [List.mem_cons, not_or]
          exact ⟨fun same => cut (by rw [← same]; exact BEq.rfl), ih List.mem_cons_self⟩
        · exact ih (List.mem_cons_of_mem first later)

theorem segments_injective : Function.Injective segments := by
  intro p q same
  calc p = [slash].intercalate p.segments := (List.intercalate_splitOn slash).symm
    _ = [slash].intercalate q.segments := by rw [same]
    _ = q := List.intercalate_splitOn slash

theorem segments_front {before : List Bytes} (clean : ∀ segment ∈ before, slash ∉ segment) (rest : Path) :
    segments (before.flatMap (· ++ [slash]) ++ rest) = before ++ segments rest := by
  induction before with
  | nil => rfl
  | cons first before ih =>
      obtain ⟨this, others⟩ := List.forall_mem_cons.mp clean
      have behind := ih others
      rw [segments] at behind ⊢
      rw [List.flatMap_cons, List.append_assoc, List.append_assoc, List.singleton_append,
        List.splitOn_append_cons_self_of_not_mem this, behind, List.cons_append]

theorem segments_behind {first : Bytes} {others : List Bytes} (here : slash ∉ first)
    (clean : ∀ segment ∈ others, slash ∉ segment) :
    segments (first ++ others.flatMap (slash :: ·)) = first :: others := by
  induction others generalizing first with
  | nil =>
      rw [List.flatMap_nil, List.append_nil]
      exact List.splitOn_eq_singleton here
  | cons next others ih =>
      obtain ⟨this, later⟩ := List.forall_mem_cons.mp clean
      have rest := ih this later
      rw [segments] at rest ⊢
      rw [List.flatMap_cons, List.cons_append, List.splitOn_append_cons_self_of_not_mem here, rest]

/-! ### Segments that lead nowhere -/

theorem isIdle_iff {segment : Bytes} : isIdle segment = true ↔ segment = [] ∨ segment = [dot] := by
  rw [isIdle, Bool.or_eq_true, beq_iff_eq, beq_iff_eq]

theorem slash_notMem_of_isIdle {segment : Bytes} (idle : isIdle segment = true) : slash ∉ segment := by
  rcases isIdle_iff.mp idle with rfl | rfl <;> decide

theorem isIdle_take {segment : Bytes} (idle : isIdle segment = true) (k : ℕ) : isIdle (segment.take k) = true := by
  rcases isIdle_iff.mp idle with rfl | rfl
  · rw [List.take_nil]
    rfl
  · cases k with
    | zero => rfl
    | succ k =>
        rw [List.take_succ_cons, List.take_nil]
        rfl

theorem exists_idle_take : ∀ {idle : List Bytes}, (∀ segment ∈ idle, isIdle segment = true) → ∀ k : ℕ,
    ∃ others : List Bytes, (∀ segment ∈ others, isIdle segment = true) ∧
      (idle.flatMap (slash :: ·)).take k = others.flatMap (slash :: ·)
  | [], nowhere, _ => ⟨[], nowhere, List.take_nil⟩
  | _ :: _, _, 0 => ⟨[], fun _ none => absurd none List.not_mem_nil, List.take_zero⟩
  | segment :: rest, nowhere, k + 1 => by
      obtain ⟨this, later⟩ := List.forall_mem_cons.mp nowhere
      obtain ⟨others, still, cut⟩ := exists_idle_take later (k - segment.length)
      refine ⟨segment.take k :: others, List.forall_mem_cons.mpr ⟨isIdle_take this k, still⟩, ?_⟩
      rw [List.flatMap_cons, List.cons_append, List.take_succ_cons, List.take_append, cut, List.flatMap_cons,
        List.cons_append]

/-! ### Stem and extension -/

theorem ne_dot_of_mem {bytes : Bytes} (plain : dot ∉ bytes) : ∀ byte ∈ bytes.reverse, (byte != dot) = true := by
  intro byte mem
  refine bne_iff_ne.mpr fun same => plain ?_
  rw [← same]
  exact List.mem_reverse.mp mem

theorem splitName_append_dot (stem : Bytes) {ext : Bytes} (plain : dot ∉ ext) :
    splitName (stem ++ dot :: ext) = if stem = [] then (stem ++ dot :: ext, none) else (stem, some ext) := by
  have afterDot : ((stem ++ dot :: ext).reverse.takeWhile (· != dot)).reverse = ext := by
    rw [List.reverse_append, List.reverse_cons, List.append_assoc, List.takeWhile_append_of_pos (ne_dot_of_mem plain),
      List.singleton_append, List.takeWhile_cons_of_neg (by decide), List.append_nil, List.reverse_reverse]
  have inFront : (stem ++ dot :: ext).length - ext.length - 1 = stem.length := by
    rw [List.length_append, List.length_cons]
    omega
  simp only [splitName, afterDot, inFront, List.take_left]

theorem splitName_of_notMem {name : FileName} (plain : dot ∉ name) : splitName name = (name, none) := by
  have afterDot : (name.reverse.takeWhile (· != dot)).reverse = name := by
    rw [List.takeWhile_eq_self_iff.mpr (ne_dot_of_mem plain), List.reverse_reverse]
  have nothing : name.take (name.length - name.length - 1) = [] := by
    rw [Nat.sub_self, Nat.zero_sub, List.take_zero]
  simp only [splitName, afterDot, nothing, if_true]

theorem splitName_cases (name : FileName) : splitName name = (name, none) ∨
    ∃ stem ext, stem ≠ [] ∧ dot ∉ ext ∧ name = stem ++ dot :: ext ∧ splitName name = (stem, some ext) := by
  by_cases dotted : dot ∈ name
  · obtain ⟨after, before, split, plain⟩ := List.eq_append_cons_of_mem (List.mem_reverse.mpr dotted)
    have parts : name = before.reverse ++ dot :: after.reverse := by
      rw [← List.reverse_reverse name, split]
      simp
    have plain : dot ∉ after.reverse := fun mem => plain (List.mem_reverse.mp mem)
    have cut := splitName_append_dot before.reverse plain
    rw [← parts] at cut
    by_cases first : before.reverse = []
    · rw [if_pos first] at cut
      exact Or.inl cut
    · rw [if_neg first] at cut
      exact Or.inr ⟨_, _, first, plain, parts, cut⟩
  · exact Or.inl (splitName_of_notMem dotted)

theorem stem_subset (name : FileName) : (splitName name).1 ⊆ name := by
  unfold splitName
  dsimp only
  split_ifs
  · exact List.Subset.refl name
  · exact List.take_subset _ name

theorem stem_append_eq_up_iff {stem : Bytes} (filled : stem ≠ []) (ext : Bytes) :
    stem ++ dot :: ext = up ↔ stem = [dot] ∧ ext = [] := by
  constructor
  · intro same
    obtain ⟨first, rest, rfl⟩ := List.exists_cons_of_ne_nil filled
    obtain ⟨head, tail⟩ := List.cons_eq_cons.mp same
    obtain ⟨nothing, last⟩ := (List.append_eq_singleton_iff.mp tail).resolve_right fun other => by simp at other
    rw [head, nothing]
    exact ⟨rfl, (List.cons_eq_cons.mp last).2⟩
  · rintro ⟨rfl, rfl⟩
    rfl

theorem isIdle_stem_append {stem : Bytes} (filled : stem ≠ []) (ext : Bytes) :
    isIdle (stem ++ dot :: ext) = false := by
  rw [← Bool.not_eq_true, isIdle_iff]
  rintro (same | same)
  · exact List.append_ne_nil_of_left_ne_nil filled _ same
  · rw [List.append_eq_singleton_iff] at same
    simp [filled] at same

/-- What an extension is made of. -/
structure IsExtension (ext : Bytes) : Prop where
  filled : ext ≠ []
  undotted : dot ∉ ext
  unslashed : slash ∉ ext

/-! ### Paths with a file name -/

/-- The parts of a path with a file name: the segments in front of the name, the name, and behind it segments that
lead nowhere. -/
structure Named where
  above : List Bytes
  name : FileName
  idle : List Bytes
  above_clean : ∀ segment ∈ above, slash ∉ segment
  name_clean : slash ∉ name
  leads : isIdle name = false
  down : name ≠ up
  nowhere : ∀ segment ∈ idle, isIdle segment = true

namespace Named

variable (n : Named)

/-- The text in front of the name. -/
def front : Bytes := n.above.flatMap (· ++ [slash])

/-- The text behind the name. -/
def behind : Bytes := n.idle.flatMap (slash :: ·)

/-- The text of the path. -/
def path : Path := n.front ++ (n.name ++ n.behind)

/-- The name without its extension. -/
def stem : FileName := (splitName n.name).1

theorem segments_path : n.path.segments = n.above ++ n.name :: n.idle := by
  rw [path, front, segments_front n.above_clean, behind,
    segments_behind n.name_clean fun segment mem => slash_notMem_of_isIdle (n.nowhere segment mem)]

theorem splitLast?_path : n.path.splitLast? = some (n.front, n.name) := by
  have nowhere : ∀ segment ∈ n.idle.reverse, isIdle segment = true := fun segment mem =>
    n.nowhere segment (List.mem_reverse.mp mem)
  have leads : ¬ isIdle n.name = true := by
    rw [n.leads]
    exact Bool.false_ne_true
  rw [splitLast?, segments_path, List.reverse_append, List.reverse_cons, List.append_assoc,
    List.dropWhile_append_of_pos nowhere, List.singleton_append, List.dropWhile_cons_of_neg leads]
  simp only [if_neg n.down, List.reverse_reverse, front]

theorem fileStem?_path : n.path.fileStem? = some n.stem := by
  rw [fileStem?, fileName?, splitLast?_path]
  rfl

theorem extension?_path : n.path.extension? = (splitName n.name).2 := by
  rw [extension?, fileName?, splitLast?_path]
  rfl

end Named

theorem exists_named {p : Path} (named : p.splitLast? ≠ none) : ∃ n : Named, n.path = p := by
  rw [splitLast?] at named
  have clean : ∀ segment ∈ p.segments, slash ∉ segment := fun segment => slash_notMem_of_mem_segments
  have parts := List.takeWhile_append_dropWhile (p := isIdle) (l := p.segments.reverse)
  cases cut : p.segments.reverse.dropWhile isIdle with
  | nil =>
      rw [cut] at named
      exact absurd rfl named
  | cons name before =>
      have leads : isIdle name = false := by
        have head := List.head?_dropWhile_not isIdle p.segments.reverse
        rwa [cut] at head
      have nowhere : ∀ segment ∈ (p.segments.reverse.takeWhile isIdle).reverse, isIdle segment = true :=
        fun segment mem => List.mem_takeWhile_imp (List.mem_reverse.mp mem)
      rw [cut] at named parts
      dsimp only at named
      have down : name ≠ up := fun same => named (if_pos same)
      have split := congrArg List.reverse parts
      rw [List.reverse_append, List.reverse_cons, List.append_assoc, List.singleton_append,
        List.reverse_reverse] at split
      rw [← split] at clean
      have above : ∀ segment ∈ before.reverse, slash ∉ segment := fun segment mem =>
        clean segment (List.mem_append_left _ mem)
      have here : slash ∉ name := clean name (List.mem_append_right _ List.mem_cons_self)
      refine ⟨⟨before.reverse, name, _, above, here, leads, down, nowhere⟩, segments_injective ?_⟩
      rw [Named.segments_path]
      exact split

/-! ### The extension put in place -/

theorem splitLast?_up {above : List Bytes} (clean : ∀ segment ∈ above, slash ∉ segment) :
    splitLast? (above.flatMap (· ++ [slash]) ++ up) = none := by
  have last : segments up = [up] := by decide
  rw [splitLast?, segments_front clean, last, List.reverse_append, List.reverse_singleton, List.singleton_append,
    List.dropWhile_cons_of_neg (by decide)]
  exact if_pos rfl

theorem fileStem?_of_unnamed {p : Path} (unnamed : p.splitLast? = none) : p.fileStem? = none := by
  rw [fileStem?, fileName?, unnamed]
  rfl

theorem withExtension_of_unnamed {p : Path} (unnamed : p.splitLast? = none) (ext : Bytes) :
    p.withExtension ext = p := by
  have plain : p.extension? = none := by
    rw [extension?, fileName?, unnamed]
    rfl
  simp only [withExtension, plain, unnamed]

namespace Named

variable (n : Named)

theorem stem_ne_nil : n.stem ≠ [] := by
  rcases splitName_cases n.name with plain | ⟨stem, ext, filled, -, -, cut⟩
  · have whole : n.stem = n.name := congrArg Prod.fst plain
    rw [whole]
    intro empty
    have leads := n.leads
    rw [empty] at leads
    cases leads
  · rw [Named.stem, cut]
    exact filled

theorem slash_notMem_stem : slash ∉ n.stem := fun mem => n.name_clean (stem_subset n.name mem)

theorem behind_eq_nil_iff : n.behind = [] ↔ n.idle = [] := by
  rw [behind]
  cases n.idle with
  | nil => simp
  | cons segment rest => simp

/-- The path with another name, and with other segments behind it. -/
def renamed (stem ext : Bytes) (idle : List Bytes) (filled : stem ≠ []) (clean : slash ∉ stem ++ dot :: ext)
    (down : stem ++ dot :: ext ≠ up) (nowhere : ∀ segment ∈ idle, isIdle segment = true) : Named :=
  ⟨n.above, stem ++ dot :: ext, idle, n.above_clean, clean, isIdle_stem_append filled ext, down, nowhere⟩

/-- What is left of a path when as many bytes are cut off its end as its extension has. -/
theorem take_path {stem old : Bytes} (parts : n.name = stem ++ dot :: old) :
    n.path.take (n.path.length - old.length) = n.front ++
      (stem ++ dot :: old.take n.behind.length ++ n.behind.take (n.behind.length - old.length)) := by
  have text : n.path = (n.front ++ stem ++ [dot]) ++ (old ++ n.behind) := by
    rw [path, parts]
    simp
  have length : n.path.length - old.length = (n.front ++ stem ++ [dot]).length + n.behind.length := by
    rw [text]
    simp only [List.length_append]
    omega
  rw [length, text, List.take_length_add_append, List.take_append]
  simp

theorem left_eq_up_iff {stem old : Bytes} (filled : stem ≠ []) (parts : n.name = stem ++ dot :: old) :
    stem ++ dot :: old.take n.behind.length = up ↔ stem = [dot] ∧ n.idle = [] := by
  rw [stem_append_eq_up_iff filled, List.take_eq_nil_iff, List.length_eq_zero_iff, behind_eq_nil_iff]
  refine and_congr_right fun bare => or_iff_left fun nothing => n.down ?_
  rw [parts, bare, nothing]
  rfl

theorem slash_notMem_left {stem old : Bytes} (parts : n.name = stem ++ dot :: old) (k : ℕ) :
    slash ∉ stem ++ dot :: old.take k := by
  have clean := n.name_clean
  rw [parts, List.mem_append, List.mem_cons, not_or, not_or] at clean
  rw [List.mem_append, List.mem_cons, not_or, not_or]
  exact ⟨clean.1, clean.2.1, fun mem => clean.2.2 (List.mem_of_mem_take mem)⟩

theorem take_path_of_bare {stem old : Bytes} (filled : stem ≠ []) (parts : n.name = stem ++ dot :: old)
    (bare : stem = [dot] ∧ n.idle = []) : n.path.take (n.path.length - old.length) = n.front ++ up := by
  rw [n.take_path parts, (n.left_eq_up_iff filled parts).mpr bare, n.behind_eq_nil_iff.mpr bare.2, List.take_nil,
    List.append_nil]

theorem splitLast?_take_path {stem old : Bytes} (filled : stem ≠ []) (parts : n.name = stem ++ dot :: old)
    (other : ¬ (stem = [dot] ∧ n.idle = [])) :
    splitLast? (n.path.take (n.path.length - old.length)) =
      some (n.front, stem ++ dot :: old.take n.behind.length) := by
  obtain ⟨idle, nowhere, behind⟩ : ∃ idle : List Bytes, (∀ segment ∈ idle, isIdle segment = true) ∧
      n.behind.take (n.behind.length - old.length) = idle.flatMap (slash :: ·) := exists_idle_take n.nowhere _
  have down := mt (n.left_eq_up_iff filled parts).mp other
  rw [n.take_path parts, behind]
  exact (n.renamed stem _ idle filled (n.slash_notMem_left parts _) down nowhere).splitLast?_path

/-- The extension is put behind the stem of the name, unless the name is two dots and its extension and nothing
stands behind it: then two dots are left. -/
theorem withExtension_path (ext : Bytes) : n.path.withExtension ext =
    n.front ++ if n.stem = [dot] ∧ n.idle = [] then up else n.stem ++ dot :: ext := by
  rcases splitName_cases n.name with plain | ⟨stem, old, filled, plain, parts, cut⟩
  · have whole : n.stem = n.name := congrArg Prod.fst plain
    have other : ¬ (n.stem = [dot] ∧ n.idle = []) := by
      rintro ⟨bare, -⟩
      have leads := n.leads
      rw [← whole, bare] at leads
      cases leads
    simp only [withExtension, extension?_path, plain, splitLast?_path]
    rw [if_neg other, whole, List.append_assoc]
  · have same : n.stem = stem := congrArg Prod.fst cut
    simp only [withExtension, extension?_path, cut, same]
    by_cases bare : stem = [dot] ∧ n.idle = []
    · have unnamed : splitLast? (n.front ++ up) = none := splitLast?_up n.above_clean
      rw [n.take_path_of_bare filled parts bare, unnamed, if_pos bare]
    · have plain : dot ∉ old.take n.behind.length := fun mem => plain (List.mem_of_mem_take mem)
      rw [n.splitLast?_take_path filled parts bare, if_neg bare]
      dsimp only
      rw [splitName_append_dot stem plain, if_neg filled, List.append_assoc]

variable {ext : Bytes} (h : IsExtension ext)

/-- The parts of a path that ends in the stem and another extension. -/
def output : Named :=
  n.renamed n.stem ext [] n.stem_ne_nil
    (by
      rw [List.mem_append, List.mem_cons, not_or, not_or]
      exact ⟨n.slash_notMem_stem, by decide, h.unslashed⟩)
    (fun up => h.filled ((stem_append_eq_up_iff n.stem_ne_nil ext).mp up).2)
    (fun _ none => absurd none List.not_mem_nil)

theorem path_output : (n.output h).path = n.front ++ (n.stem ++ dot :: ext) := by
  rw [path, behind]
  exact congrArg (n.front ++ ·) (List.append_nil _)

theorem stem_output : (n.output h).stem = n.stem := by
  have split : splitName (n.stem ++ dot :: ext) = (n.stem, some ext) :=
    (splitName_append_dot n.stem h.undotted).trans (if_neg n.stem_ne_nil)
  show (splitName (n.stem ++ dot :: ext)).1 = n.stem
  rw [split]

theorem withExtension_of_not_bare (other : ¬ (n.stem = [dot] ∧ n.idle = [])) :
    n.path.withExtension ext = (n.output h).path := by
  rw [withExtension_path, if_neg other, path_output]

end Named

/-- An extension put in place ends the name, or the path has no file name. -/
theorem withExtension_cases (p : Path) {ext : Bytes} (h : IsExtension ext) :
    (∃ n : Named, p.withExtension ext = (n.output h).path) ∨ (p.withExtension ext).splitLast? = none := by
  by_cases named : p.splitLast? = none
  · rw [withExtension_of_unnamed named]
    exact Or.inr named
  · obtain ⟨n, rfl⟩ := exists_named named
    by_cases bare : n.stem = [dot] ∧ n.idle = []
    · rw [n.withExtension_path, if_pos bare]
      exact Or.inr (splitLast?_up n.above_clean)
    · exact Or.inl ⟨n, n.withExtension_of_not_bare h bare⟩

end Path

theorem Format.isExtension (format : Format) : Path.IsExtension format.fileExtension := by
  cases format <;> exact ⟨by decide, by decide, by decide⟩

end BitmapAsset

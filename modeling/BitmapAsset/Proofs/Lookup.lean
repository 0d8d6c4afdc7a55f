import BitmapAsset.FileTree
import Mathlib.Tactic.SplitIfs

/-! # Which file a path names

A path names a location, whether or not something stands there: `FileTree.named?` follows the segments and
asks for a directory wherever it goes on.  If a path leads anywhere, it leads to the location that it
names (`FileTree.resolve_eq_ok`), and a path that names a location where something stands leads there
(`FileTree.resolve_of_named`).

Putting files where there are files or nothing does not change what paths name
(`FileTree.FilesPut.named?_eq`), nor where paths lead that name other locations
(`FileTree.FilesPut.resolve_eq`). -/

namespace BitmapAsset

/-- The location of a place. -/
def Place.location : Place → Location
  | present location _ | vacant location => location

/-- What stands at a place. -/
def Place.standing? : Place → Option Entry
  | present _ entry => some entry
  | vacant _ => none

namespace FileTree

/-- The location at the end of segments, if a directory stands wherever one goes on. -/
def endOf (t : FileTree) : Location → List Bytes → Option Location
  | here, [] => some here
  | here, segment :: rest =>
      if ! t.hasDirectory here then none
      else if Path.isIdle segment then t.endOf here rest
      else if segment = Path.up then t.endOf here.dropLast rest
      else if maxNameLength < segment.length then none
      else t.endOf (here ++ [segment]) rest

/-- Where the way of a path begins. -/
def origin (t : FileTree) (p : Path) : Location := if p.head? = some Path.slash then [] else t.workDir

/-- The location that a path names. -/
def named? (t : FileTree) (p : Path) : Option Location :=
  if p = [] then none
  else if pathLimit ≤ p.length then none
  else t.endOf (t.origin p) p.segments

/-! ### Where paths lead -/

theorem hasDirectory_of_endOf {t : FileTree} {here l : Location} {segment : Bytes} {rest : List Bytes}
    (h : t.endOf here (segment :: rest) = some l) : t.hasDirectory here = true := by
  rw [endOf] at h
  split_ifs at h with directory
  all_goals simpa using directory

theorem walk_eq_ok {t : FileTree} {place : Place} : ∀ (segments : List Bytes) (here : Location),
    t.walk here segments = .ok place →
      t.endOf here segments = some place.location ∧ t.get? place.location = place.standing?
  | [], here, h => by
      rw [walk] at h
      split at h
      next entry found =>
        rw [← Except.ok.inj h]
        exact ⟨rfl, found⟩
      next => cases h
  | segment :: rest, here, h => by
      rw [walk] at h
      rw [endOf]
      split_ifs at h ⊢ with directory idle up long
      · exact walk_eq_ok rest here h
      · exact walk_eq_ok rest here.dropLast h
      · dsimp only at h
        cases there : t.get? (here ++ [segment]) with
        | some entry =>
            rw [there] at h
            exact walk_eq_ok rest (here ++ [segment]) h
        | none =>
            rw [there] at h
            cases rest with
            | nil =>
                rw [← Except.ok.inj h]
                exact ⟨rfl, there⟩
            | cons next rest => cases h

theorem walk_of_endOf {t : FileTree} {l : Location} {entry : Entry} (found : t.get? l = some entry) :
    ∀ (segments : List Bytes) (here : Location),
      t.endOf here segments = some l → t.walk here segments = .ok (.present l entry)
  | [], here, h => by
      obtain rfl : here = l := Option.some.inj h
      rw [walk, found]
  | segment :: rest, here, h => by
      rw [endOf] at h
      rw [walk]
      split_ifs at h ⊢ with directory idle up long
      · exact walk_of_endOf found rest here h
      · exact walk_of_endOf found rest here.dropLast h
      · dsimp only
        have there : ∃ e, t.get? (here ++ [segment]) = some e := by
          cases rest with
          | nil => exact ⟨entry, by rwa [Option.some.inj h]⟩
          | cons next rest =>
              have directory := hasDirectory_of_endOf h
              unfold hasDirectory at directory
              cases he : t.get? (here ++ [segment]) with
              | some e => exact ⟨e, rfl⟩
              | none =>
                  rw [he] at directory
                  cases directory
        obtain ⟨e, he⟩ := there
        rw [he]
        exact walk_of_endOf found rest (here ++ [segment]) h

theorem resolve_eq_walk (t : FileTree) (p : Path) : t.resolve p =
    if p = [] then .error .noEntry
    else if pathLimit ≤ p.length then .error .nameTooLong
    else t.walk (t.origin p) p.segments := rfl

/-- A path leads to the location that it names, and to what stands there. -/
theorem resolve_eq_ok {t : FileTree} {p : Path} {place : Place} (h : t.resolve p = .ok place) :
    t.named? p = some place.location ∧ t.get? place.location = place.standing? := by
  rw [resolve_eq_walk] at h
  rw [named?]
  split_ifs at h ⊢
  exact walk_eq_ok _ _ h

/-- A path leads to what stands at the location that it names. -/
theorem resolve_of_named {t : FileTree} {p : Path} {l : Location} {entry : Entry}
    (h : t.named? p = some l) (found : t.get? l = some entry) : t.resolve p = .ok (.present l entry) := by
  rw [named?] at h
  rw [resolve_eq_walk]
  split_ifs at h ⊢
  exact walk_of_endOf found _ _ h

theorem openToRead_of_named {t : FileTree} {p : Path} {l : Location} {entry : Entry} (h : t.named? p = some l)
    (found : t.get? l = some entry) : t.openToRead p = .ok entry := by
  rw [openToRead, resolve_of_named h found]
  rfl

theorem get?_of_resolve {t t' : FileTree} {p : Path} {l : Location} {entry : Entry}
    (same : (t'.resolve p).toOption = (t.resolve p).toOption) (h : t.named? p = some l)
    (found : t.get? l = some entry) : t'.get? l = some entry := by
  rw [resolve_of_named h found] at same
  cases leads : t'.resolve p with
  | error cause =>
      rw [leads] at same
      cases same
  | ok place =>
      rw [leads] at same
      obtain ⟨-, stands⟩ := resolve_eq_ok leads
      rwa [Option.some.inj same] at stands

/-! ### Trees with other files -/

/-- Whether an entry, if there is one, is a file. -/
def FileOrNothing (found : Option Entry) : Prop := found = none ∨ ∃ content, found = some (.file content)

/-- `t'` is `t`, but for files at some of the places, where `t` has files or nothing. -/
structure FilesPut (places : List Location) (t t' : FileTree) : Prop where
  workDir_eq : t'.workDir = t.workDir
  get?_eq : ∀ l, t'.get? l = t.get? l ∨
    l ∈ places ∧ FileOrNothing (t.get? l) ∧ ∃ content, t'.get? l = some (.file content)

namespace FilesPut

theorem refl (t : FileTree) : FilesPut [] t t := ⟨rfl, fun _ => Or.inl rfl⟩

theorem put {t : FileTree} {l : Location} (h : FileOrNothing (t.get? l)) (content : Array UInt8) :
    FilesPut [l] t (t.put l (.file content)) := by
  refine ⟨rfl, ?_⟩
  intro other
  rw [get?_put]
  by_cases same : other = l
  · subst same
    exact Or.inr ⟨List.mem_singleton_self _, h, content, if_pos rfl⟩
  · exact Or.inl (if_neg same)

section
variable {places others : List Location} {t t' t'' : FileTree}

theorem mono (sub : places ⊆ others) (h : FilesPut places t t') : FilesPut others t t' := by
  refine ⟨h.workDir_eq, ?_⟩
  intro l
  rcases h.get?_eq l with same | ⟨mem, old, new⟩
  · exact Or.inl same
  · exact Or.inr ⟨sub mem, old, new⟩

theorem trans (h : FilesPut places t t') (h' : FilesPut others t' t'') :
    FilesPut (places ++ others) t t'' := by
  refine ⟨h'.workDir_eq.trans h.workDir_eq, ?_⟩
  intro l
  rcases h.get?_eq l with same | ⟨mem, old, content, new⟩
  · rcases h'.get?_eq l with same' | ⟨mem', old', new'⟩
    · exact Or.inl (same'.trans same)
    · exact Or.inr ⟨List.mem_append_right _ mem', same ▸ old', new'⟩
  · rcases h'.get?_eq l with same' | ⟨-, -, new'⟩
    · exact Or.inr ⟨List.mem_append_left _ mem, old, content, same'.trans new⟩
    · exact Or.inr ⟨List.mem_append_left _ mem, old, new'⟩

theorem get?_of_notMem (h : FilesPut places t t') {l : Location} (hl : l ∉ places) :
    t'.get? l = t.get? l := by
  rcases h.get?_eq l with same | ⟨mem, -, -⟩
  · exact same
  · exact absurd mem hl

theorem hasDirectory_eq (h : FilesPut places t t') (l : Location) :
    t'.hasDirectory l = t.hasDirectory l := by
  unfold hasDirectory
  rcases h.get?_eq l with same | ⟨-, missing | ⟨old, file⟩, new, file'⟩
  · rw [same]
  · rw [missing, file']
    rfl
  · rw [file, file']
    rfl

theorem endOf_eq (h : FilesPut places t t') : ∀ (segments : List Bytes) (here : Location),
    t'.endOf here segments = t.endOf here segments
  | [], _ => rfl
  | segment :: rest, here => by
      rw [endOf, endOf, h.hasDirectory_eq, endOf_eq h rest here, endOf_eq h rest here.dropLast,
        endOf_eq h rest (here ++ [segment])]

/-- What a path names stays the same. -/
theorem named?_eq (h : FilesPut places t t') (p : Path) : t'.named? p = t.named? p := by
  rw [named?, named?, origin, origin, h.workDir_eq, h.endOf_eq]

/-- A way that does not end at one of the places leads where it led, or nowhere as before. -/
theorem walk_eq (h : FilesPut places t t') : ∀ (segments : List Bytes) (here : Location),
    (∀ l, t.endOf here segments = some l → l ∉ places) →
      (t'.walk here segments).toOption = (t.walk here segments).toOption
  | [], here, apart => by
      rw [walk, walk, h.get?_of_notMem (apart here rfl)]
  | segment :: rest, here, apart => by
      rw [endOf] at apart
      rw [walk, walk, h.hasDirectory_eq]
      split_ifs at apart ⊢ with directory idle up long
      · rfl
      · exact walk_eq h rest here apart
      · exact walk_eq h rest here.dropLast apart
      · rfl
      · dsimp only
        rcases h.get?_eq (here ++ [segment]) with same | ⟨mem, old, content, new⟩
        · rw [same]
          cases t.get? (here ++ [segment]) with
          | some entry => exact walk_eq h rest (here ++ [segment]) apart
          | none => cases rest <;> rfl
        · cases rest with
          | nil => exact absurd mem (apart _ rfl)
          | cons next rest =>
              have noDirectory : t.hasDirectory (here ++ [segment]) = false := by
                unfold hasDirectory
                rcases old with missing | ⟨_, file⟩
                · rw [missing]
                  rfl
                · rw [file]
                  rfl
              have stop (s : FileTree) (hs : s.hasDirectory (here ++ [segment]) = false) :
                  s.walk (here ++ [segment]) (next :: rest) = .error .notDirectory := by
                rw [walk, hs]
                rfl
              rw [new]
              rcases old with missing | ⟨_, file⟩
              · rw [missing]
                simp only [stop t' (by rw [h.hasDirectory_eq, noDirectory])]
                rfl
              · rw [file]
                simp only [stop t' (by rw [h.hasDirectory_eq, noDirectory]), stop t noDirectory]

/-- A path that names none of the places leads where it led. -/
theorem resolve_eq (h : FilesPut places t t') {p : Path} (apart : ∀ l, t.named? p = some l → l ∉ places) :
    (t'.resolve p).toOption = (t.resolve p).toOption := by
  have start : t'.origin p = t.origin p := by rw [origin, origin, h.workDir_eq]
  rw [named?] at apart
  rw [resolve_eq_walk, resolve_eq_walk, start]
  split_ifs at apart ⊢
  · rfl
  · rfl
  · exact h.walk_eq _ _ apart

end

end FilesPut

end FileTree

end BitmapAsset

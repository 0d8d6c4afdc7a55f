import BitmapAsset.Effects
import BitmapAsset.Proofs.Lookup
import BitmapAsset.Proofs.Writes

/-! # What a buffer hands on

A place takes two byte strings one after the other as it takes them at once (`Effects.append_append`).  So
it does not matter where a buffer cuts the output: of all bytes that went into it, some were handed on
and it holds the rest (`Buffered.Took`).  Writing keeps this up (`Buffered.took_of_writes`), and when the
buffer goes away, after success or after an error, the place has taken all of them
(`Buffered.within_ends`). -/

namespace BitmapAsset

namespace FileTree

theorem replace_replace (location : Location) (old new : Entry) (l : List (Location × Entry)) :
    replace location new (replace location old l) = replace location new l := by
  induction l with
  | nil => simp [replace]
  | cons head rest ih =>
      by_cases h : head.1 = location
      · simp [replace, h]
      · simp [replace, h, ih]

theorem replace_self {location : Location} {entry : Entry} {l : List (Location × Entry)}
    (h : l.lookup location = some entry) : replace location entry l = l := by
  induction l with
  | nil => cases h
  | cons head rest ih =>
      obtain ⟨key, value⟩ := head
      by_cases hk : key = location
      · subst hk
        rw [List.lookup_cons_self] at h
        rw [replace, if_pos rfl, Option.some.inj h]
      · rw [List.lookup_cons, beq_false_of_ne (Ne.symm hk)] at h
        rw [replace, if_neg hk, ih h]

theorem put_put (t : FileTree) (location : Location) (old new : Entry) :
    (t.put location old).put location new = t.put location new := by
  rw [put, put, put, replace_replace]

theorem put_self {t : FileTree} {location : Location} {entry : Entry} (h : t.get? location = some entry) :
    t.put location entry = t := by
  rw [put, replace_self h]

end FileTree

namespace Writing

/-! ### How work ends -/

/-- Work ended in success exactly if `success` holds, and `left` holds of what it left behind. -/
def Ends {W : Type} (r : EStateM.Result Error W Unit) (success : Prop) (left : W → Prop) : Prop :=
  match r with
  | .ok _ w => success ∧ left w
  | .error _ w => ¬ success ∧ left w

theorem Ends.imp {W : Type} {r : EStateM.Result Error W Unit} {success success' : Prop} {left left' : W → Prop}
    (h : Ends r success left) (same : success ↔ success') (imp : ∀ w, left w → left' w) :
    Ends r success' left' := by
  cases r with
  | ok _ w => exact ⟨same.mp h.1, imp w h.2⟩
  | error _ w => exact ⟨fun succeeded => h.1 (same.mpr succeeded), imp w h.2⟩

theorem get_bind {W α : Type} (f : W → Writing W α) (w : W) : (get >>= f) w = f w w := rfl

end Writing

namespace Effects

/-! ### Places -/

/-- What stays of a run: the files and standard output, without the remarks. -/
def lasting (fx : Effects) : FileTree × Array UInt8 := (fx.tree, fx.stdout)

/-- A place takes the bytes. -/
def Takes (fx : Effects) (place : OutputPlace) (bytes : Bytes) : Prop :=
  ∃ gx, fx.append place bytes.toArray = .ok gx

/-- What a place can do with bytes: they go to standard output, to the end of a file, or nowhere. -/
theorem append_eq_ok {fx gx : Effects} {place : OutputPlace} {bytes : Array UInt8}
    (h : fx.append place bytes = .ok gx) :
    (place = .stdout ∨ place = .device .stdout) ∧ gx = { fx with stdout := fx.stdout ++ bytes } ∨
      (∃ location content, place = .file location ∧ fx.tree.get? location = some (.file content) ∧
        gx = { fx with tree := fx.tree.put location (.file (content ++ bytes)) }) ∨
      ∃ d, d ≠ .stdout ∧ place = .device d ∧ gx = fx := by
  cases place with
  | stdout => exact Or.inl ⟨Or.inl rfl, (Except.ok.inj h).symm⟩
  | file location =>
      cases found : fx.tree.get? location with
      | none => simp only [append, found, reduceCtorEq] at h
      | some entry =>
          cases entry with
          | file content =>
              simp only [append, found, Except.ok.injEq] at h
              exact Or.inr (Or.inl ⟨location, content, rfl, found, h.symm⟩)
          | directory | device _ => simp only [append, found, reduceCtorEq] at h
  | device d =>
      cases d with
      | stdout => exact Or.inl ⟨Or.inr rfl, (Except.ok.inj h).symm⟩
      | null | zero => exact Or.inr (Or.inr ⟨_, by decide, rfl, (Except.ok.inj h).symm⟩)
      | full =>
          simp only [append] at h
          split_ifs at h
          exact Or.inr (Or.inr ⟨_, by decide, rfl, (Except.ok.inj h).symm⟩)

theorem append_congr {fx gx : Effects} (h : fx.lasting = gx.lasting) (place : OutputPlace)
    (bytes : Array UInt8) : (fx.append place bytes).map lasting = (gx.append place bytes).map lasting := by
  obtain ⟨tree, stdout, events⟩ := fx
  obtain ⟨tree', stdout', events'⟩ := gx
  obtain ⟨rfl, rfl⟩ := Prod.mk.inj h
  cases place with
  | stdout => rfl
  | file location =>
      simp only [append]
      cases tree.get? location with
      | none => rfl
      | some entry => cases entry <;> rfl
  | device d =>
      cases d with
      | full =>
          simp only [append]
          cases bytes.isEmpty <;> rfl
      | null | zero | stdout => rfl

theorem append_of_lasting {fx gx hx : Effects} {place : OutputPlace} {bytes : Array UInt8}
    (same : fx.lasting = gx.lasting) (h : fx.append place bytes = .ok hx) :
    ∃ ix, gx.append place bytes = .ok ix ∧ hx.lasting = ix.lasting := by
  have congr := append_congr same place bytes
  rw [h] at congr
  cases there : gx.append place bytes with
  | ok ix =>
      rw [there] at congr
      exact ⟨ix, rfl, Except.ok.inj congr⟩
  | error cause =>
      rw [there] at congr
      cases congr

/-- Taking two byte strings one after the other is taking them at once. -/
theorem append_append (fx : Effects) (place : OutputPlace) (a b : Bytes) :
    fx.append place (a ++ b).toArray =
      (fx.append place a.toArray).bind fun gx => gx.append place b.toArray := by
  have join : (a ++ b).toArray = a.toArray ++ b.toArray := by simp
  cases place with
  | stdout => simp only [append, Except.bind, join, Array.append_assoc]
  | file location =>
      simp only [append]
      cases h : fx.tree.get? location with
      | none => rfl
      | some entry =>
          cases entry with
          | file content =>
              simp only [Except.bind, FileTree.get?_put, if_true, FileTree.put_put, join, Array.append_assoc]
          | directory | device _ => rfl
  | device d =>
      cases d with
      | stdout => simp only [append, Except.bind, join, Array.append_assoc]
      | null | zero => rfl
      | full =>
          cases a with
          | nil => rfl
          | cons _ _ => rfl

theorem append_nil {fx gx : Effects} {place : OutputPlace} {bytes : Array UInt8}
    (h : fx.append place bytes = .ok gx) : fx.append place #[] = .ok fx := by
  rcases append_eq_ok h with ⟨rfl | rfl, -⟩ | ⟨location, content, rfl, found, -⟩ | ⟨d, -, rfl, -⟩
  · simp only [append, Array.append_empty]
  · simp only [append, Array.append_empty]
  · simp only [append, found, Array.append_empty, FileTree.put_self found]
  · cases d with
    | stdout => simp only [append, Array.append_empty]
    | null | zero | full => rfl

theorem Takes.left {fx : Effects} {place : OutputPlace} {a b : Bytes} (h : fx.Takes place (a ++ b)) :
    fx.Takes place a := by
  obtain ⟨gx, h⟩ := h
  rw [append_append] at h
  cases first : fx.append place a.toArray with
  | ok hx => exact ⟨hx, first⟩
  | error cause =>
      rw [first] at h
      cases h

theorem append_behind {fx gx hx : Effects} {place : OutputPlace} {a b : Bytes}
    (first : fx.append place a.toArray = .ok gx) (same : gx.lasting = hx.lasting)
    (takes : fx.Takes place (a ++ b)) :
    ∃ gx' hx', fx.append place (a ++ b).toArray = .ok gx' ∧ hx.append place b.toArray = .ok hx' ∧
      gx'.lasting = hx'.lasting := by
  obtain ⟨gx', both⟩ := takes
  have second : gx.append place b.toArray = .ok gx' := by
    rw [append_append, first] at both
    exact both
  obtain ⟨hx', there, same'⟩ := append_of_lasting same second
  exact ⟨gx', hx', both, there, same'⟩

end Effects

namespace Buffered

open Effects (Takes lasting)
open Writing (Ends)

/-! ### The buffer -/

/-- Of the bytes that went into the buffer since `start`, some were handed on, and it holds the rest. -/
structure Took (start : Effects) (place : OutputPlace) (bytes : Bytes) (b : Buffered) : Prop where
  place_eq : b.place = place
  parts : ∃ passed fx, passed ++ b.held.toList = bytes ∧ start.append place passed.toArray = .ok fx ∧
    fx.lasting = b.effects.lasting

section
variable {start : Effects} {place : OutputPlace} {bytes more : Bytes} {b : Buffered}

theorem took_nil (takes : start.Takes place bytes) : Took start place [] ⟨#[], place, start⟩ := by
  obtain ⟨fx, h⟩ := takes
  exact ⟨rfl, [], start, rfl, Effects.append_nil h, rfl⟩

theorem Took.withEffects (took : Took start place bytes b) {fx : Effects}
    (h : b.effects.lasting = fx.lasting) : Took start place bytes ⟨b.held, b.place, fx⟩ := by
  obtain ⟨rfl, passed, gx, split, first, same⟩ := took
  exact ⟨rfl, passed, gx, split, first, same.trans h⟩

theorem took_of_flush (took : Took start place bytes b) (takes : start.Takes place bytes) :
    ∃ b', flush b = .ok () b' ∧ b'.held = #[] ∧ Took start place bytes b' := by
  obtain ⟨held, _, fx⟩ := b
  obtain ⟨rfl, passed, gx, rfl, first, same⟩ := took
  obtain ⟨gx', fx', both, handed, same'⟩ := Effects.append_behind first same takes
  refine ⟨⟨#[], _, fx'⟩, ?_, rfl, rfl, _, gx', List.append_nil _, both, same'⟩
  dsimp only at handed
  rw [Array.toArray_toList] at handed
  show EStateM.bind (pass held) _ _ = _
  simp only [EStateM.bind, pass, handed]
  rfl

theorem took_of_pass (took : Took start place bytes b) (empty : b.held = #[])
    (takes : start.Takes place (bytes ++ more)) :
    ∃ b', pass more.toArray b = .ok () b' ∧ Took start place (bytes ++ more) b' := by
  obtain ⟨held, _, fx⟩ := b
  obtain rfl : held = #[] := empty
  obtain ⟨rfl, passed, gx, rfl, first, same⟩ := took
  rw [Array.toList_empty, List.append_nil] at takes ⊢
  obtain ⟨gx', fx', both, handed, same'⟩ := Effects.append_behind first same takes
  refine ⟨⟨#[], _, fx'⟩, ?_, rfl, _, gx', List.append_nil _, both, same'⟩
  dsimp only at handed
  simp only [pass, handed]

theorem took_of_hold (took : Took start place bytes b) :
    ∃ b', hold more b = .ok () b' ∧ Took start place (bytes ++ more) b' := by
  obtain ⟨held, _, fx⟩ := b
  obtain ⟨rfl, passed, gx, rfl, first, same⟩ := took
  refine ⟨_, rfl, rfl, passed, gx, ?_, first, same⟩
  rw [Array.toList_append, List.append_assoc]

theorem put_eq (more : Bytes) (b : Buffered) : put more b =
    (do
      (if capacity < b.held.size + more.length then flush else pure ())
      if capacity ≤ more.length then pass more.toArray else hold more : Writing Buffered Unit) b := by
  show (if capacity < b.held.size + more.length then _ else _ : Writing Buffered Unit) b = _
  by_cases tight : capacity < b.held.size + more.length
  · rw [if_pos tight, if_pos tight]
  · rw [if_neg tight, if_neg tight]
    rfl

theorem took_of_put (took : Took start place bytes b) (takes : start.Takes place (bytes ++ more)) :
    ∃ b', put more b = .ok () b' ∧ Took start place (bytes ++ more) b' := by
  have room : ∃ b', (if capacity < b.held.size + more.length then flush else pure ()) b = .ok () b' ∧
      Took start place bytes b' ∧ (capacity ≤ more.length → b'.held = #[]) := by
    by_cases tight : capacity < b.held.size + more.length
    · obtain ⟨b', flushed, empty, took'⟩ := took_of_flush took takes.left
      exact ⟨b', by rw [if_pos tight, flushed], took', fun _ => empty⟩
    · refine ⟨b, by rw [if_neg tight]; rfl, took, ?_⟩
      intro long
      have none : b.held.size = 0 := by omega
      exact Array.eq_empty_of_size_eq_zero none
  obtain ⟨b', made, took', empty⟩ := room
  have rest : ∃ b'', (if capacity ≤ more.length then pass more.toArray else hold more) b' = .ok () b'' ∧
      Took start place (bytes ++ more) b'' := by
    by_cases long : capacity ≤ more.length
    · rw [if_pos long]
      exact took_of_pass took' (empty long) takes
    · rw [if_neg long]
      exact took_of_hold took'
  obtain ⟨b'', done, took''⟩ := rest
  refine ⟨b'', ?_, took''⟩
  rw [put_eq]
  simp only [bind, EStateM.bind, made]
  exact done

/-- What is written goes into the buffer, whatever the pieces are. -/
theorem took_of_writes {f : Writing Buffered Unit} (h : Writes f more) (took : Took start place bytes b)
    (takes : start.Takes place (bytes ++ more)) :
    ∃ b', f b = .ok () b' ∧ Took start place (bytes ++ more) b' := by
  induction h generalizing bytes b with
  | done => exact ⟨b, rfl, by rwa [List.append_nil]⟩
  | put more => exact took_of_put took takes
  | note event => exact ⟨_, rfl, by rw [List.append_nil]; exact took.withEffects rfl⟩
  | seq _ _ ihf ihg =>
      rw [← List.append_assoc] at takes ⊢
      obtain ⟨b', first, took'⟩ := ihf took takes.left
      obtain ⟨b'', second, took''⟩ := ihg took' takes
      refine ⟨b'', ?_, took''⟩
      simp only [bind, EStateM.bind, first, second]

/-! ### Putting a buffer up and taking it down -/

theorem Took.append_eq (took : Took start place bytes b) (empty : b.held = #[]) :
    ∃ fx, start.append place bytes.toArray = .ok fx ∧ fx.lasting = b.effects.lasting := by
  obtain ⟨-, passed, fx, rfl, first, same⟩ := took
  rw [empty, Array.toList_empty, List.append_nil]
  exact ⟨fx, first, same⟩

/-- When the buffer goes away, the place has taken everything that went into it, whether the work
succeeded or not. -/
theorem within_ends {work : Writing Buffered Unit} {success : Prop}
    (h : Ends (work ⟨#[], place, start⟩) success (Took start place bytes)) {fx : Effects}
    (appended : start.append place bytes.toArray = .ok fx) :
    Ends (within place work start) success (fun gx => fx.lasting = gx.lasting) := by
  have rest {b : Buffered} (took : Took start place bytes b) :
      ∃ b', flush b = .ok () b' ∧ fx.lasting = b'.effects.lasting := by
    obtain ⟨b', flushed, empty, took'⟩ := took_of_flush took ⟨fx, appended⟩
    obtain ⟨gx, again, same⟩ := took'.append_eq empty
    obtain rfl : fx = gx := Except.ok.inj (appended.symm.trans again)
    exact ⟨b', flushed, same⟩
  cases result : work ⟨#[], place, start⟩ with
  | ok _ b =>
      rw [result] at h
      obtain ⟨succeeded, took⟩ := h
      obtain ⟨b', flushed, same⟩ := rest took
      simp only [within, bind, EStateM.bind, result, flushed]
      exact ⟨succeeded, same⟩
  | error e b =>
      rw [result] at h
      obtain ⟨failed, took⟩ := h
      obtain ⟨b', flushed, same⟩ := rest took
      simp only [within, bind, EStateM.bind, result, release, flushed]
      exact ⟨failed, same⟩

end

end Buffered

end BitmapAsset

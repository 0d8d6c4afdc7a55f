import BitmapAsset.Run
import Mathlib.Data.List.Chain
import Mathlib.Tactic.SplitIfs

/-! # Colours as runs

`Run.split` cuts colours into runs from the front: a run grows until another colour comes or it is
full.  It does so with a pending run in hand (`Run.splitFrom`), one colour at a time
(`Run.completed`, `Run.after`).

A run has at least one pixel and at most `Run.maxCount` (`Run.Valid`).  Runs are *greedy* if a run is
full wherever the next one has the same colour (`Run.Greedy`).  Splitting gives valid greedy runs of
the colours it was given (`Run.flatMap_colors_split`, `Run.valid_of_mem_split`, `Run.greedy_split`),
and there are no other such runs (`Run.split_flatMap_colors`). -/

namespace BitmapAsset.Run

/-- A run that four bytes can tell. -/
def Valid (r : Run) : Prop := 1 ≤ r.count ∧ r.count ≤ maxCount

theorem valid_single (color : UInt16) : Valid ⟨color, 1⟩ := ⟨Nat.le_refl 1, Nat.le_add_left 1 65535⟩

theorem Valid.toNat_count_sub_one {r : Run} (h : r.Valid) : (UInt16.ofNat (r.count - 1)).toNat = r.count - 1 := by
  obtain ⟨h1, h2⟩ := h
  unfold maxCount at h2
  rw [UInt16.toNat_ofNat_of_lt' (by show _ < 65536; omega)]

/-- Wherever a colour goes on in the next run, the run before is full. -/
def Greedy (runs : List Run) : Prop :=
  runs.IsChain fun r s => r.color = s.color → r.count = maxCount

/-- Whether a run has the colour and room for one more pixel. -/
def Extends (r : Run) (color : UInt16) : Prop := r.color = color ∧ r.count < maxCount

instance (r : Run) (color : UInt16) : Decidable (r.Extends color) :=
  inferInstanceAs (Decidable (_ ∧ _))

/-- The run that a colour completes, if one is pending and cannot grow. -/
def completed : Option Run → UInt16 → List Run
  | none, _ => []
  | some r, color => if r.Extends color then [] else [r]

theorem eq_of_mem_completed {pending : Option Run} {color : UInt16} :
    ∀ r ∈ completed pending color, pending = some r := by
  intro r hr
  cases pending with
  | none => cases hr
  | some run =>
      simp only [completed] at hr
      split_ifs at hr
      · cases hr
      · rw [List.mem_singleton.mp hr]

theorem length_completed (pending : Option Run) (color : UInt16) : (completed pending color).length ≤ 1 := by
  cases pending with
  | none => exact Nat.zero_le 1
  | some run =>
      simp only [completed]
      split_ifs
      · exact Nat.zero_le 1
      · exact Nat.le_refl 1

/-- The run that is pending behind a colour. -/
def after : Option Run → UInt16 → Run
  | none, color => ⟨color, 1⟩
  | some r, color => if r.Extends color then ⟨r.color, r.count + 1⟩ else ⟨color, 1⟩

/-- The runs of a pending run and the colours behind it. -/
def splitFrom : Option Run → List UInt16 → List Run
  | pending, [] => pending.toList
  | pending, color :: rest => completed pending color ++ splitFrom (some (after pending color)) rest

/-- The runs of colours. -/
def split (colors : List UInt16) : List Run := splitFrom none colors

/-! ### Nothing is lost -/

theorem colors_after (pending : Option Run) (color : UInt16) :
    (completed pending color).flatMap colors ++ (after pending color).colors =
      pending.toList.flatMap colors ++ [color] := by
  cases pending with
  | none => simp [completed, after, colors]
  | some r =>
      by_cases h : r.Extends color
      · simp [completed, after, h, colors, List.replicate_succ', h.1]
      · simp [completed, after, h, colors]

theorem flatMap_colors_splitFrom (pending : Option Run) (l : List UInt16) :
    (splitFrom pending l).flatMap colors = pending.toList.flatMap colors ++ l := by
  induction l generalizing pending with
  | nil => simp [splitFrom]
  | cons color rest ih =>
      have step := colors_after pending color
      rw [splitFrom, List.flatMap_append, ih, Option.toList_some, List.flatMap_singleton,
        ← List.append_assoc, step, List.append_assoc, List.singleton_append]

/-- The runs of colours stand for these colours. -/
theorem flatMap_colors_split (l : List UInt16) : (split l).flatMap colors = l :=
  flatMap_colors_splitFrom none l

/-! ### Runs are valid -/

theorem valid_after {pending : Option Run} (h : ∀ r ∈ pending, r.Valid) (color : UInt16) :
    (after pending color).Valid := by
  cases pending with
  | none => exact valid_single color
  | some r =>
      simp only [after]
      split_ifs with hx
      · exact ⟨Nat.le_add_left 1 r.count, hx.2⟩
      · exact valid_single color

theorem valid_of_mem_splitFrom {pending : Option Run} (h : ∀ r ∈ pending, r.Valid)
    (l : List UInt16) : ∀ r ∈ splitFrom pending l, r.Valid := by
  induction l generalizing pending with
  | nil => simpa [splitFrom] using h
  | cons color rest ih =>
      intro r hr
      rw [splitFrom, List.mem_append] at hr
      rcases hr with hr | hr
      · exact h r (eq_of_mem_completed r hr)
      · exact ih (by simpa using valid_after h color) r hr

/-- Every run that splitting gives is valid. -/
theorem valid_of_mem_split {l : List UInt16} : ∀ r ∈ split l, r.Valid :=
  valid_of_mem_splitFrom (by simp) l

/-! ### Runs are greedy -/

theorem splitFrom_some_eq_cons (r : Run) (l : List UInt16) :
    ∃ n rest, splitFrom (some r) l = ⟨r.color, n⟩ :: rest := by
  induction l generalizing r with
  | nil => exact ⟨r.count, [], rfl⟩
  | cons color l ih =>
      by_cases h : r.Extends color
      · simpa [splitFrom, completed, after, h] using ih ⟨r.color, r.count + 1⟩
      · exact ⟨r.count, splitFrom (some ⟨color, 1⟩) l, by simp [splitFrom, completed, after, h]⟩

theorem greedy_splitFrom (pending : Option Run) (h : ∀ r ∈ pending, r.count ≤ maxCount)
    (l : List UInt16) : Greedy (splitFrom pending l) := by
  induction l generalizing pending with
  | nil => cases pending <;> simp [splitFrom, Greedy]
  | cons color rest ih =>
      cases pending with
      | none => exact ih _ (by simpa [after] using (valid_single color).2)
      | some r =>
          by_cases hx : r.Extends color
          · have next := ih (some ⟨r.color, r.count + 1⟩) (by simpa using Nat.succ_le_of_lt hx.2)
            simpa [splitFrom, completed, after, hx] using next
          · have next := ih (some ⟨color, 1⟩) (by simpa using (valid_single color).2)
            obtain ⟨n, tail, e⟩ := splitFrom_some_eq_cons ⟨color, 1⟩ rest
            have full : r.color = color → r.count = maxCount := by
              intro hc
              have hr := h r rfl
              simp only [Extends, hc, true_and] at hx
              omega
            simp only [splitFrom, completed, after, hx, if_false, List.singleton_append]
            rw [e] at next ⊢
            exact List.isChain_cons_cons.mpr ⟨full, next⟩

/-- Splitting is greedy. -/
theorem greedy_split (l : List UInt16) : Greedy (split l) := greedy_splitFrom none (by simp) l

/-! ### There is one greedy way to split -/

theorem splitFrom_replicate_append (color : UInt16) (k n : ℕ) (h : k + n ≤ maxCount)
    (l : List UInt16) :
    splitFrom (some ⟨color, k⟩) (List.replicate n color ++ l) = splitFrom (some ⟨color, k + n⟩) l := by
  induction n generalizing k with
  | zero => simp
  | succ n ih =>
      have hx : Extends ⟨color, k⟩ color := ⟨rfl, by show k < maxCount; omega⟩
      rw [List.replicate_succ, List.cons_append, splitFrom]
      simp only [completed, after, hx, if_true, List.nil_append]
      rw [ih (k + 1) (by omega)]
      congr 3
      omega

theorem splitFrom_colors_append {r : Run} (hr : r.Valid) (pending : Option Run)
    (h : ∀ p ∈ pending, ¬ p.Extends r.color) (l : List UInt16) :
    splitFrom pending (r.colors ++ l) = pending.toList ++ splitFrom (some r) l := by
  obtain ⟨color, count⟩ := r
  obtain ⟨n, rfl⟩ : ∃ n, count = n + 1 := ⟨count - 1, by have := hr.1; simp only at this; omega⟩
  have hn : 1 + n ≤ maxCount := by have := hr.2; simp only at this; omega
  have start : completed pending color = pending.toList ∧ after pending color = ⟨color, 1⟩ := by
    cases pending with
    | none => exact ⟨rfl, rfl⟩
    | some p => simp [completed, after, h p rfl]
  rw [colors, List.replicate_succ, List.cons_append, splitFrom, start.1, start.2,
    splitFrom_replicate_append color 1 n hn, Nat.add_comm 1 n]

theorem splitFrom_flatMap_colors {r : Run} {runs : List Run} (hv : ∀ s ∈ runs, s.Valid)
    (hg : Greedy (r :: runs)) : splitFrom (some r) (runs.flatMap colors) = r :: runs := by
  induction runs generalizing r with
  | nil => rfl
  | cons s runs ih =>
      obtain ⟨full, rest⟩ := List.isChain_cons_cons.mp hg
      have stop : ¬ r.Extends s.color := by
        intro hx
        have := hx.2
        have := full hx.1
        omega
      rw [List.flatMap_cons, splitFrom_colors_append (hv s List.mem_cons_self) _ (by simpa using stop),
        ih (fun t ht => hv t (List.mem_cons_of_mem s ht)) rest]
      rfl

/-- Valid greedy runs are what splitting gives for their colours. -/
theorem split_flatMap_colors {runs : List Run} (hv : ∀ r ∈ runs, r.Valid) (hg : Greedy runs) :
    split (runs.flatMap colors) = runs := by
  cases runs with
  | nil => rfl
  | cons r runs =>
      rw [split, List.flatMap_cons, splitFrom_colors_append (hv r List.mem_cons_self) none (by simp),
        splitFrom_flatMap_colors (fun s hs => hv s (List.mem_cons_of_mem r hs)) hg]
      rfl

end BitmapAsset.Run

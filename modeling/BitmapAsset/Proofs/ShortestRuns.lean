import BitmapAsset.Proofs.RoundTrip
import Mathlib.Algebra.Order.Floor.Div
import Mathlib.Data.List.SplitBy
import Mathlib.GroupTheory.GroupAction.Ring

/-! # No shorter runs

Equal colours that stand next to each other form blocks (`Run.blocks`), and splitting gives each block as
few runs as it can have: its length divided by `Run.maxCount`, rounded up (`Run.length_split`).

No other runs of the same colours are fewer (`Run.length_split_le`).  For whatever valid runs the colours come
from, each of them completes at most as many runs as were pending before it
(`Run.exists_splitFrom_colors_append`), so splitting never gets ahead of them.

Main statement: `Stream.collect_shortest`, for lists of colours and for pictures. -/

namespace BitmapAsset

namespace Run

/-! ### Blocks -/

/-- The maximal blocks of equal colours next to each other. -/
def blocks (l : List UInt16) : List (List UInt16) := l.splitBy (· == ·)

theorem Valid.ceilDiv_count {r : Run} (h : r.Valid) : r.count ⌈/⌉ maxCount = 1 := by
  obtain ⟨h1, h2⟩ := h
  unfold maxCount at h2 ⊢
  rw [Nat.ceilDiv_eq_add_pred_div]
  omega

theorem splitFrom_some_of_stop (r : Run) {l : List UInt16} (h : ∀ c ∈ l.head?, r.color ≠ c) :
    splitFrom (some r) l = r :: split l := by
  cases l with
  | nil => rfl
  | cons c l =>
      have stop : ¬ r.Extends c := fun hx => h c rfl hx.1
      simp [split, splitFrom, completed, after, stop]

theorem length_splitFrom_replicate (color : UInt16) {l : List UInt16} (h : ∀ c ∈ l.head?, color ≠ c) (n : ℕ) :
    ∀ k, Valid ⟨color, k⟩ → (splitFrom (some ⟨color, k⟩) (List.replicate n color ++ l)).length =
      (k + n) ⌈/⌉ maxCount + (split l).length := by
  induction n with
  | zero =>
      intro k hk
      have one : (k + 0) ⌈/⌉ maxCount = 1 := hk.ceilDiv_count
      rw [List.replicate_zero, List.nil_append, splitFrom_some_of_stop _ h, List.length_cons, one, Nat.add_comm]
  | succ n ih =>
      intro k hk
      rw [List.replicate_succ, List.cons_append, splitFrom]
      by_cases room : k < maxCount
      · have hx : Extends ⟨color, k⟩ color := ⟨rfl, room⟩
        simp only [completed, after, hx, if_true, List.nil_append]
        rw [ih (k + 1) ⟨Nat.le_add_left 1 k, room⟩, Nat.add_right_comm, Nat.add_assoc]
      · have hx : ¬ Extends ⟨color, k⟩ color := fun hx => room hx.2
        have full : k = maxCount := Nat.le_antisymm hk.2 (Nat.le_of_not_lt room)
        simp only [completed, after, hx, if_false, List.singleton_append, List.length_cons]
        rw [ih 1 (valid_single color), full]
        simp only [Nat.ceilDiv_eq_add_pred_div, maxCount]
        omega

theorem exists_eq_replicate {b : List UInt16} (nonempty : b ≠ []) (equal : b.IsChain fun c d => (c == d) = true) :
    ∃ color n, b = List.replicate (n + 1) color := by
  obtain ⟨color, rest, rfl⟩ := List.exists_cons_of_ne_nil nonempty
  simp only [beq_iff_eq] at equal
  have same := List.isChain_cons_eq_iff_eq_replicate.mp equal
  exact ⟨color, rest.length, by rw [List.replicate_succ, ← same]⟩

theorem length_split_flatten {bs : List (List UInt16)} (nonempty : [] ∉ bs)
    (equal : ∀ b ∈ bs, b.IsChain fun c d => (c == d) = true)
    (differ : bs.IsChain fun a b => ∃ ha hb, (a.getLast ha == b.head hb) = false) :
    (split bs.flatten).length = (bs.map fun b => b.length ⌈/⌉ maxCount).sum := by
  induction bs with
  | nil => rfl
  | cons b bs ih =>
      rw [List.mem_cons, not_or] at nonempty
      obtain ⟨here, later⟩ := List.forall_mem_cons.mp equal
      obtain ⟨next, rest⟩ := List.isChain_cons.mp differ
      obtain ⟨color, n, rfl⟩ := exists_eq_replicate (Ne.symm nonempty.1) here
      have other : ∀ d ∈ bs.flatten.head?, color ≠ d := by
        cases bs with
        | nil => simp
        | cons b' bs =>
            obtain ⟨ha, hb, ne⟩ := next b' rfl
            rw [List.getLast_replicate, beq_eq_false_iff_ne] at ne
            rw [List.flatten_cons, List.head?_append_of_ne_nil _ hb, List.head?_eq_some_head hb]
            simpa using ne
      have block := length_splitFrom_replicate color other n 1 (valid_single color)
      rw [List.flatten_cons, split, List.replicate_succ, List.cons_append, splitFrom, completed, after,
        List.nil_append, block, ih nonempty.2 later rest, List.map_cons, List.sum_cons, List.length_cons,
        List.length_replicate, Nat.add_comm 1 n]

/-- Splitting gives every block as few runs as its pixels need. -/
theorem length_split (l : List UInt16) :
    (split l).length = ((blocks l).map fun b => b.length ⌈/⌉ maxCount).sum := by
  have parts := length_split_flatten (List.nil_notMem_splitBy _ l) (fun _ => List.isChain_of_mem_splitBy)
    (List.isChain_getLast_head_splitBy _ l)
  rwa [List.flatten_splitBy] at parts

/-! ### Other runs of the same colours -/

/-- The colours of a run complete at most the run that was pending, and leave one pending. -/
theorem exists_splitFrom_colors_append {r : Run} (hr : r.Valid) {pending : Option Run}
    (h : ∀ p ∈ pending, p.Valid) :
    ∃ done next, done.length ≤ pending.toList.length ∧ Valid next ∧
      ∀ l, splitFrom pending (r.colors ++ l) = done ++ splitFrom (some next) l := by
  by_cases stop : ∀ p ∈ pending, ¬ p.Extends r.color
  · exact ⟨pending.toList, r, Nat.le_refl _, hr, splitFrom_colors_append hr pending stop⟩
  simp only [not_forall, not_not] at stop
  obtain ⟨⟨color, k⟩, rfl, same, -⟩ := stop
  obtain ⟨color', n⟩ := r
  obtain rfl : color = color' := same
  have hk : k ≤ maxCount := (h _ rfl).2
  have hn : n ≤ maxCount := hr.2
  by_cases room : k + n ≤ maxCount
  · exact ⟨[], ⟨color, k + n⟩, Nat.zero_le _, ⟨Nat.le_add_left_of_le hr.1, room⟩,
      splitFrom_replicate_append color k n room⟩
  · have more : 1 ≤ k + n - maxCount := by omega
    have less : k + n - maxCount ≤ maxCount := by omega
    have left : Valid ⟨color, k + n - maxCount⟩ := ⟨more, less⟩
    have fill : k + (maxCount - k) = maxCount := by omega
    have cut : n = maxCount - k + (k + n - maxCount) := by omega
    have full : ∀ p ∈ some (Run.mk color maxCount), ¬ p.Extends color := by
      rintro p hp ⟨-, more⟩
      rw [← Option.some.inj hp] at more
      exact Nat.lt_irrefl _ more
    refine ⟨[⟨color, maxCount⟩], ⟨color, k + n - maxCount⟩, Nat.le_refl _, left, ?_⟩
    intro l
    have rest := splitFrom_colors_append left (some ⟨color, maxCount⟩) full l
    rw [colors, cut, List.replicate_add, List.append_assoc, splitFrom_replicate_append color k _ (Nat.le_of_eq fill),
      fill, ← cut]
    exact rest

theorem length_splitFrom_flatMap_le {runs : List Run} (hv : ∀ r ∈ runs, r.Valid) {pending : Option Run}
    (h : ∀ p ∈ pending, p.Valid) :
    (splitFrom pending (runs.flatMap colors)).length ≤ pending.toList.length + runs.length := by
  induction runs generalizing pending with
  | nil => exact Nat.le_refl _
  | cons r runs ih =>
      obtain ⟨hr, later⟩ := List.forall_mem_cons.mp hv
      obtain ⟨done, next, few, valid, step⟩ := exists_splitFrom_colors_append hr h
      have now : ∀ p ∈ some next, p.Valid := by
        intro p hp
        rw [← Option.some.inj hp]
        exact valid
      have rest := ih later now
      rw [List.flatMap_cons, step, List.length_append, List.length_cons]
      rw [Option.toList_some, List.length_singleton] at rest
      omega

/-- No valid runs of the same colours are fewer than those that splitting gives. -/
theorem length_split_le {runs : List Run} (hv : ∀ r ∈ runs, r.Valid) :
    (split (runs.flatMap colors)).length ≤ runs.length := by
  have idle : ∀ p ∈ (none : Option Run), p.Valid := fun p hp => nomatch hp
  have h := length_splitFrom_flatMap_le hv idle
  rwa [Option.toList_none, List.length_nil, Nat.zero_add] at h

end Run

/-! ### Streams -/

namespace Stream

open BoundedSink (collect)

theorem length_flatMap_bytes (l : List Pair) : (l.flatMap Pair.bytes).length = 4 * l.length := by
  induction l with
  | nil => rfl
  | cons p l ih =>
      have four : p.bytes.length = 4 := rfl
      rw [List.flatMap_cons, List.length_append, ih, four, List.length_cons]
      omega

theorem length_pairs (colors : List UInt16) :
    (pairs colors).length = ((Run.blocks colors).map fun b => b.length ⌈/⌉ Run.maxCount).sum := by
  rw [pairs, List.length_map, Run.length_split]

/-- No pairs that stand for the same colours are fewer than those that are written. -/
theorem length_pairs_le {colors : List UInt16} {l : List Pair} (h : l.flatMap Pair.colors = colors) :
    (pairs colors).length ≤ l.length := by
  have valid : ∀ r ∈ l.map Pair.run, r.Valid := by
    intro r hr
    obtain ⟨p, -, rfl⟩ := List.mem_map.mp hr
    exact p.valid_run
  have few := Run.length_split_le valid
  rw [List.flatMap_map, List.length_map] at few
  rw [pairs, List.length_map, ← h]
  exact few

theorem length_pairs_le_length (colors : List UInt16) : (pairs colors).length ≤ colors.length := by
  have single : (colors.map (Pair.mk 0)).flatMap Pair.colors = colors := by
    rw [List.flatMap_map]
    exact List.flatMap_singleton' colors
  have few := length_pairs_le single
  rwa [List.length_map] at few

theorem length_written (d : Decoded) : (written d).length = 4 + 4 * (pairs d.colors.toList).length := by
  rw [written, List.length_append, length_flatMap_bytes]
  rfl

theorem length_written_le {b : Bytes} {d : Decoded} (h : decode b = .ok d) : (written d).length ≤ b.length := by
  obtain ⟨l, rfl, -, hc⟩ := (decode_eq_ok_iff b d).mp h
  have few := length_pairs_le hc.symm
  have header : (headerBytes d.width d.height).length = 4 := rfl
  rw [length_written, List.length_append, length_flatMap_bytes, header]
  omega

/-- **What is written as runs is as short as it can be.**  Colours are written as pairs that stand for them, for
each block of equal colours as many as its length divided by the longest run, rounded up, and there are no
fewer pairs that stand for the same colours.  So a picture takes between four bytes and four more for
every pixel, and no stream with the same width, height and colours is shorter than what is written for it. -/
theorem collect_shortest :
    (∀ colors : List UInt16, ∃ pairs : List Pair,
      collect (RunWriter.writeAll colors) = .ok (pairs.flatMap Pair.bytes) ∧
      pairs.length = ((colors.splitBy (· == ·)).map fun block => block.length ⌈/⌉ 65536).sum ∧
      pairs.flatMap Pair.colors = colors ∧
      ∀ others : List Pair, others.flatMap Pair.colors = colors → pairs.length ≤ others.length) ∧
    ∀ image : Image, image.Fits → ∃ bytes, collect (write image) = .ok bytes ∧
      4 ≤ bytes.length ∧ bytes.length ≤ 4 + 4 * (image.width * image.height) ∧
      ∀ b d, decode b = .ok d → image.Shows d → bytes.length ≤ b.length := by
  constructor
  · intro colors
    refine ⟨pairs colors, ?_, length_pairs colors, flatMap_colors_pairs colors, fun others => length_pairs_le⟩
    rw [(RunWriter.writeAll_writes colors).collect_eq, flatMap_bytes_pairs]
  · intro image fits
    obtain ⟨d, shows⟩ := exists_shown fits
    have most := length_pairs_le_length d.colors.toList
    rw [← shows.2.2, image.length_bottomUp] at most
    refine ⟨written d, collect_write shows, ?_, ?_, ?_⟩
    · rw [length_written]
      exact Nat.le_add_right 4 _
    · rw [length_written, ← shows.2.2]
      omega
    · intro b d' read shows'
      have least := length_written_le read
      have same := (collect_write shows).symm.trans (collect_write shows')
      rwa [← Except.ok.inj same] at least

end Stream

end BitmapAsset

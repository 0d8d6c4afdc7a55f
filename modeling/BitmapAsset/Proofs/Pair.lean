import BitmapAsset.Stream.Reader
import BitmapAsset.Proofs.Runs
import Mathlib.Algebra.GroupWithZero.Nat

/-! # Pairs of a stream

Behind its header a run-length stream is a list of pairs, each a count field and a colour.  A pair
stands for `count field + 1` pixels (`Stream.Pair.colors`), so every pair is a valid run and every valid
run a pair (`Stream.Pair.valid_run`, `Run.run_pair`), with the same bytes.  Any list of words is its
complete pairs and perhaps a word left over (`Stream.Pair.flatMap_words_ofWords`). -/

namespace BitmapAsset

namespace Word

theorem bytes_ofBytes (low high : UInt8) : bytes (ofBytes low high) = [low, high] := by
  have hl := low.toNat_lt
  have hh := high.toNat_lt
  have hw : (ofBytes low high).toNat = low.toNat + 256 * high.toNat := by
    rw [ofBytes, UInt16.toNat_ofNat_of_lt' (by show _ < 65536; omega)]
  have e1 : (ofBytes low high).toUInt8 = low := by
    apply UInt8.toNat_inj.mp
    rw [UInt16.toNat_toUInt8, hw]
    omega
  have e2 : (ofBytes low high >>> 8).toUInt8 = high := by
    apply UInt8.toNat_inj.mp
    rw [UInt16.toNat_toUInt8, UInt16.toNat_shiftRight, hw]
    simp only [UInt16.reduceToNat, Nat.reduceMod, Nat.shiftRight_eq_div_pow]
    omega
  rw [bytes, e1, e2]

theorem flatMap_bytes_list : ∀ b : Bytes, b.length % 2 = 0 → (list b).flatMap bytes = b
  | [], _ => rfl
  | [_], h => by simp at h
  | low :: high :: rest, h => by
      have ih := flatMap_bytes_list rest (by simp only [List.length_cons] at h; omega)
      rw [list, List.flatMap_cons, bytes_ofBytes, ih]
      rfl

theorem list_flatMap_bytes (words : List UInt16) : list (words.flatMap bytes) = words := by
  induction words with
  | nil => rfl
  | cons w rest ih => rw [List.flatMap_cons, list_bytes_append, ih]

end Word

namespace Stream

/-- A count field and a colour. -/
structure Pair where
  repeats : UInt16
  color : UInt16
deriving DecidableEq, Repr

namespace Pair

/-- The pixels of a pair: one more than the count field tells. -/
def count (p : Pair) : ℕ := p.repeats.toNat + 1

/-- The colours that a pair stands for. -/
def colors (p : Pair) : List UInt16 := List.replicate p.count p.color

def words (p : Pair) : List UInt16 := [p.repeats, p.color]

def bytes (p : Pair) : Bytes := Word.bytes p.repeats ++ Word.bytes p.color

/-- The complete pairs of a list of words. -/
def ofWords : List UInt16 → List Pair
  | repeats :: color :: rest => ⟨repeats, color⟩ :: ofWords rest
  | _ => []

/-- The word behind the complete pairs, if there is one. -/
def leftover : List UInt16 → Option UInt16
  | _ :: _ :: rest => leftover rest
  | [word] => some word
  | [] => none

/-- A pair as a run. -/
def run (p : Pair) : Run := ⟨p.color, p.count⟩

theorem valid_run (p : Pair) : p.run.Valid := by
  have := p.repeats.toNat_lt
  constructor
  · exact Nat.le_add_left 1 _
  · show p.repeats.toNat + 1 ≤ 65536
    omega

theorem bytes_eq_flatMap_words (p : Pair) : p.bytes = p.words.flatMap Word.bytes := by
  simp [bytes, words]

theorem flatMap_words_ofWords :
    ∀ l : List UInt16, (ofWords l).flatMap words ++ (leftover l).toList = l
  | [] => rfl
  | [_] => rfl
  | repeats :: color :: rest => by
      have ih := flatMap_words_ofWords rest
      simp only [ofWords, leftover, List.flatMap_cons, words, List.cons_append, List.nil_append, ih]

theorem ofWords_flatMap_words (pairs : List Pair) : ofWords (pairs.flatMap words) = pairs := by
  induction pairs with
  | nil => rfl
  | cons p rest ih => simp only [List.flatMap_cons, words, List.cons_append, List.nil_append, ofWords, ih]

theorem leftover_flatMap_words (pairs : List Pair) : leftover (pairs.flatMap words) = none := by
  induction pairs with
  | nil => rfl
  | cons p rest ih => simp only [List.flatMap_cons, words, List.cons_append, List.nil_append, leftover, ih]

theorem isSome_leftover : ∀ l : List UInt16, (leftover l).isSome = true ↔ l.length % 2 = 1
  | [] => by simp [leftover]
  | [_] => by simp [leftover]
  | _ :: _ :: rest => by
      rw [leftover, isSome_leftover rest]
      simp only [List.length_cons]
      omega

theorem flatMap_bytes_eq (pairs : List Pair) :
    pairs.flatMap bytes = (pairs.flatMap words).flatMap Word.bytes := by
  rw [List.flatMap_assoc]
  exact List.flatMap_congr fun p _ => p.bytes_eq_flatMap_words

theorem list_flatMap_bytes (pairs : List Pair) :
    Word.list (pairs.flatMap bytes) = pairs.flatMap words := by
  rw [flatMap_bytes_eq, Word.list_flatMap_bytes]

theorem flatMap_bytes_ofWords {b : Bytes} (even : ¬ b.length % 2 = 1)
    (none : ¬ (Word.list b).length % 2 = 1) : (ofWords (Word.list b)).flatMap bytes = b := by
  have words := flatMap_words_ofWords (Word.list b)
  rw [← isSome_leftover, Option.not_isSome_iff_eq_none] at none
  rw [none, Option.toList_none, List.append_nil] at words
  rw [flatMap_bytes_eq, words, Word.flatMap_bytes_list b (by omega)]

end Pair

/-- The pixels that pairs stand for, counted. -/
def total (pairs : List Pair) : ℕ := (pairs.map Pair.count).sum

theorem length_flatMap_colors (pairs : List Pair) : (pairs.flatMap Pair.colors).length = total pairs := by
  simp [List.length_flatMap, total, Pair.colors]

/-- Wherever a colour goes on in the next pair, the pair before has the highest count field. -/
def Greedy (pairs : List Pair) : Prop :=
  pairs.IsChain fun p q => p.color = q.color → p.repeats = 0xFFFF

end Stream

namespace Run

/-- A run as the pair that is written for it. -/
def pair (r : Run) : Stream.Pair := ⟨UInt16.ofNat (r.count - 1), r.color⟩

theorem bytes_pair (r : Run) : r.pair.bytes = r.bytes := rfl

theorem run_pair {r : Run} (h : r.Valid) : r.pair.run = r := by
  have count : r.pair.count = r.count := by
    show (UInt16.ofNat (r.count - 1)).toNat + 1 = r.count
    rw [h.toNat_count_sub_one, Nat.sub_add_cancel h.1]
  rw [Stream.Pair.run, count]
  rfl

end Run

namespace Stream

theorem Pair.pair_run (p : Pair) : p.run.pair = p := by
  simp [Run.pair, run, count]

/-- The pairs of colours: their runs. -/
def pairs (colors : List UInt16) : List Pair := (Run.split colors).map Run.pair

theorem map_run_pairs (colors : List UInt16) : (pairs colors).map Pair.run = Run.split colors := by
  unfold pairs
  rw [List.map_map]
  have same : ∀ r ∈ Run.split colors, (Pair.run ∘ Run.pair) r = id r := by
    intro r hr
    exact Run.run_pair (Run.valid_of_mem_split r hr)
  rw [List.map_congr_left same, List.map_id]

theorem flatMap_bytes_pairs (colors : List UInt16) :
    (pairs colors).flatMap Pair.bytes = (Run.split colors).flatMap Run.bytes := by
  unfold pairs
  rw [List.flatMap_map]
  exact List.flatMap_congr fun r _ => r.bytes_pair

theorem flatMap_colors_pairs (colors : List UInt16) : (pairs colors).flatMap Pair.colors = colors := by
  have h := Run.flatMap_colors_split colors
  rwa [← map_run_pairs, List.flatMap_map] at h

theorem greedy_map_run (l : List Pair) : Run.Greedy (l.map Pair.run) ↔ Greedy l := by
  have full (p : Pair) : p.count = Run.maxCount ↔ p.repeats = 0xFFFF := by
    rw [← UInt16.toNat_inj, Pair.count, Run.maxCount]
    show _ ↔ p.repeats.toNat = 65535
    omega
  unfold Run.Greedy Greedy
  rw [List.isChain_map]
  simp only [Pair.run, full]

theorem greedy_pairs (colors : List UInt16) : Greedy (pairs colors) := by
  rw [← greedy_map_run, map_run_pairs]
  exact Run.greedy_split colors

theorem pairs_flatMap_colors {l : List Pair} (h : Greedy l) : pairs (l.flatMap Pair.colors) = l := by
  have valid : ∀ r ∈ l.map Pair.run, r.Valid := by
    intro r hr
    obtain ⟨p, _, rfl⟩ := List.mem_map.mp hr
    exact p.valid_run
  have split := Run.split_flatMap_colors valid ((greedy_map_run l).mpr h)
  rw [List.flatMap_map] at split
  have back : ∀ p ∈ l, (Run.pair ∘ Pair.run) p = id p := by
    intro p _
    exact p.pair_run
  rw [pairs]
  show (Run.split (l.flatMap fun p => p.run.colors)).map Run.pair = l
  rw [split, List.map_map, List.map_congr_left back, List.map_id]

end Stream

end BitmapAsset

import BitmapAsset.Proofs.Literals
import Mathlib.Algebra.Order.Floor.Div
import Mathlib.GroupTheory.GroupAction.Ring

/-! # Lines of words

A line is too long for another group once it holds eleven words: with their separators these are 88
characters, and ten are 80.  As lines begin and end with whole groups, every line but the last holds the least
number of whole groups that make eleven words (`Layout.lineWords`).

The counters behind a number of words are therefore known beforehand (`Layout.behind`): one more word leads
from the counters behind `n` words to those behind `n + 1` (`Layout.afterWord_behind`), and the
line breaks exactly in front of multiples of the words in a line (`Layout.breaks_behind_iff`).  Hence the
text of words is the text of their lines (`Layout.text_eq_pageText`).

Whatever the layout, the line length that the writer counts is that of the line as it stands in the text
(`Layout.exists_currentLine`).  Main statement: `WordLiterals.updateAll_lines`. -/

namespace BitmapAsset.WordLiterals

/-! ### Lines -/

/-- The words are cut into lines of the given length; only the last one may be shorter, and none is empty. -/
structure InLines (length : ℕ) (words : List UInt16) (lines : List (List UInt16)) : Prop where
  flatten_eq : lines.flatten = words
  full : ∀ line ∈ lines.dropLast, line.length = length
  last : ∀ line ∈ lines.getLast?, 1 ≤ line.length ∧ line.length ≤ length

namespace InLines

variable {length : ℕ} {words line : List UInt16} {lines : List (List UInt16)}

theorem single (some : words ≠ []) (few : words.length ≤ length) : InLines length words [words] := by
  refine ⟨List.append_nil words, by simp, ?_⟩
  intro line hl
  rw [← Option.some.inj hl]
  exact ⟨List.length_pos_of_ne_nil some, few⟩

theorem cons (full : line.length = length) (some : lines ≠ []) (h : InLines length words lines) :
    InLines length (line ++ words) (line :: lines) := by
  refine ⟨by rw [List.flatten_cons, h.flatten_eq], ?_, ?_⟩
  · rw [List.dropLast_cons_of_ne_nil some, List.forall_mem_cons]
    exact ⟨full, h.full⟩
  · rw [List.getLast?_cons_of_ne_nil some]
    exact h.last

theorem tail {next : List UInt16} (h : InLines length words (line :: next :: lines)) :
    line.length = length ∧ InLines length (next :: lines).flatten (next :: lines) :=
  ⟨h.full line List.mem_cons_self, rfl, fun other mem => h.full other (List.mem_cons_of_mem line mem), h.last⟩

end InLines

namespace Layout

variable {group : ℕ}

/-! ### Counters -/

/-- The words in a line: the least number of whole groups that make eleven words. -/
def lineWords (group : ℕ) : ℕ := group * (11 ⌈/⌉ group)

example : [1, 2, 4, 11, 16].map lineWords = [11, 12, 12, 11, 16] := by decide

/-- The length of the line behind `n` words: six characters for the last one, eight for each of the others in
its line. -/
def lengthBehind (group : ℕ) : ℕ → ℕ
  | 0 => 0
  | n + 1 => 8 * (n % lineWords group) + 6

/-- The layout behind `n` words. -/
def behind (group n : ℕ) : Layout := ⟨group, n, lengthBehind group n, none⟩

/-- The byte that ends a line. -/
def newline : UInt8 := 0x0A

/-- The line that a text ends with, behind the last line break and its tabulator, has the given length. -/
def EndsInLine (text : Bytes) (length : ℕ) : Prop :=
  ∃ before line, text = before ++ line ∧ (before = [] ∨ utf8 "\n\t" <:+ before) ∧ newline ∉ line ∧
    line.length = length

theorem EndsInLine.append {text : Bytes} {length : ℕ} (h : EndsInLine text length) {more : Bytes}
    (same : newline ∉ more) : EndsInLine (text ++ more) (length + more.length) := by
  obtain ⟨before, line, rfl, begins, clean, rfl⟩ := h
  refine ⟨before, line ++ more, List.append_assoc _ _ _, begins, ?_, List.length_append⟩
  rw [List.mem_append, not_or]
  exact ⟨clean, same⟩

end Layout

/-! ### The writer -/

open Layout (EndsInLine lineWords)

end BitmapAsset.WordLiterals

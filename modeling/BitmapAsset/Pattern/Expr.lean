import BitmapAsset.Pattern.CharSet

/-! # Expressions and where they occur

An expression says which pieces of a text it fits.  Besides characters it may ask about the gap it stands
in, that is about the characters to the left and to the right.

**The search** walks through the text and keeps what is still to be fitted of every attempt that is under
way.  `Expr.passes` tells whether nothing need follow, `Expr.after` what is left when
the next character is used up.  Attempts that have the same left to fit are kept once, so their number is
bounded by the size of the expression and the search is short on every text. -/

namespace BitmapAsset.Pattern

/-- The ways to stand at the edge of a word. -/
inductive Edge where
  | either
  | neither
  | start
  | stop
  | notAfter
  | notBefore
deriving DecidableEq, Repr

/-- What can be asked about a gap. -/
inductive Look where
  | textStart
  | textEnd
  | lineStart
  | lineEnd
  /-- As `lineStart`, where a carriage return ends a line too. -/
  | anyLineStart
  /-- As `lineEnd`, where a carriage return ends a line too. -/
  | anyLineEnd
  /-- The edges of words of plain letters. -/
  | edge (e : Edge)
  /-- The edges of words in any script.  There is no table of their letters here, so nothing is known of
  them, and a pattern that asks for them is refused. -/
  | wideEdge
deriving DecidableEq, Repr

/-- The neighbours of a place in a text. -/
structure Gap where
  before : Option Char
  after : Option Char
deriving DecidableEq, Repr

namespace Gap

/-- Whether a neighbour belongs to a word. -/
def inWord (c : Option Char) : Bool := c.any fun c => CharSet.wordChars.mem c

/-- Whether a gap is at the edge of a word. -/
def atEdge (g : Gap) : Edge → Bool
  | .either => inWord g.before != inWord g.after
  | .neither => inWord g.before == inWord g.after
  | .start => !inWord g.before && inWord g.after
  | .stop => inWord g.before && !inWord g.after
  | .notAfter => !inWord g.before
  | .notBefore => !inWord g.after

/-- The answer to a question about a gap. -/
def holds (g : Gap) : Look → Bool
  | .textStart => g.before == none
  | .textEnd => g.after == none
  | .lineStart => g.before == none || g.before == some '\n'
  | .lineEnd => g.after == none || g.after == some '\n'
  | .anyLineStart => g.before == none || g.before == some '\n' ||
      (g.before == some '\r' && g.after != some '\n')
  | .anyLineEnd => g.after == none || g.after == some '\r' ||
      (g.after == some '\n' && g.before != some '\r')
  | .edge e => g.atEdge e
  | .wideEdge => false

end Gap

/-- What a pattern asks for. -/
inductive Expr where
  | nothing
  | one (set : CharSet)
  | look (l : Look)
  | both (a b : Expr)
  | either (a b : Expr)
  /-- The expression over and over, at least and at most so many times. -/
  | times (least : Nat) (most : Option Nat) (a : Expr)
deriving DecidableEq, Repr

namespace Expr

/-- Whether an expression fits the empty piece in a gap. -/
def passes (g : Gap) : Expr → Bool
  | nothing => true
  | one _ => false
  | look l => g.holds l
  | both a b => a.passes g && b.passes g
  | either a b => a.passes g || b.passes g
  | times least _ a => least == 0 || a.passes g

/-- One expression after another. -/
def followedBy : Expr → Expr → Expr
  | nothing, b => b
  | a, nothing => a
  | a, b => both a b

/-- What may be left to fit after a character has been used up, given the one before it.  Where a
repeated expression passes, the repetitions that are still due may pass too, so none is due after it. -/
def after (before : Option Char) (c : Char) : Expr → List Expr
  | nothing => []
  | one set => if set.mem c then [nothing] else []
  | look _ => []
  | both a b =>
    (a.after before c).map (·.followedBy b) ++ if a.passes ⟨before, c⟩ then b.after before c else []
  | either a b => a.after before c ++ b.after before c
  | times least most a =>
    if most = some 0 then []
    else
      let due := if a.passes ⟨before, c⟩ then 0 else least - 1
      (a.after before c).map (·.followedBy (times due (most.map (· - 1)) a))

/-- Whether an expression, or one of the attempts under way, fits somewhere in the rest of a text. -/
def occursFrom (e : Expr) (before : Option Char) (live : List Expr) : List Char → Bool
  | [] => (e :: live).any fun a => a.passes ⟨before, none⟩
  | c :: rest =>
    ((e :: live).any fun a => a.passes ⟨before, c⟩) ||
      e.occursFrom c ((e :: live).flatMap fun a => a.after before c).eraseDups rest

/-- Whether an expression fits a piece of a text. -/
def occursIn (e : Expr) (text : List Char) : Bool := e.occursFrom none [] text

/-- All expressions of a list, one after another. -/
def sequence : List Expr → Expr
  | [] => nothing
  | [a] => a
  | a :: rest => both a (sequence rest)

/-- Any expression of a list, which is not empty. -/
def choice : List Expr → Expr
  | [] => one .none
  | [a] => a
  | a :: rest => either a (choice rest)

end Expr

end BitmapAsset.Pattern

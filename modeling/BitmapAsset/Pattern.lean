import BitmapAsset.Pattern.Meaning
import BitmapAsset.Pattern.Size

/-! # Patterns

A pattern describes pieces of text.  `Pattern.read` reads one, and tells why another is refused: because of a
part that makes no sense, because it would become too large, or because it asks for words in any
script.  `Pattern.occursIn` tells whether a text holds a piece that fits. -/

namespace BitmapAsset

/-- A pattern that can be looked for. -/
structure Pattern where
  expr : Pattern.Expr
deriving DecidableEq, Repr

namespace Pattern

/-- Why a pattern is refused. -/
inductive Refusal where
  | fault (f : Fault)
  | tooLarge
  | wideEdge
deriving DecidableEq, Repr

/-- What is said about a pattern that is refused. -/
def Refusal.message (pattern : List Char) : Refusal → String
  | fault f => f.message pattern
  | tooLarge => s!"Compiled regex exceeds size limit of {sizeLimit} bytes."
  | wideEdge => "error building NFA"

/-- Reads a pattern. -/
def read (pattern : List Char) : Except Refusal Pattern := do
  let (form, _) ← (do (← Tree.read pattern).meaning.run {} : Except Fault _).mapError .fault
  if sizeLimit < form.machineSize false then .error .tooLarge
  else if form.asksWide then .error .wideEdge
  else if sizeLimit < form.machineSize true then .error .tooLarge
  else .ok ⟨form.expr⟩

/-- Whether a text holds a piece that fits. -/
def occursIn (p : Pattern) (text : String) : Bool := p.expr.occursIn text.toList

end Pattern

end BitmapAsset

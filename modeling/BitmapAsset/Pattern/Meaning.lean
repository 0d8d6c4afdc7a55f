import BitmapAsset.Pattern.Form
import BitmapAsset.Pattern.Reader

/-! # What patterns mean

A pattern as written becomes a form.  Settings hold from where they are switched to the end of
the group, over bars too.

Characters of all scripts may be named one by one and by ranges, but no table of their properties is
at hand: their classes, and their letters in the other case, are refused.  In a part that is not wide the
plain classes and cases are used, and nothing may fit that lies outside the plain characters. -/

namespace BitmapAsset.Pattern

/-- The settings in force. -/
structure Settings where
  caseless : Bool := false
  byLine : Bool := false
  dotAll : Bool := false
  wide : Bool := true
  carriageReturn : Bool := false
deriving DecidableEq, Repr

namespace Settings

/-- The settings after one is switched. -/
def switch (s : Settings) : Setting × Bool → Settings
  | (.caseless, on) => { s with caseless := on }
  | (.byLine, on) => { s with byLine := on }
  | (.dotAll, on) => { s with dotAll := on }
  | (.wide, on) => { s with wide := on }
  | (.carriageReturn, on) => { s with carriageReturn := on }
  | (.short, _) => s
  | (.loose, _) => s

/-- The settings after several are switched. -/
def switchAll (s : Settings) (switches : Switches) : Settings := switches.foldl switch s

end Settings

/-- The meaning of a set. -/
structure Meant where
  set : CharSet
  /-- Whether the set is known to hold its letters in both cases. -/
  closed : Bool

/-- A name without what does not count in it: case, blanks, dashes, underscores and a leading "is". -/
def looseName (name : List Char) : List Char :=
  let name := match name with
    | a :: b :: rest => if a.toLower = 'i' ∧ b.toLower = 's' then rest else name
    | _ => name
  (name.filter fun c => c.toNat < 128 && c ≠ '_' && c ≠ ' ' && c ≠ '-').map Char.toLower

/-- Why a property is refused.  Three names stand for values, all others for properties. -/
def propertyCause (name : List Char) : Cause :=
  if ["cf", "sc", "lc"].contains (String.ofList (looseName name)) then .propertyValueUnknown
  else .propertyUnknown

/-- The character of a literal.  A byte that is no plain character is no character at all. -/
def Literal.meaning (s : Settings) (l : Literal) : Except Fault Char :=
  if !s.wide && l.asByte && 128 ≤ l.char.toNat then .error ⟨l.span, .brokenBytes, none⟩
  else .ok l.char

/-- The character of a literal in a set. -/
def Literal.member (s : Settings) (l : Literal) : Except Fault Char := do
  let c ← l.meaning s
  if !s.wide && 128 ≤ c.toNat then .error ⟨l.span, .onlyPlain, none⟩ else .ok c

namespace SetTree

/-- A set with its letters in both cases, if case does not count. -/
def close (s : Settings) (span : Span) (m : Meant) : Except Fault Meant :=
  if !s.caseless || m.closed then .ok m
  else if s.wide then .error ⟨span, .casesUnknown, none⟩
  else .ok ⟨.caseless m.set, true⟩

/-- A set, or what is not in it. -/
def finish (s : Settings) (span : Span) (negated : Bool) (m : Meant) : Except Fault Meant := do
  let m ← close s span m
  let set := if negated then .compl m.set else m.set
  if !s.wide && !set.avoidsHighBytes then .error ⟨span, .brokenBytes, none⟩
  else .ok ⟨set, m.closed⟩

mutual

/-- The meaning of a set as written. -/
def meaning (s : Settings) : SetTree → Except Fault Meant
  | empty _ => .ok ⟨.none, true⟩
  | literal l => do return ⟨.single (← l.member s), false⟩
  | range _ first last => do return ⟨.range (← first.member s) (← last.member s), false⟩
  | named span negated set => finish s span negated ⟨set, false⟩
  | brief span negated set =>
    if s.wide then .error ⟨span, .briefUnknown, none⟩
    else if negated then .error ⟨span, .brokenBytes, none⟩
    else .ok ⟨set, false⟩
  | property span name =>
    .error ⟨span, if s.wide then propertyCause name else .onlyPlain, none⟩
  | union _ items => meaningAll s items
  | combine _ op left right => do
    let a ← left.meaning s
    let b ← right.meaning s
    let b ← close s right.span b
    let a ← close s left.span a
    let set := match op with
      | .inter => CharSet.inter a.set b.set
      | .diff => CharSet.diff a.set b.set
      | .symmDiff => CharSet.symmDiff a.set b.set
    return ⟨set, true⟩
  | bracket span negated content => do finish s span negated (← content.meaning s)

/-- The meaning of several sets together. -/
def meaningAll (s : Settings) : List SetTree → Except Fault Meant
  | [] => .ok ⟨.none, true⟩
  | t :: rest => do
    let a ← t.meaning s
    let b ← meaningAll s rest
    return ⟨.union a.set b.set, a.closed && b.closed⟩

end

end SetTree

/-- The form of a literal. -/
def Literal.form (s : Settings) (l : Literal) : Except Fault Form := do
  let c ← l.meaning s
  if !s.caseless then return .literal [c]
  else if s.wide then .error ⟨l.span, .casesUnknown, none⟩
  else if c.isAlpha then return .one (.caseless (.single c))
  else return .literal [c]

/-- The form of a dot. -/
def dotForm (s : Settings) (span : Span) : Except Fault Form :=
  if !s.wide then .error ⟨span, .brokenBytes, none⟩
  else if s.dotAll then .ok (.one .all)
  else if s.carriageReturn then .ok (.one (.compl (.union (.single '\r') (.single '\n'))))
  else .ok (.one (.compl (.single '\n')))

/-- The question that an assertion stands for. -/
def Assertion.look (s : Settings) : Assertion → Look
  | .textStart => .textStart
  | .textEnd => .textEnd
  | .lineStart =>
    if !s.byLine then .textStart else if s.carriageReturn then .anyLineStart else .lineStart
  | .lineEnd => if !s.byLine then .textEnd else if s.carriageReturn then .anyLineEnd else .lineEnd
  | .edge e => if s.wide then .wideEdge else .edge e

namespace Tree

mutual

/-- The form of a pattern as written, which may change the settings for what follows. -/
def meaning : Tree → StateT Settings (Except Fault) Form
  | empty _ => return .nothing
  | switches _ s => do
    modify (·.switchAll s)
    return .nothing
  | literal l => do (l.form (← get) : Except Fault Form)
  | dot span => do (dotForm (← get) span : Except Fault Form)
  | assertion _ a => do return .look (a.look (← get))
  | set t => do return .ofSet (← (t.meaning (← get) : Except Fault Meant)).set
  | times _ least most t => do return (← t.meaning).repeated least most
  | group _ s kept t => do
    let outer ← get
    modify (·.switchAll s)
    let a ← t.meaning
    modify fun _ => outer
    return if kept then .kept a else a
  | choice _ ts => do return .options (← meaningAll ts)
  | sequence _ ts => do return .chain (← meaningAll ts)

/-- The forms of several parts, in order. -/
def meaningAll : List Tree → StateT Settings (Except Fault) (List Form)
  | [] => return []
  | t :: rest => do
    let a ← t.meaning
    let as ← meaningAll rest
    return a :: as

end

end Tree

end BitmapAsset.Pattern

import BitmapAsset.Pattern.Escape

/-! # Sets in brackets

Inside brackets stand characters, ranges, sets with a name or a letter and further brackets.  A doubled sign
puts what stands before it and what follows together in another way than by union; of several
such signs the left one comes first.  Dashes at the start of a set and a closing bracket in the first place
stand for themselves.

The reading keeps one `SetLevel` for every bracket that is still open, the innermost first, and takes at
least one character with every step. -/

namespace BitmapAsset.Pattern

/-- A bracket that is still open. -/
structure SetLevel where
  /-- What opened it. -/
  opening : Span
  negated : Bool
  /-- What stands before the last doubled sign. -/
  before : Option (SetOp × SetTree) := none
  /-- Where the present union starts. -/
  start : Place
  /-- The items of the present union, the last first. -/
  items : List SetTree := []

namespace SetLevel

/-- The level with one more item. -/
def push (l : SetLevel) (item : SetTree) : SetLevel := { l with items := item :: l.items }

/-- The present union. -/
def union (l : SetLevel) : SetTree :=
  match l.items, l.items.getLast? with
  | [], _ => .empty (.empty l.start)
  | [item], _ => item
  | last :: _, first? =>
    .union ⟨(first?.getD last).span.first, last.span.past⟩ l.items.reverse

/-- Everything so far. -/
def content (l : SetLevel) : SetTree :=
  match l.before with
  | none => l.union
  | some (op, left) =>
    let right := l.union
    .combine ⟨left.span.first, right.span.past⟩ op left right

/-- The level after a doubled sign. -/
def combine (l : SetLevel) (op : SetOp) (start : Place) : SetLevel :=
  { l with before := some (op, l.content), start, items := [] }

/-- The set, which is closed at a place. -/
def close (l : SetLevel) (past : Place) : SetTree :=
  .bracket ⟨l.opening.first, past⟩ l.negated l.content

end SetLevel

/-- The signs that put sets together when they are doubled. -/
def setOps : List (Char × SetOp) := [('&', .inter), ('-', .diff), ('~', .symmDiff)]

/-- A set with a name between colons, and the cursor after it. -/
def namedSet? (c : Cursor) : Option (SetTree × Cursor) := do
  let inside ← c.after? ['[', ':']
  let negated := inside.head? = some '^'
  let inside := if negated then inside.next else inside
  let (name, past) := inside.spanFrom (· ≠ ':') Cursor.next inside.rest.length
  let past ← past.after? [':', ']']
  let set ← CharSet.named? (String.ofList name)
  return (.named (past.since c.place) negated set, past)

namespace Reading

/-- The dashes at the start of a set, the last first. -/
def dashes (start : Place) : Nat → List SetTree → Reading (List SetTree)
  | 0, items => return items
  | n + 1, items => do
    let c ← get
    if c.head? = some '-' then
      step
      if (← get).atEnd then fail (.empty start) .setUnclosed
      dashes start n (.literal ⟨c.ahead, '-', false⟩ :: items)
    else return items

/-- What opens a set. -/
def openSet : Reading SetLevel := do
  let start := (← get).place
  step
  let c ← get
  if c.atEnd then fail (c.since start) .setUnclosed
  let negated := c.head? = some '^'
  if negated then
    step
    let c ← get
    if c.atEnd then fail (c.since start) .setUnclosed
  let first := (← get).place
  let items ← dashes start (← get).rest.length []
  let c ← get
  if items.isEmpty ∧ c.head? = some ']' then
    step
    let past ← get
    if past.atEnd then fail (past.since start) .setUnclosed
    return ⟨past.since start, negated, none, first, [.literal ⟨c.ahead, ']', false⟩]⟩
  return ⟨c.since start, negated, none, first, items⟩

/-- The character at one end of a range. -/
def boundary : Atom → Reading Literal
  | .literal l => return l
  | a => fail a.span .rangeBoundary

/-- A range, or what stands alone. -/
def setItem (opening : Span) : Reading SetTree := do
  let first ← setAtom
  modify Cursor.skip
  let c ← get
  if c.atEnd then fail opening .setUnclosed
  if c.head? ≠ some '-' ∨ c.secondInSet? = some ']' ∨ c.secondInSet? = some '-' then
    match first with
    | .literal l => return .literal l
    | .set s => return s
    | a => fail a.span .setEscape
  else
    step
    if (← get).atEnd then fail opening .setUnclosed
    let last ← setAtom
    let span : Span := ⟨first.span.first, last.span.past⟩
    let first ← boundary first
    let last ← boundary last
    if first.char ≤ last.char then return .range span first last
    else fail span .rangeOrder

/-- The rest of a set, given the brackets that are open. -/
def setFrom : Nat → SetLevel → List SetLevel → Reading SetTree
  | 0, level, _ => fail level.opening .setUnclosed
  | n + 1, level, outside => do
    modify Cursor.skip
    let c ← get
    match c.head? with
    | none => fail level.opening .setUnclosed
    | some '[' =>
      match namedSet? c with
      | some (s, past) =>
        set past
        setFrom n (level.push s) outside
      | none => setFrom n (← openSet) (level :: outside)
    | some ']' =>
      next
      let s := level.close (← get).place
      match outside with
      | [] => return s
      | outer :: outside => setFrom n (outer.push s) outside
    | some ch =>
      match setOps.lookup ch, c.after? [ch, ch] with
      | some op, some past =>
        set past
        setFrom n (level.combine op past.place) outside
      | _, _ => setFrom n (level.push (← setItem level.opening)) outside

/-- A set in brackets. -/
def bracket : Reading SetTree := do
  let length := (← get).rest.length
  setFrom length (← openSet) []

end Reading

end BitmapAsset.Pattern

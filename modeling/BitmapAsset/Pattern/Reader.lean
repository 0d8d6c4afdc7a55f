import BitmapAsset.Letter
import BitmapAsset.Pattern.Brackets

/-! # Reading patterns

A pattern is read from left to right.  Alternatives are cut by bars; a group holds
alternatives in parentheses, and may switch settings or give itself a name; a repetition follows what
it repeats.

The reading keeps what is still open: the present `Level` and one `Outside` for every group around it.
It takes at least one character with every step. -/

namespace BitmapAsset.Pattern

/-- Alternatives that are being read. -/
structure Level where
  /-- Where the first alternative starts. -/
  first : Place
  /-- Where the present alternative starts. -/
  start : Place := first
  /-- The parts of the present alternative, the last first. -/
  items : List Tree := []
  /-- The alternatives before, the last first. -/
  done : List Tree := []

namespace Level

/-- The level with one more part. -/
def push (l : Level) (t : Tree) : Level := { l with items := t :: l.items }

/-- The present alternative, which stops at a place. -/
def sequence (l : Level) (past : Place) : Tree := .ofSequence ⟨l.start, past⟩ l.items.reverse

/-- The level after a bar. -/
def bar (l : Level) (before after : Place) : Level :=
  { l with start := after, items := [], done := l.sequence before :: l.done }

/-- Everything, which stops at a place. -/
def close (l : Level) (past : Place) : Tree :=
  if l.done.isEmpty then l.sequence past
  else .choice ⟨l.first, past⟩ (l.sequence past :: l.done).reverse

end Level

/-- What stands around a group that is still open. -/
structure Outside where
  level : Level
  /-- The parenthesis that opened the group. -/
  opening : Span
  switches : Switches
  /-- Whether the place of what the group fits is kept. -/
  kept : Bool
  /-- Whether the pattern is loose after the group. -/
  loose : Bool

/-- What an opening parenthesis starts. -/
inductive Opening where
  | switches (span : Span) (s : Switches)
  | group (span : Span) (s : Switches) (kept : Bool) (name : Option (List Char × Span))

/-- The letters of the settings. -/
def settingLetters : List (Char × Setting) :=
  [('i', .caseless), ('m', .byLine), ('s', .dotAll), ('U', .short), ('u', .wide),
    ('R', .carriageReturn), ('x', .loose)]

/-- Whether the name of a group may start with a character. -/
def startsName (c : Char) : Bool := c = '_' || isLetter c

/-- Whether a character may stand in the name of a group. -/
def continuesName (c : Char) : Bool := startsName c || isNumber c || ['.', '[', ']'].contains c

namespace Reading

/-- The name of a group and its closing angle bracket. -/
def groupName : Reading (List Char × Span) := do
  let c ← get
  let name ← match c.head? with
    | some ch => if startsName ch then takeWhile continuesName Cursor.next else pure []
    | none => pure []
  let past ← get
  match past.head? with
  | none => fail past.here .groupNameAtEnd
  | some '>' =>
    if name = [] then fail c.here .groupNameEmpty
    next
    return (name, past.since c.place)
  | some _ => fail past.ahead .groupNameChar

/-- The settings that are switched on or off up to a colon or a closing parenthesis.  What was switched
before is given with its place, and so is the dash that switches off, which must not come last. -/
def switches : Nat → List (Setting × Bool × Span) → Option Span → Reading Switches
  | 0, _, _ => do fail (← get).here .switchAtEnd
  | n + 1, found, dash => do
    let c ← get
    match c.head? with
    | none => fail c.here .switchAtEnd
    | some '-' =>
      match dash with
      | some earlier => throw ⟨c.ahead, .switchNegatedTwice, some earlier⟩
      | none =>
        next
        let past ← get
        if past.head? = some ':' ∨ past.head? = some ')' then fail c.ahead .switchDangling
        switches n found c.ahead
    | some ch =>
      if ch = ':' ∨ ch = ')' then return (found.map fun (s, on, _) => (s, on)).reverse
      match settingLetters.lookup ch with
      | none => fail c.ahead .switchUnknown
      | some s =>
        match found.lookup s with
        | some (_, earlier) => throw ⟨c.ahead, .switchTwice, some earlier⟩
        | none =>
          next
          switches n ((s, dash.isNone, c.ahead) :: found) dash

/-- An opening parenthesis and what belongs to it. -/
def opening : Reading Opening := do
  let paren ← get
  step
  let inside ← get
  if let some past := [['?', '='], ['?', '!'], ['?', '<', '='], ['?', '<', '!']].findSome? inside.after? then
    fail (past.since paren.place) .lookAround
  if let some named := inside.after? ['?', 'P', '<'] <|> inside.after? ['?', '<'] then
    set named
    let name ← groupName
    return .group paren.ahead [] true (some name)
  match inside.after? ['?'] with
  | none => return .group paren.ahead [] true none
  | some c =>
    if c.atEnd then fail paren.ahead .groupUnclosed
    set c
    let s ← switches (c.rest.length + 1) [] none
    let past ← get
    next
    if past.head? = some ':' then return .group paren.ahead s false none
    if s = [] then fail inside.here .timesNothing
    return .switches ((← get).since paren.place) s

/-- The number that is next, with blanks around it. -/
def number : Reading (Except Fault Nat) := do
  let _ ← takeWhile isBlank Cursor.next
  let start := (← get).place
  let digits ← takeWhile Char.isDigit Cursor.step
  let span := (← get).since start
  let _ ← takeWhile isBlank Cursor.step
  if digits = [] then return .error ⟨span, .numberEmpty, none⟩
  let n := numberOf 10 digits
  if n < 0x100000000 then return .ok n else return .error ⟨span, .numberTooLarge, none⟩

/-- How often something is repeated, in braces: exactly, at least, or at least and at most. -/
def counts : Reading (Nat × Option Nat) := do
  let start := (← get).place
  step
  let unclosed : Reading Unit := do fail ((← get).since start) .timesUnclosed
  if (← get).atEnd then unclosed
  let least ← number
  if (← get).atEnd then unclosed
  let (least, most) ←
    if (← get).head? = some ',' then do
      step
      if (← get).atEnd then unclosed
      let least ← (least : Except Fault Nat)
      if (← get).head? = some '\x7d' then pure (least, none)
      else do
        let most ← (← number : Except Fault Nat)
        pure (least, some most)
    else do
      let n ← (least : Except Fault Nat)
      pure (n, some n)
  if (← get).head? ≠ some '\x7d' then unclosed
  step
  if (← get).head? = some '?' then next
  if most.any (· < least) then fail ((← get).since start) .timesOrder
  return (least, most)

/-- How often something is repeated. -/
def repetition (sign : Char) : Reading (Nat × Option Nat) :=
  match sign with
  | '?' => simple (0, some 1)
  | '*' => simple (0, none)
  | '+' => simple (1, none)
  | _ => counts
where
  /-- A repetition with a sign of its own, which a question mark may follow. -/
  simple (counts : Nat × Option Nat) : Reading (Nat × Option Nat) := do
    next
    if (← get).head? = some '?' then next
    return counts

/-- A repetition of the last part. -/
def repeatLast (level : Level) (sign : Char) : Reading Level := do
  let c ← get
  match level.items with
  | [] => fail c.here .timesNothing
  | .switches _ _ :: _ => fail c.here .timesNothing
  | t :: items =>
    let (least, most) ← repetition sign
    return { level with items := .times ((← get).since t.span.first) least most t :: items }

/-- The rest of a pattern, given what is open and the names of the groups so far. -/
def treeFrom : Nat → Level → List Outside → List (List Char × Span) → Reading Tree
  | 0, level, outside, _ => finish level outside
  | n + 1, level, outside, names => do
    modify Cursor.skip
    let c ← get
    match c.head? with
    | none => finish level outside
    | some '(' =>
      match ← opening with
      | .switches span s =>
        modify fun c => { c with loose := (s.lookup .loose).getD c.loose }
        treeFrom n (level.push (.switches span s)) outside names
      | .group span s kept name =>
        if let some (name, place) := name then
          if let some earlier := names.lookup name then
            throw ⟨place, .groupNameTwice, some earlier⟩
        modify fun c => { c with loose := (s.lookup .loose).getD c.loose }
        let inner : Level := { first := (← get).place }
        treeFrom n inner (⟨level, span, s, kept, c.loose⟩ :: outside) (name.toList ++ names)
    | some ')' =>
      match outside with
      | [] => fail c.ahead .groupUnopened
      | outer :: outside =>
        next
        modify fun c => { c with loose := outer.loose }
        let span := (← get).since outer.opening.first
        let t := Tree.group span outer.switches outer.kept (level.close c.place)
        treeFrom n (outer.level.push t) outside names
    | some '|' =>
      next
      treeFrom n (level.bar c.place (← get).place) outside names
    | some '[' =>
      let s ← bracket
      treeFrom n (level.push (.set s)) outside names
    | some ch =>
      if ['?', '*', '+', '\x7b'].contains ch then
        treeFrom n (← repeatLast level ch) outside names
      else
        let a ← atom
        treeFrom n (level.push a.toTree) outside names
where
  /-- The whole pattern, if every group is closed. -/
  finish (level : Level) : List Outside → Reading Tree
    | [] => return level.close (← get).place
    | inner :: _ => fail inner.opening .groupUnclosed

end Reading

/-- Reads a pattern. -/
def Tree.read (pattern : List Char) : Except Fault Tree := do
  let start := Cursor.ofPattern pattern
  let (t, _) ← (Reading.treeFrom pattern.length { first := start.place } [] []).run start
  match t.tooDeep? depthLimit with
  | some span => throw ⟨span, .tooDeep, none⟩
  | none => return t

end BitmapAsset.Pattern

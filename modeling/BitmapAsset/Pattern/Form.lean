import BitmapAsset.Pattern.Expr
import BitmapAsset.Pattern.Fault
import BitmapAsset.Pattern.Ranges

/-! # Patterns in normal form

A form is put together from its parts and simplified on the way: neighbouring characters become one
literal, sequences and choices do not contain their like, a choice of single characters or of sets
becomes a set, and what all branches of a choice begin with is taken out in front.  Repetitions of
what takes no characters are cut down.

`Form.expr` is the expression of a form. -/

namespace BitmapAsset.Pattern

/-- A pattern in normal form. -/
inductive Form where
  | nothing
  | literal (text : List Char)
  | one (set : CharSet)
  | look (l : Look)
  /-- A group that keeps the place of what it fits. -/
  | kept (a : Form)
  /-- The form over and over, at least and at most so many times. -/
  | times (least : Nat) (most : Option Nat) (a : Form)
  | sequence (parts : List Form)
  | choice (branches : List Form)

namespace Form

/-- The form that never fits. -/
def never : Form := one .none

/-- The form of a set. -/
def ofSet (s : CharSet) : Form :=
  match s.ranges with
  | [] => never
  | [(a, b)] => if a = b then literal [Char.ofNat a] else one s
  | _ => one s

mutual

/-- Whether two forms are the same.  Groups that keep a place never are. -/
def same : Form → Form → Bool
  | nothing, nothing => true
  | literal a, literal b => a == b
  | one a, one b => a.ranges == b.ranges
  | look a, look b => a == b
  | times l m a, times l' m' b => l == l' && m == m' && a.same b
  | sequence as, sequence bs => allSame as bs
  | choice as, choice bs => allSame as bs
  | _, _ => false

/-- Whether the forms of two lists are the same in order. -/
def allSame : List Form → List Form → Bool
  | [], [] => true
  | a :: as, b :: bs => a.same b && allSame as bs
  | _, _ => false

end

mutual

/-- Whether a form fits the empty piece at most. -/
def takesNothing : Form → Bool
  | nothing => true
  | literal text => text.isEmpty
  | one _ => false
  | look _ => true
  | kept a => a.takesNothing
  | times _ _ a => a.takesNothing
  | sequence parts => allTakeNothing parts
  | choice branches => allTakeNothing branches

/-- Whether several forms fit the empty piece at most. -/
def allTakeNothing : List Form → Bool
  | [] => true
  | a :: rest => a.takesNothing && allTakeNothing rest

end

/-- The parts that a form adds to a sequence. -/
def parts : Form → List Form
  | nothing => []
  | sequence ps => ps
  | a => [a]

/-- Parts with neighbouring literals put together. -/
def joinLiterals : List Form → List Form
  | [] => []
  | literal a :: rest =>
    match joinLiterals rest with
    | literal b :: more => literal (a ++ b) :: more
    | more => literal a :: more
  | a :: rest => a :: joinLiterals rest

/-- Forms one after another. -/
def chain (forms : List Form) : Form :=
  match joinLiterals (forms.flatMap parts) with
  | [] => nothing
  | [a] => a
  | ps => sequence ps

/-- The branches that a form adds to a choice. -/
def branches : Form → List Form
  | choice bs => bs
  | a => [a]

/-- The set of all branches, if each of them is a single character. -/
def chars? : List Form → Option CharSet
  | [] => some .none
  | literal [c] :: rest => (chars? rest).map (.union (.single c))
  | _ => none

/-- The set of all branches, if each of them is a set. -/
def sets? : List Form → Option CharSet
  | [] => some .none
  | one s :: rest => (sets? rest).map (.union s)
  | _ => none

/-- How many parts two lists begin with in common. -/
def commonLength : List Form → List Form → Nat
  | a :: as, b :: bs => if a.same b then commonLength as bs + 1 else 0
  | _, _ => 0

/-- How many parts all branches begin with in common, if each of them is a sequence. -/
def commonParts : List Form → Nat
  | sequence first :: rest =>
    rest.foldl
      (fun n b => match b with
        | sequence ps => min n (commonLength first ps)
        | _ => 0)
      first.length
  | _ => 0

/-- A choice between forms.  Common parts are taken out at most so many times: once for every group around
them is enough. -/
def optionsFrom (fuel : Nat) (forms : List Form) : Form :=
  match forms.flatMap branches with
  | [] => never
  | [a] => a
  | first :: others =>
    let bs := first :: others
    match (chars? bs).orElse fun _ => sets? bs with
    | some s => ofSet s
    | none =>
      match fuel, commonParts bs with
      | n + 1, common + 1 =>
        let rests := bs.map fun b => chain (b.parts.drop (common + 1))
        chain (first.parts.take (common + 1) ++ [optionsFrom n rests])
      | _, _ => choice bs

/-- A choice between forms. -/
def options (forms : List Form) : Form := optionsFrom depthLimit forms

/-- The form over and over.  What takes nothing need not be asked for twice, and what must not be there
is not asked for at all. -/
def repeated (a : Form) (least : Nat) (most : Option Nat) : Form :=
  let least := if a.takesNothing then min least 1 else least
  let most := if a.takesNothing then some (min (most.getD 1) 1) else most
  if most = some 0 then nothing
  else if least = 1 ∧ most = some 1 then a
  else times least most a

mutual

/-- The expression of a form. -/
def expr : Form → Expr
  | nothing => .nothing
  | literal text => .sequence (text.map fun c => .one (.single c))
  | one s => .one s
  | look l => .look l
  | kept a => a.expr
  | times least most a => .times least most a.expr
  | sequence ps => .sequence (exprs ps)
  | choice bs => .choice (exprs bs)

/-- The expressions of several forms, in order. -/
def exprs : List Form → List Expr
  | [] => []
  | a :: rest => a.expr :: exprs rest

end

mutual

/-- Whether a form asks about words in any script. -/
def asksWide : Form → Bool
  | look l => l == .wideEdge
  | kept a => a.asksWide
  | times _ _ a => a.asksWide
  | sequence ps => anyAsksWide ps
  | choice bs => anyAsksWide bs
  | _ => false

/-- Whether one of several forms asks about words in any script. -/
def anyAsksWide : List Form → Bool
  | [] => false
  | a :: rest => a.asksWide || anyAsksWide rest

end

end Form

end BitmapAsset.Pattern

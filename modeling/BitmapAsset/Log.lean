import BitmapAsset.Blank
import BitmapAsset.ControlSequence
import BitmapAsset.Event
import BitmapAsset.Pattern

/-! # Log lines

Events become lines on standard error if somebody asked for them.  A specification lists directives with
commas between them: a level, or the start of a target with or without a level.  Of the directives whose
name starts the target of an event the longest decides, and of equally long ones the last; a
directive replaces an earlier one of the same name.  Behind a slash stands a pattern that the text of an event
must hold.  Where nothing is asked for, only errors are shown, and where there is no specification at
all, warnings too.  Nothing that is shown gives orders to a terminal. -/

namespace BitmapAsset

namespace Log

/-- Up to which level events are shown; none are for `off`. -/
inductive Detail where
  | off
  | upTo (level : Level)
deriving DecidableEq, Repr

namespace Detail

/-- Every detail that can be asked for, with its name. -/
def named : List (String × Detail) :=
  [("off", off), ("error", upTo .error), ("warn", upTo .warn), ("info", upTo .info),
    ("debug", upTo .debug), ("trace", upTo .trace)]

/-- The detail of the given name, in any case of letters. -/
def ofName? (name : String) : Option Detail :=
  (named.find? fun d => sameName d.1 name).map Prod.snd

/-- Whether events of a level are shown. -/
def shows : Detail → Level → Bool
  | off, _ => false
  | upTo most, level => level.rank ≤ most.rank

end Detail

/-- How much is shown of the targets that start with a name, or of all targets. -/
structure Directive where
  name : Option String
  detail : Detail
deriving DecidableEq, Repr

namespace Directive

/-- Whether a directive speaks of a target. -/
def covers (d : Directive) (target : String) : Bool :=
  match d.name with
  | some name => name.toList.isPrefixOf target.toList
  | none => true

/-- How precisely a directive speaks. -/
def length (d : Directive) : Nat := (d.name.map String.utf8ByteSize).getD 0

end Directive

/-- Reads one directive; fails with the part that makes no sense.  An empty text is no directive. -/
def Directive.read? (text : List Char) : Except String (Option Directive) :=
  let text := trimBlanks text
  if text = [] then .ok none
  else
    match text.splitOn '=' with
    | [only] =>
      match Detail.ofName? (String.ofList only) with
      | some detail => .ok (some ⟨none, detail⟩)
      | none => .ok (some ⟨some (String.ofList only), .upTo .trace⟩)
    | [name, detail] =>
      let detail := trimBlanks detail
      if detail = [] then .ok (some ⟨some (String.ofList name), .upTo .trace⟩)
      else
        match Detail.ofName? (String.ofList detail) with
        | some d => .ok (some ⟨some (String.ofList name), d⟩)
        | none => .error (String.ofList detail)
    | _ => .error (String.ofList text)

/-- Adds a directive, in the place of one with the same name. -/
def insert (d : Directive) : List Directive → List Directive
  | [] => [d]
  | head :: rest => if head.name = d.name then d :: rest else head :: insert d rest

/-- Which events are shown: directives, and a pattern that must occur in the message. -/
structure Filter where
  directives : List Directive
  mention : Option Pattern
deriving DecidableEq, Repr

namespace Filter

/-- The filter where nothing is asked for. -/
def quiet : Filter := ⟨[⟨none, .upTo .error⟩], none⟩

/-- Reads the parts of a list of directives, and tells the parts that make no sense. -/
def readDirectives (text : List Char) : List Directive × List String :=
  (text.splitOn ',').foldl
    (fun (directives, faults) part =>
      match Directive.read? part with
      | .ok (some d) => (insert d directives, faults)
      | .ok none => (directives, faults)
      | .error fault => (directives, faults ++ [s!"invalid logging spec '{fault}'"]))
    ([], [])

/-- The filter of some directives; without any, nothing is asked for. -/
def ofDirectives (directives : List Directive) (mention : Option Pattern) : Filter :=
  ⟨if directives = [] then quiet.directives else directives, mention⟩

/-- Reads a specification, and tells the parts that make no sense.  A slash may be followed by a pattern that
must occur in messages; one that is refused is not asked for. -/
def read (spec : String) : Filter × List String :=
  match spec.toList.splitOn '/' with
  | [text] =>
    let (directives, faults) := readDirectives text
    (ofDirectives directives none, faults)
  | [text, mention] =>
    let (directives, faults) := readDirectives text
    match Pattern.read mention with
    | .ok pattern => (ofDirectives directives pattern, faults)
    | .error refusal =>
      (ofDirectives directives none,
        faults ++ [s!"invalid regex filter - {refusal.message mention}"])
  | _ => (ofDirectives [] none, [s!"invalid logging spec '{spec}' (too many '/'s)"])

/-- The directive that decides about a target. -/
def deciding? (f : Filter) (target : String) : Option Directive :=
  (f.directives.filter fun d => d.covers target).foldl
    (fun best d =>
      match best with
      | some b => if d.length < b.length then some b else some d
      | none => some d)
    none

/-- Whether an event is shown. -/
def shows (f : Filter) (event : Event) : Bool :=
  (f.deciding? event.target).any (fun d => d.detail.shows event.level) &&
    f.mention.all fun pattern => pattern.occursIn event.text

end Filter

/-- The filter of a specification, which may be missing, and warnings about the parts that make no sense. -/
def filterOf (spec : Option String) : Filter × List String :=
  let (filter, faults) := Filter.read (spec.getD "warn")
  (filter, faults.map fun fault => s!"warning: {fault}, ignoring it")

/-- The line of an event.  Lines inside its text are set in. -/
def line (event : Event) : String :=
  let level := event.level.name
  let pad := "".pushn ' ' (5 - level.length)
  let text := String.intercalate "\n    " (event.text.splitOn "\n")
  s!"[{level}{pad} {event.target}] {text}"

/-- What is written for an event: its line and the line break, without what is meant for a terminal.  A
sequence that stays open at the end of the line takes the line break with it. -/
def written (event : Event) : String := plainText (line event ++ "\n")

end Log

end BitmapAsset

import BitmapAsset.Error

/-! # File trees

The files that a run sees, as a map from locations to entries.  A location lists the names on the way
down from the root, so two paths name the same file exactly if they lead to the same location.

A path is walked segment by segment (`FileTree.walk`), and every step needs a directory to start from:
also the empty step of a slash at the end, which is why a file cannot be named with one.  What cannot be
found is told apart by whether its directory is there: a file may be created in a directory, but
a directory that is missing cannot be walked through. -/

namespace BitmapAsset

/-- The names on the way from the root to a file or directory. -/
abbrev Location := List FileName

/-- Files that the system makes up. -/
inductive Device where
  /-- Empty; takes everything and forgets it. -/
  | null
  /-- Endless zeros; takes everything and forgets it. -/
  | zero
  /-- Endless zeros; takes nothing. -/
  | full
  /-- Standard output under a name. -/
  | stdout
deriving DecidableEq, Repr

/-- The first bytes that a device hands out: none or, of its endless zeros, one page. -/
def Device.content : Device → Array UInt8
  | null | stdout => #[]
  | zero | full => Array.replicate 4096 0

/-- What stands at a location. -/
inductive Entry where
  | file (content : Array UInt8)
  | directory
  | device (device : Device)
deriving DecidableEq

namespace Entry

/-- Whether one can go on from here. -/
def isDirectory : Entry → Bool
  | directory => true
  | file _ | device _ => false

/-- What reading the entry yields. -/
def read : Entry → Except OsError (Array UInt8)
  | file content => .ok content
  | directory => .error .isDirectory
  | device d => .ok d.content

end Entry

/-- All files, and the directory from which relative paths start. -/
structure FileTree where
  workDir : Location
  entries : List (Location × Entry)
deriving DecidableEq

/-- Where a path leads. -/
inductive Place where
  /-- To something that is there. -/
  | present (location : Location) (entry : Entry)
  /-- To a name that is free in a directory that is there. -/
  | vacant (location : Location)
deriving DecidableEq

namespace FileTree

/-- The longest name that a directory can hold. -/
def maxNameLength : Nat := 255

/-- Paths must be shorter than this. -/
def pathLimit : Nat := 4096

/-- What stands at a location. -/
def get? (t : FileTree) (location : Location) : Option Entry := t.entries.lookup location

/-- Replaces what a list holds under a key. -/
def replace (location : Location) (entry : Entry) :
    List (Location × Entry) → List (Location × Entry)
  | [] => [(location, entry)]
  | head :: rest =>
    if head.1 = location then (location, entry) :: rest else head :: replace location entry rest

/-- Puts an entry at a location, whatever stood there before. -/
def put (t : FileTree) (location : Location) (entry : Entry) : FileTree :=
  { t with entries := replace location entry t.entries }

theorem lookup_replace (location other : Location) (entry : Entry) (l : List (Location × Entry)) :
    (replace location entry l).lookup other =
      if other = location then some entry else l.lookup other := by
  induction l with
  | nil =>
    by_cases h : other = location
    · simp [replace, h]
    · simp [replace, List.lookup_cons, beq_false_of_ne h, h]
  | cons head rest ih =>
    obtain ⟨key, value⟩ := head
    by_cases hk : key = location
    · subst hk
      by_cases h : other = key
      · simp [replace, h]
      · simp [replace, List.lookup_cons, beq_false_of_ne h, h]
    · by_cases h : other = key
      · simp [replace, h, hk]
      · simp [replace, List.lookup_cons, beq_false_of_ne h, hk, ih]

@[simp] theorem get?_put (t : FileTree) (location other : Location) (entry : Entry) :
    (t.put location entry).get? other = if other = location then some entry else t.get? other :=
  lookup_replace ..

/-- Whether a directory stands at a location. -/
def hasDirectory (t : FileTree) (location : Location) : Bool :=
  (t.get? location).any Entry.isDirectory

/-- Follows segments from a location. -/
def walk (t : FileTree) : Location → List Bytes → Except OsError Place
  | here, [] =>
    match t.get? here with
    | some entry => .ok (.present here entry)
    | none => .error .noEntry
  | here, segment :: rest =>
    if ! t.hasDirectory here then .error .notDirectory
    else if Path.isIdle segment then t.walk here rest
    else if segment = Path.up then t.walk here.dropLast rest
    else if maxNameLength < segment.length then .error .nameTooLong
    else
      let there := here ++ [segment]
      match t.get? there, rest with
      | some _, _ => t.walk there rest
      | none, [] => .ok (.vacant there)
      | none, _ :: _ => .error .noEntry

/-- Where a path leads. -/
def resolve (t : FileTree) (p : Path) : Except OsError Place :=
  if p = [] then .error .noEntry
  else if pathLimit ≤ p.length then .error .nameTooLong
  else t.walk (if p.head? = some Path.slash then [] else t.workDir) p.segments

/-- Opens what a path names for reading.  Directories open; only reading them fails. -/
def openToRead (t : FileTree) (p : Path) : Except OsError Entry := do
  match ← t.resolve p with
  | .present _ entry => return entry
  | .vacant _ => throw .noEntry

/-! ### Building and comparing trees -/

/-- The root directory and the devices. -/
def bare : FileTree where
  workDir := []
  entries := [([], .directory), ([utf8 "dev"], .directory),
    ([utf8 "dev", utf8 "null"], .device .null), ([utf8 "dev", utf8 "zero"], .device .zero),
    ([utf8 "dev", utf8 "full"], .device .full), ([utf8 "dev", utf8 "stdin"], .device .null),
    ([utf8 "dev", utf8 "stdout"], .device .stdout)]

/-- Goes down a list of names and makes each a directory, unless something is there. -/
def makeDirectories (t : FileTree) (here : Location) : List FileName → FileTree
  | [] => t
  | name :: rest =>
    let there := here ++ [name]
    let t := if (t.get? there).isSome then t else t.put there .directory
    t.makeDirectories there rest

/-- The location that a path names if every directory on the way is there. -/
def locate (t : FileTree) (p : Path) : Location :=
  p.segments.foldl
    (fun here segment =>
      if Path.isIdle segment then here
      else if segment = Path.up then here.dropLast
      else here ++ [segment])
    (if p.head? = some Path.slash then [] else t.workDir)

/-- Puts an entry where a path leads, and the directories on the way. -/
def plant (t : FileTree) (p : Path) (entry : Entry) : FileTree :=
  let location := t.locate p
  (t.makeDirectories [] location.dropLast).put location entry

/-- A tree with nothing but devices and an empty directory to work in. -/
def fresh : FileTree :=
  let here := [utf8 "tmp", utf8 "work"]
  { bare.makeDirectories [] here with workDir := here }

/-- The path of a location from the working directory, if it lies below it. -/
def relative? (t : FileTree) (location : Location) : Option Path :=
  if t.workDir.isPrefixOf location then
    some ([Path.slash].intercalate (location.drop t.workDir.length))
  else none

/-- The files that are new or have another content than in `before`. -/
def changedFiles (before after : FileTree) : List (Location × Array UInt8) :=
  after.entries.filterMap fun (location, entry) =>
    match entry with
    | .file content => if before.get? location = some entry then none else some (location, content)
    | .directory | .device _ => none

/-- The changed files below the working directory, in the order of their paths. -/
def changesSince (before after : FileTree) : List (Path × Array UInt8) :=
  let changed := (before.changedFiles after).filterMap fun (location, content) =>
    (after.relative? location).map fun p => (p, content)
  changed.mergeSort fun a b => a.1 ≤ b.1

end FileTree

end BitmapAsset

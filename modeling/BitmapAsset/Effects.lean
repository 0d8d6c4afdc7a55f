import BitmapAsset.FileTree
import BitmapAsset.Sink

/-! # What a run leaves behind

`Effects` gathers everything that a run may change: the file tree, the bytes on standard output and the
events.  Output goes through a buffer (`Buffered`): pieces are collected until the next one would not
fit, and only then handed to the place behind.  When the work on a buffer stops with an error, what it
still holds is handed on all the same, so the output of finished work is not lost. -/

namespace BitmapAsset

/-- The file tree, standard output and the events so far. -/
structure Effects where
  tree : FileTree
  stdout : Array UInt8
  events : Array Event
deriving DecidableEq

/-- A place that takes output. -/
inductive OutputPlace where
  | stdout
  | file (location : Location)
  | device (device : Device)
deriving DecidableEq

namespace Effects

/-- Adds an event. -/
def note (event : Event) (fx : Effects) : Effects := { fx with events := fx.events.push event }

/-- Makes a remark. -/
def remark (event : Event) : Writing Effects Unit := modify (note event)

/-- Adds bytes at the end of a place. -/
def append (place : OutputPlace) (bytes : Array UInt8) (fx : Effects) : Except OsError Effects :=
  match place with
  | .stdout | .device .stdout => .ok { fx with stdout := fx.stdout ++ bytes }
  | .file location =>
    match fx.tree.get? location with
    | some (.file content) => .ok { fx with tree := fx.tree.put location (.file (content ++ bytes)) }
    | _ => .error .noEntry
  | .device .full => if bytes.isEmpty then .ok fx else .error .noSpace
  | .device .null | .device .zero => .ok fx

/-- Fails with an error if the system refuses to open a path. -/
def orCannotOpen {α : Type} (p : Path) (result : Except OsError α) : Writing Effects α :=
  match result with
  | .ok a => pure a
  | .error cause => throw (.cannotOpen p cause)

/-- Opens a file that is there, to add to its end. -/
def openToAppend (p : Path) : Writing Effects OutputPlace := do
  match ← orCannotOpen p ((← get).tree.resolve p) with
  | .present location (.file _) => return .file location
  | .present _ (.device d) => return .device d
  | .present _ .directory => throw (.cannotOpen p .isDirectory)
  | .vacant _ => throw (.cannotOpen p .noEntry)

/-- Opens a file and empties it; the file is created if it is not there. -/
def create (p : Path) : Writing Effects OutputPlace := do
  match ← orCannotOpen p ((← get).tree.resolve p) with
  | .present location (.file _) | .vacant location =>
    modify fun fx => { fx with tree := fx.tree.put location (.file #[]) }
    return .file location
  | .present _ (.device d) => return .device d
  | .present _ .directory => throw (.cannotOpen p .isDirectory)

end Effects

/-! ### Buffered output -/

/-- Bytes held back, the place where they will go, and everything else. -/
structure Buffered where
  held : Array UInt8
  place : OutputPlace
  effects : Effects
deriving DecidableEq

namespace Buffered

/-- The most bytes that are held back. -/
def capacity : Nat := 8192

/-- Hands bytes to the place behind, past those that are held back. -/
def pass (bytes : Array UInt8) : Writing Buffered Unit
  | ⟨held, place, fx⟩ =>
    match fx.append place bytes with
    | .ok fx => .ok () ⟨held, place, fx⟩
    | .error cause => .error (.write (.os cause)) ⟨held, place, fx⟩

/-- Hands on what is held back. -/
def flush : Writing Buffered Unit := do
  pass (← get).held
  modify fun b => { b with held := #[] }

/-- Holds bytes back. -/
def hold (bytes : Bytes) : Writing Buffered Unit
  | ⟨held, place, fx⟩ => .ok () ⟨held ++ bytes.toArray, place, fx⟩

/-- Takes bytes: makes room first if they do not fit, and does not hold back what would fill the buffer
alone. -/
def put (bytes : Bytes) : Writing Buffered Unit := do
  if capacity < (← get).held.size + bytes.length then
    flush
  if capacity ≤ bytes.length then
    pass bytes.toArray
  else
    hold bytes

instance : Sink Buffered where
  put := put
  flush := flush
  note event := fun ⟨held, place, fx⟩ => ⟨held, place, fx.note event⟩

/-- Does something apart from the output. -/
def onEffects {α : Type} (action : Writing Effects α) : Writing Buffered α
  | ⟨held, place, fx⟩ =>
    match action fx with
    | .ok a fx => .ok a ⟨held, place, fx⟩
    | .error e fx => .error e ⟨held, place, fx⟩

/-- What is left when the buffer goes away: whatever it still holds is handed on if possible. -/
def release (b : Buffered) : Effects :=
  match flush b with
  | .ok _ b => b.effects
  | .error _ b => b.effects

/-- Works with buffered output to a place, and hands on the rest in the end. -/
def within (place : OutputPlace) (work : Writing Buffered Unit) : Writing Effects Unit := fun fx =>
  match (work >>= fun _ => flush) ⟨#[], place, fx⟩ with
  | .ok _ b => .ok () b.effects
  | .error e b => .error e b.release

end Buffered

end BitmapAsset

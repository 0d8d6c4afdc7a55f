import BitmapAsset.Program

/-! # The command

Runs the program on the files of the machine: looks at what the paths on the command line lead to, lets
`Program.run` decide what happens, and puts its outcome into effect. -/

namespace BitmapAsset

namespace Machine

/-- The text of a location as a path from the root. -/
def pathText (location : Location) : String :=
  "/" ++ String.intercalate "/" (location.map lossyText)

/-- The number with which the system refuses to read a directory. -/
def isDirectoryCode : UInt32 := 21

/-- What stands at a location, if anything. -/
def lookAt (location : Location) : IO (Option Entry) := do
  try
    let content ← IO.FS.readBinFile (pathText location)
    return some (.file content.data)
  catch e =>
    match e with
    | .inappropriateType _ code _ =>
      return if code = isDirectoryCode then some .directory else none
    | _ => return none

/-- Adds to a tree what stands on the way along segments from a location. -/
def discover (tree : FileTree) (here : Location) : List Bytes → IO FileTree
  | [] => return tree
  | segment :: rest => do
    if Path.isIdle segment then
      discover tree here rest
    else if segment = Path.up then
      discover tree here.dropLast rest
    else
      let there := here ++ [segment]
      if (tree.get? there).isSome then
        discover tree there rest
      else
        match ← lookAt there with
        | some entry => discover (tree.put there entry) there rest
        | none => return tree

/-- Adds to a tree what stands on the way along a path. -/
def discoverPath (tree : FileTree) (p : Path) : IO FileTree :=
  discover tree (if p.head? = some Path.slash then [] else tree.workDir) p.segments

/-- Runs the program on the machine's files and returns its exit status. -/
def command (args : List String) : IO UInt32 := do
  let spec ← IO.getEnv "RUST_LOG"
  let here := utf8 (← IO.currentDir).toString
  let start ← discoverPath { FileTree.bare with workDir := FileTree.bare.locate here } here
  let tree ← (Program.mentionedPaths args).foldlM discoverPath start
  let outcome := Program.run spec args tree
  (← IO.getStderr).putStr outcome.stderr
  (← IO.getStdout).write ⟨outcome.stdout⟩
  for (location, content) in tree.changedFiles outcome.tree do
    IO.FS.writeBinFile (pathText location) ⟨content⟩
  return UInt32.ofNat outcome.code

end Machine

end BitmapAsset

def main (args : List String) : IO UInt32 := BitmapAsset.Machine.command args

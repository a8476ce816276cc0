import CnfSolver.CommandLine.Program

/-!
# The command line

Takes a snapshot of the files that the arguments name, runs the program on it and
prints what it says. Directories are followed to a fixed depth.
-/

namespace CnfSolver.CommandLine

/-- How deep directories are followed. -/
def directoryDepth : Nat := 128

/-- Add what lies at a path, known in the tree by the given names. -/
def snapshot : Nat → FileTree → List String → String → IO FileTree
  | 0, tree, _, _ => pure tree
  | depth + 1, tree, place, path => do
      let file := System.mkFilePath [path]
      if ← file.isDir then
        let mut grown := tree.addDirectory place
        for entry in ← file.readDir do
          grown ← snapshot depth grown (place ++ [entry.fileName]) entry.path.toString
        pure grown
      else if ← file.pathExists then
        pure (tree.addFile place (← IO.FS.readBinFile path))
      else pure tree

/-- The tree that a path leads through: whatever lies at each of its steps, and
everything below its end. -/
def treeAt (path : String) : IO FileTree := do
  let names := FileTree.names path
  let mut tree := FileTree.empty
  let mut place : List String := []
  let mut walked := ""
  for name in names do
    walked := if walked.isEmpty then name else FileTree.join walked [name]
    place :=
      if name == "" || name == "." then place
      else if name == ".." then place.dropLast
      else place ++ [name]
    let file := System.mkFilePath [walked]
    if ← file.isDir then tree := tree.addDirectory place
    else if ← file.pathExists then
      tree := tree.addFile place (← IO.FS.readBinFile file)
  if ← (System.mkFilePath [path]).isDir then snapshot directoryDepth tree place path
  else pure tree

end CnfSolver.CommandLine

open CnfSolver CommandLine in
/-- Run the program on the arguments and the files they name. -/
def main (arguments : List String) : IO UInt32 := do
  let tree ←
    match Invocation.parse arguments with
    | .ok ⟨_, _, .path path⟩ => treeAt path
    | _ => pure FileTree.empty
  match CommandLine.run tree arguments with
  | .error _ =>
      IO.eprintln "the computation has no answer"
      pure 134
  | .ok exit =>
      IO.print exit.output
      IO.eprint exit.errors
      pure exit.code.toUInt32

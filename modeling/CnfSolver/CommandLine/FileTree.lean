import CnfSolver.Dimacs

/-!
# File trees

A snapshot of files and directories, each at the list of names that leads to it.
A directory exists if it is listed or if something lies below it. Nothing is reached
by a path that is too long, or along a name that is.
-/

namespace CnfSolver.CommandLine

open Dimacs (ReadFailure)

structure FileTree where
  files : List (List String × ByteArray)
  directories : List (List String)

namespace FileTree

def empty : FileTree := ⟨[], []⟩

def addFile (tree : FileTree) (place : List String) (bytes : ByteArray) : FileTree :=
  { tree with files := tree.files.filter (fun file => file.1 != place) ++ [(place, bytes)] }

def addDirectory (tree : FileTree) (place : List String) : FileTree :=
  { tree with directories := tree.directories ++ [place] }

def contents? (tree : FileTree) (place : List String) : Option ByteArray :=
  tree.files.lookup place

/-- Whether something lies at a place or below it, apart from a file there. -/
def isDirectory (tree : FileTree) (place : List String) : Bool :=
  place.isEmpty ||
    tree.directories.any (fun directory => place.isPrefixOf directory) ||
    tree.files.any fun file => place.isPrefixOf file.1 && file.1 != place

def contains (tree : FileTree) (place : List String) : Bool :=
  (tree.contents? place).isSome || tree.isDirectory place

/-- The names that a path consists of. A path that starts at the root begins with
the name `/`. -/
def names (path : String) : List String :=
  let parts := (path.toList.splitOn '/').map String.ofList
  if path.toList.head? = some '/' then "/" :: parts else parts

/-- Whether a path is short enough to be followed: below 4096 bytes. -/
def fits (path : String) : Bool := path.utf8ByteSize < 4096

/-- The number of bytes that a name may have. -/
def longestName : Nat := 255

/-- Follow one name of a path. -/
def enter (tree : FileTree) (place : List String) (name : String) :
    Except ReadFailure (List String) :=
  if !tree.isDirectory place then .error .notDirectory
  else if name == "" || name == "." then .ok place
  else if name == ".." then
    if place.isEmpty then .error .notFound else .ok place.dropLast
  else if longestName < name.utf8ByteSize then .error .nameTooLong
  else if tree.contains (place ++ [name]) then .ok (place ++ [name])
  else .error .notFound

/-- The place that a path leads to. -/
def resolve (tree : FileTree) (path : String) : Except ReadFailure (List String) :=
  if fits path then (names path).foldlM tree.enter [] else .error .nameTooLong

/-- The bytes of the file that a path leads to. -/
def read (tree : FileTree) (path : String) : Except ReadFailure ByteArray := do
  let place ← tree.resolve path
  match tree.contents? place with
  | some bytes => .ok bytes
  | none => .error .notFound

/-- The directory that a path leads to. -/
def directory? (tree : FileTree) (path : String) : Option (List String) :=
  match tree.resolve path with
  | .ok place => if (tree.contents? place).isSome then none else some place
  | .error _ => none

/-- The order of places: name by name, code point by code point. -/
def placeLe : List String → List String → Bool
  | [], _ => true
  | _ :: _, [] => false
  | first :: firsts, second :: seconds =>
      first < second || (first == second && placeLe firsts seconds)

/-- The places of the files below a directory, relative to it, in order. -/
def below (tree : FileTree) (place : List String) : List (List String) :=
  ((tree.files.map Prod.fst).filter place.isPrefixOf).map (fun file => file.drop place.length)
    |>.mergeSort placeLe

/-- A path continued by names. -/
def join (path : String) (rest : List String) : String :=
  let separator := if path.toList.getLast? = some '/' then "" else "/"
  path ++ separator ++ String.intercalate "/" rest

/-- Whether a file is told to hold a formula by the end of its name. -/
def holdsFormula (place : List String) : Bool :=
  place.getLast?.any fun name => name.endsWith ".cnf" && name != ".cnf"

end FileTree

end CnfSolver.CommandLine

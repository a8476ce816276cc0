import CnfSolver.CommandLine.FileTree
import CnfSolver.CommandLine.Report
import CnfSolver.Dimacs
import CnfSolver.Text
import CnfSolver.Text.Terminal

/-!
# The program

What the program prints, and its exit code, for its arguments and the files it
finds. The code is zero after a command was carried out, one if its input cannot
be read, and two if the arguments make no sense.
-/

namespace CnfSolver.CommandLine

/-- A report, and the reason if it was cut short. -/
structure Session where
  report : Report
  failure : Option String

/-- The result of a run. -/
structure Exit where
  code : Nat
  output : String
  errors : String
  deriving DecidableEq, Repr

/-- A line of the log. A message of several lines hangs by four spaces, and nothing
in it can steer a terminal. -/
def logLine (event : Event) : String :=
  let origin := "[" ++ padRight 5 event.level.name ++ " " ++ event.source.name ++ "] "
  let message := Text.hang 4 event.message.toList
  String.ofList (Text.Terminal.harmless (origin.toList ++ message ++ ['\n']))

/-- The lines of the log up to a level of detail. -/
def logText (threshold : Level) (journal : Journal) : String :=
  String.join
    ((journal.toList.filter fun event => event.level.detail ≤ threshold.detail).map logLine)

def versionText : String := "simplesat 0.1.0\n"

def helpText : String :=
  "A DPLL SAT solver with clause learning and backjumping\n\n" ++
  "Usage: simplesat [OPTIONS] [PATH] [COMMAND]\n\nCommands:\n" ++
  String.join (subcommandNames.map fun name => "  " ++ name ++ "\n") ++
  "\nOptions:\n" ++
  String.join (mainScope.options.map fun spec => "  --" ++ spec.long ++ "\n")

/-- The words that a shell can complete, one on each line. -/
def completionText : String :=
  String.join (subcommandNames.map (· ++ "\n")) ++
  String.join (mainScope.options.map fun spec => "--" ++ spec.long ++ "\n")

namespace Session

def ofReport (report : Report) : Session := ⟨report, none⟩

/-- The formula in a file. -/
def readFormula (tree : FileTree) (path : String) : Except Dimacs.Error Dimacs.Document :=
  match tree.read path with
  | .error failure => .error (.unreadable failure)
  | .ok bytes => Dimacs.parseBytes bytes

/-- Solve the formula in a file. -/
def solveFile (tree : FileTree) (options : Options) (report : Report) (path : String) :
    Except Fault Session :=
  match readFormula tree path with
  | .error error => .ok ⟨report, some (path ++ ": " ++ error.message)⟩
  | .ok ⟨formula, journal⟩ =>
      ((report.noteAll journal).solve options (some path) formula).map ofReport

/-- Solve the formulas among files below a directory, up to the first that cannot
be read. -/
def solveFiles (tree : FileTree) (options : Options) (root : String) (report : Report) :
    List (List String) → Except Fault Session
  | [] => .ok (ofReport report)
  | place :: rest =>
      let path := FileTree.join root place
      if FileTree.holdsFormula place then
        match solveFile tree options report path with
        | .error fault => .error fault
        | .ok ⟨solved, none⟩ => solveFiles tree options root solved rest
        | .ok ⟨cut, some failure⟩ => .ok ⟨cut, some failure⟩
      else solveFiles tree options root (report.note (.skippedFile path)) rest

/-- Solve a file, or every formula below a directory that can be reached. -/
def solvePath (tree : FileTree) (options : Options) (path : String) : Except Fault Session :=
  match tree.directory? path with
  | some place =>
      let reached := (tree.below place).filter fun file => FileTree.fits (FileTree.join path file)
      solveFiles tree options path .empty reached
  | none => solveFile tree options .empty path

/-- Solve clauses given as text. -/
def solveText (options : Options) (input : String) : Except Fault Session :=
  match ClauseText.parse input with
  | .error error => .ok ⟨.empty, some ("Invalid input: " ++ error.message)⟩
  | .ok clauses =>
      (Report.empty.solve options none (Formula.ofClauses 0 clauses)).map ofReport

/-- Solve a random formula. -/
def solveRandom (options : Options) (shape : RandomShape) (seed : UInt64) (shown : Bool) :
    Except Fault Session :=
  match shape.generate seed with
  | .error fault => .error fault
  | .ok formula =>
      let report := if shown then Report.empty.print (Dimacs.write formula) else .empty
      (report.solve options none formula).map ofReport

/-- Carry out a command. -/
def ofInvocation (tree : FileTree) (invocation : Invocation) : Except Fault Session :=
  match invocation.command with
  | .path path => solvePath tree invocation.options path
  | .text input => solveText invocation.options input
  | .random shape seed shown => solveRandom invocation.options shape seed shown
  | .completions => .ok (ofReport (Report.empty.print completionText))

/-- The exit of a session. The log goes to the errors, and the failure after it. -/
def exit (session : Session) (debug : Bool) : Exit :=
  let log := logText (if debug then .debug else .warn) session.report.journal
  match session.failure with
  | none => ⟨0, session.report.output, log⟩
  | some failure => ⟨1, session.report.output, log ++ failure ++ "\n"⟩

end Session

/-- The exit when no command is carried out. -/
def Refusal.exit : Refusal → Exit
  | misuse => ⟨2, "", "error: invalid arguments\n\nFor more information, try '--help'.\n"⟩
  | help => ⟨0, helpText, ""⟩
  | version => ⟨0, versionText, ""⟩

/-- Run the program. -/
def run (tree : FileTree) (arguments : List String) : Except Fault Exit :=
  match Invocation.parse arguments with
  | .error refusal => .ok refusal.exit
  | .ok invocation =>
      (Session.ofInvocation tree invocation).map fun session => session.exit invocation.debug

end CnfSolver.CommandLine

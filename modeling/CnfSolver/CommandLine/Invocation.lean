import CnfSolver.CommandLine.Arguments
import CnfSolver.RandomFormula
import CnfSolver.Solver
import CnfSolver.Text

/-!
# Invocations

The options and subcommands of the program, and what a list of arguments asks for.
The options common to all ways of solving are accepted before a subcommand and
after it. Those before it are judged but have no effect, except for `debug`.
-/

namespace CnfSolver.CommandLine

/-- The options common to all ways of solving. -/
structure Options where
  verify : Bool := false
  statistics : Bool := false
  printSolution : Bool := false
  algorithm : Algorithm := .dpll
  settings : Settings := {}
  deriving DecidableEq, Repr

inductive Command where
  /-- Solve a file, or every formula below a directory. -/
  | path (path : String)
  /-- Solve clauses given as text. -/
  | text (input : String)
  /-- Solve a random formula, and print it before if asked to. -/
  | random (shape : RandomShape) (seed : UInt64) (shown : Bool)
  /-- Print the words that a shell can complete. -/
  | completions
  deriving DecidableEq, Repr

structure Invocation where
  debug : Bool
  options : Options
  command : Command
  deriving DecidableEq, Repr

/-! ## The scopes -/

def flag (long : String) (short : Option Char) : OptionSpec := ⟨long, short, .flag⟩

def valued (long : String) (short : Option Char) (accepts : String → Bool) : OptionSpec :=
  ⟨long, short, .valued accepts⟩

def isCount (text : String) : Bool := (Text.readCount text.toList).toOption.isSome

def isChoice {Value : Type} (values : List Value) (name : Value → String) (text : String) :
    Bool :=
  (Text.choose values name false text).toOption.isSome

def isNonempty (text : String) : Bool := !text.isEmpty

def helpOption : OptionSpec := ⟨"help", some 'h', .request .help⟩

def versionOption : OptionSpec := ⟨"version", some 'V', .request .version⟩

def commonOptions : List OptionSpec :=
  [flag "debug" (some 'd'), flag "verify" (some 'v'), flag "stats" (some 's'),
    flag "print-solution" (some 'p'),
    valued "solver" none (isChoice Algorithm.all Algorithm.name),
    flag "no-learning" none, flag "no-preprocessing" none,
    valued "replay" none (isChoice ReplayMode.all ReplayMode.name),
    valued "max-decisions" none isCount, valued "max-learned" none isCount, helpOption]

/-- The subcommands that do something, apart from `help`. -/
inductive Subcommand where
  | file
  | text
  | random
  | completions
  deriving DecidableEq, Repr

namespace Subcommand

def all : List Subcommand := [file, text, random, completions]

def name : Subcommand → String
  | file => "file"
  | text => "text"
  | random => "random"
  | completions => "completions"

end Subcommand

def helpName : String := "help"

def subcommandNames : List String := Subcommand.all.map Subcommand.name ++ [helpName]

def shells : List String := ["bash", "elvish", "fish", "powershell", "zsh"]

/-- The scope before any subcommand. -/
def mainScope : Scope :=
  { options := commonOptions ++ [versionOption]
    positional := some ⟨"path", isNonempty⟩
    subcommands := subcommandNames }

def Subcommand.scope : Subcommand → Scope
  | file => ⟨commonOptions ++ [valued "path" none isNonempty], none, []⟩
  | text => ⟨commonOptions ++ [valued "input" (some 'i') fun _ => true], none, []⟩
  | random =>
      ⟨commonOptions ++
        [valued "vars" none isCount, valued "clauses" none isCount, valued "width" none isCount,
          valued "seed" none isCount, flag "export-dimacs" (some 'e')], none, []⟩
  | completions => ⟨[helpOption], some ⟨"shell", shells.contains⟩, []⟩

/-! ## What the arguments ask for -/

namespace Reading

def count? (reading : Reading) (name : String) : Option Nat :=
  (reading.value? name).bind fun text => (Text.readCount text.toList).toOption

def choice {Value : Type} (reading : Reading) (name : String) (values : List Value)
    (valueName : Value → String) (default : Value) : Value :=
  ((reading.value? name).bind fun text =>
    (Text.choose values valueName false text).toOption).getD default

def options (reading : Reading) : Options :=
  { verify := reading.has "verify"
    statistics := reading.has "stats"
    printSolution := reading.has "print-solution"
    algorithm := reading.choice "solver" Algorithm.all Algorithm.name .dpll
    settings :=
      { replay := reading.choice "replay" ReplayMode.all ReplayMode.name .full
        learning :=
          { enabled := !reading.has "no-learning", cap := reading.count? "max-learned" }
        preprocessing := !reading.has "no-preprocessing"
        maxDecisions := reading.count? "max-decisions" } }

def shape (reading : Reading) : RandomShape :=
  { numVars := (reading.count? "vars").getD 50
    numClauses := (reading.count? "clauses").getD 213
    width := (reading.count? "width").getD 3 }

def seed (reading : Reading) : UInt64 := UInt64.ofNat ((reading.count? "seed").getD 0)

/-- The command of a subcommand, if the options it requires are given. -/
def command (reading : Reading) : Subcommand → Except Refusal Command
  | .file =>
      match reading.value? "path" with
      | some path => .ok (.path path)
      | none => .error .misuse
  | .text =>
      match reading.value? "input" with
      | some input => .ok (.text input)
      | none => .error .misuse
  | .random => .ok (.random reading.shape reading.seed (reading.has "export-dimacs"))
  | .completions => if reading.has "shell" then .ok .completions else .error .misuse

end Reading

/-- Answer the subcommand `help`, whose arguments name a subcommand at most. -/
def helpFor : List String → Refusal
  | [] => .help
  | [name] => if subcommandNames.contains name then .help else .misuse
  | _ => .misuse

namespace Invocation

/-- What the arguments without a subcommand ask for. Without a path there is only
help to give. -/
def ofMain (reading : Reading) : Except Refusal Invocation :=
  match reading.value? "path" with
  | none => .error .help
  | some path => .ok ⟨reading.has "debug", reading.options, .path path⟩

/-- What a subcommand asks for. The options before it are judged last. -/
def ofSubcommand (main : Reading) (subcommand : Subcommand) (rest : List String) :
    Except Refusal Invocation := do
  let split ← Reading.empty.arguments subcommand.scope rest
  let reading ← split.reading.settle
  let command ← reading.command subcommand
  let settled ← main.settle
  .ok ⟨settled.has "debug" || reading.has "debug", reading.options, command⟩

/-- What a list of arguments asks for. -/
def parse (arguments : List String) : Except Refusal Invocation := do
  let split ← Reading.empty.arguments mainScope arguments
  match split.subcommand with
  | none =>
      let settled ← split.reading.settle
      ofMain settled
  | some (name, rest) =>
      match Subcommand.all.find? fun subcommand => subcommand.name == name with
      | some subcommand => ofSubcommand split.reading subcommand rest
      | none => .error (helpFor rest)

end Invocation

end CnfSolver.CommandLine

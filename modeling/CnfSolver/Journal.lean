import CnfSolver.Basic

/-!
# The journal

What a computation reports about itself while it runs: a sequence of events,
oldest first. Each event has a level, a source and a text.
-/

namespace CnfSolver

inductive Level where
  | error
  | warn
  | info
  | debug
  | trace
  deriving DecidableEq, Repr

namespace Level

/-- The more detailed the level, the larger the number. -/
def detail : Level → Nat
  | error => 1
  | warn => 2
  | info => 3
  | debug => 4
  | trace => 5

def name : Level → String
  | error => "ERROR"
  | warn => "WARN"
  | info => "INFO"
  | debug => "DEBUG"
  | trace => "TRACE"

end Level

/-- The part of the program an event comes from. -/
inductive Source where
  | search
  | propagation
  | learning
  | strengthening
  | enumeration
  | dimacs
  | commandLine
  deriving DecidableEq, Repr

/-- The name of a source in a log line. -/
def Source.name : Source → String
  | search => "simplesat::sat::dpll"
  | propagation => "simplesat::sat::propagation"
  | learning => "simplesat::sat::conflict_analysis"
  | strengthening => "simplesat::sat::preprocessing"
  | enumeration => "simplesat::sat::brute_force"
  | dimacs => "simplesat::sat::dimacs"
  | commandLine => "simplesat::command_line::cli"

inductive Event where
  /-- Propagation assigned a literal. -/
  | propagated (literal : Literal)
  /-- A candidate clause is shorter or longer than the policy admits. -/
  | candidateLength (length : Nat)
  /-- A candidate clause is already stored. -/
  | candidateKnown (literals : List Int)
  /-- A clause was learned, and the search goes back to a decision. -/
  | learned (literals : List Int) (target : Nat)
  /-- A clause has every position assigned and none true. -/
  | falsified (index : Nat)
  /-- The search decided a variable. -/
  | decided (var depth : Nat)
  /-- A decision was dropped on the way back to another one. -/
  | skipped (var target : Nat)
  /-- No decision is left to flip. -/
  | exhausted
  | satisfiable (decisions : Nat)
  | unsatisfiable (decisions : Nat)
  /-- The search stopped without a verdict. -/
  | stopped (limit : Nat)
  /-- The clauses over one set of variables have no model. -/
  | groupRefuted (vars : List Nat)
  /-- Two clauses contradict each other. -/
  | emptyResolvent (first second : Nat)
  | strengthened (removed added groups : Nat)
  | modelFound (tried : Nat)
  | allFail (tried : Nat)
  /-- A header declares another number of clauses than the text holds. -/
  | clauseCount (declared read : Nat)
  | formulaSize (vars clauses literals : Nat)
  | elapsed
  | skippedFile (path : String)
  | verificationFailed
  deriving DecidableEq, Repr

/-- The reason for a search without a verdict. -/
def limitMessage (limit : Nat) : String := s!"decision limit of {limit} reached"

/-- Variables in square brackets, separated by commas. -/
def renderVars (vars : List Nat) : String :=
  "[" ++ String.intercalate ", " (vars.map toString) ++ "]"

namespace Event

def level : Event → Level
  | propagated _ | candidateLength _ | candidateKnown _ | falsified _ | decided _ _
  | skipped _ _ | exhausted => .trace
  | learned _ _ | satisfiable _ | unsatisfiable _ | modelFound _ | allFail _
  | formulaSize _ _ _ | elapsed | skippedFile _ => .debug
  | groupRefuted _ | emptyResolvent _ _ | strengthened _ _ _ => .info
  | stopped _ | clauseCount _ _ => .warn
  | verificationFailed => .error

def source : Event → Source
  | propagated _ => .propagation
  | candidateLength _ | candidateKnown _ | learned _ _ => .learning
  | falsified _ | decided _ _ | skipped _ _ | exhausted | satisfiable _ | unsatisfiable _
  | stopped _ => .search
  | groupRefuted _ | emptyResolvent _ _ | strengthened _ _ _ => .strengthening
  | modelFound _ | allFail _ => .enumeration
  | clauseCount _ _ => .dimacs
  | formulaSize _ _ _ | elapsed | skippedFile _ | verificationFailed => .commandLine

/-- The text of an event. A duration depends on the machine and is written `*`. -/
def message : Event → String
  | propagated literal => "propagate " ++ literal.render
  | candidateLength length => s!"discard candidate of length {length}"
  | candidateKnown literals => "discard duplicate candidate " ++ renderLiterals literals
  | learned literals target =>
      "learned " ++ renderLiterals literals ++ s!", backjump to {target}"
  | falsified index => s!"clause {index} falsified"
  | decided var depth => s!"decide {var} = false at depth {depth}"
  | skipped var target => s!"skip decision on {var} for {target}"
  | exhausted => "search exhausted"
  | satisfiable decisions => s!"satisfiable after {decisions} decisions"
  | unsatisfiable decisions => s!"unsatisfiable after {decisions} decisions"
  | stopped limit => "search stopped: " ++ limitMessage limit
  | groupRefuted vars => "clause group over " ++ renderVars vars ++ " has no model"
  | emptyResolvent first second => s!"clauses {first} and {second} resolve to the empty clause"
  | strengthened removed added groups =>
      s!"strengthening removed {removed} clauses, added {added} resolvents, " ++
        s!"searched {groups} groups"
  | modelFound tried => s!"model found after {tried} assignments"
  | allFail tried => s!"all {tried} assignments fail"
  | clauseCount declared read => s!"header declares {declared} clauses but {read} were read"
  | formulaSize vars clauses literals =>
      s!"Variables: {vars}, clauses: {clauses}, literals: {literals}"
  | elapsed => "Time: *"
  | skippedFile path => "Skipping non-CNF file: " ++ path
  | verificationFailed => "Solution failed verification!"

end Event

/-- Events in the order they happened. -/
abbrev Journal := Array Event

end CnfSolver

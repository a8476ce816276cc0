import CnfSolver.CommandLine.Invocation

/-!
# Reports

The text printed about a formula. Times, rates and memory depend on the machine,
not on the formula, and are written `*`.
-/

namespace CnfSolver.CommandLine

/-- Fill up with blanks on the right. -/
def padRight (width : Nat) (text : String) : String :=
  text ++ String.ofList (List.replicate (width - text.length) ' ')

/-- Fill up with blanks on the left. -/
def padLeft (width : Nat) (text : String) : String :=
  String.ofList (List.replicate (width - text.length) ' ') ++ text

/-- A row of the table of statistics. -/
inductive Row where
  | heading (text : String)
  | count (label : String) (value : Nat)
  /-- A count with its rate. -/
  | rate (label : String) (value : Nat)
  | measured (label : String)
  deriving DecidableEq, Repr

def Row.render : Row → String
  | heading text => text
  | count label value => "|  " ++ padRight 28 label ++ " " ++ padLeft 18 (toString value) ++ "  |"
  | rate label value =>
      "|  " ++ padRight 20 label ++ " " ++ padLeft 12 (toString value) ++ " (*/sec)  |"
  | measured label => "|  " ++ label ++ " *"

/-- The table of statistics. -/
def table (formula : Formula) (statistics : Statistics) : List Row :=
  [.heading "\n=======================[ Problem Statistics ]=========================",
    .measured "Parse time (s)",
    .count "Variables" formula.numVars,
    .count "Clauses (original)" formula.numClauses,
    .count "Literals (original)" formula.numLiterals,
    .count "Clauses removed" statistics.removed,
    .count "Resolvents added" statistics.added,
    .heading "========================[ Search Statistics ]========================",
    .count "Learnt clauses" statistics.learned,
    .rate "Conflicts" statistics.conflicts,
    .rate "Decisions" statistics.decisions,
    .rate "Propagations" statistics.propagations,
    .measured "Memory usage (MiB)",
    .measured "Resident memory (MiB)",
    .measured "CPU time (s)",
    .heading "====================================================================="]

/-- What a run has printed and noted so far. -/
structure Report where
  output : String
  journal : Journal

namespace Report

def empty : Report := ⟨"", #[]⟩

def print (report : Report) (text : String) : Report :=
  { report with output := report.output ++ text }

def line (report : Report) (text : String) : Report := report.print (text ++ "\n")

def lines (report : Report) (texts : List String) : Report := texts.foldl line report

def note (report : Report) (event : Event) : Report :=
  { report with journal := report.journal.push event }

def noteAll (report : Report) (journal : Journal) : Report :=
  { report with journal := report.journal ++ journal }

/-- Check a model against the formula and tell the result. -/
def verify (report : Report) (formula : Formula) (model : Model) : Report :=
  if formula.verify model then report.line "Verified: true"
  else (report.line "Verified: false").note .verificationFailed

/-- Tell a verdict that settles the formula. -/
def settled (report : Report) (options : Options) (formula : Formula) (statistics : Statistics)
    (model? : Option Model) : Report :=
  let verified :=
    match model? with
    | some model => if options.verify then report.verify formula model else report
    | none => report
  let tabled :=
    if options.statistics then verified.lines ((table formula statistics).map Row.render)
    else verified
  match model? with
  | some model =>
      let printed :=
        if options.printSolution then tabled.line ("Solutions: " ++ model.render) else tabled
      printed.line "\nSATISFIABLE"
  | none => tabled.line "\nUNSATISFIABLE"

/-- Solve a formula and tell the verdict. A formula from a file is labelled with
its path. -/
def solve (report : Report) (options : Options) (label : Option String) (formula : Formula) :
    Except Fault Report := do
  let labelled :=
    match label with
    | some path => report.line ("Solving: " ++ path)
    | none => report
  let sized := labelled.note
    (.formulaSize formula.numVars formula.numClauses formula.numLiterals)
  let solver ← Solver.start options.algorithm formula options.settings
  let (ended, verdict) ← solver.solve
  let timed := (sized.noteAll ended.journal).note .elapsed
  match verdict with
  | .stopped limit => .ok (timed.line ("\nUNKNOWN (" ++ limitMessage limit ++ ")"))
  | .unsatisfiable => .ok (timed.settled options formula ended.statistics none)
  | .satisfiable model => .ok (timed.settled options formula ended.statistics (some model))

end Report

end CnfSolver.CommandLine

import CnfSolver.Enumeration
import CnfSolver.Strengthening

/-!
# Solvers

The two ways to decide a formula, and one interface to both.
-/

namespace CnfSolver

/-!
## Strengthening, then search

The branching solver strengthens the clauses of its formula, if the settings ask
for it, and searches what remains. The verdict is kept: asking again gives the
same answer without another search.
-/

structure Branching where
  search : Search
  removed : Nat
  added : Nat
  verdict? : Option Verdict
  deriving DecidableEq, Repr, Inhabited

namespace Branching

def withOrder (formula : Formula) (settings : Settings) (order : BranchOrder) : Branching :=
  ⟨Search.start formula settings order, 0, 0, none⟩

/-- A solver that branches on the most frequent variables first. -/
def start (formula : Formula) (settings : Settings) : Except Fault Branching :=
  match formula.frequencies with
  | .error fault => .error fault
  | .ok frequencies => .ok (withOrder formula settings (.ofFrequencies frequencies))

/-- Assume a literal before the search. -/
def assume (solver : Branching) (literal : Literal) : Branching :=
  { solver with search := solver.search.push literal }

/-- Replace the clauses by the strengthened ones. The result tells whether
strengthening refuted the formula. -/
def strengthen (solver : Branching) : Except Fault (Branching × Bool) :=
  let search := solver.search
  match Strengthening.pass search.numVars search.settings {}
      search.workspace.database.clauses.toList with
  | .error fault => .error fault
  | .ok pass =>
      let journal := search.workspace.journal ++ pass.journal
      let counted : Branching :=
        { solver with
          search := { search with workspace.journal := journal }
          removed := pass.statistics.removed
          added := pass.statistics.added }
      match pass.result with
      | .refuted => .ok (counted, true)
      | .clauses clauses =>
          let database := Database.ofClauses search.numVars clauses
          .ok ({ counted with search.workspace.database := database }, false)

/-- Strengthening as far as the settings ask for it. -/
def prepare (solver : Branching) : Except Fault (Branching × Bool) :=
  if solver.search.settings.preprocessing then solver.strengthen else .ok (solver, false)

def conclude (solver : Branching) : Except Fault (Branching × Verdict) :=
  match solver.search.solve with
  | .error fault => .error fault
  | .ok (ended, verdict) =>
      .ok ({ solver with search := ended, verdict? := some verdict }, verdict)

def solve (solver : Branching) : Except Fault (Branching × Verdict) :=
  match solver.verdict? with
  | some verdict => .ok (solver, verdict)
  | none =>
      match solver.prepare with
      | .error fault => .error fault
      | .ok (prepared, true) =>
          let ended := prepared.search.conclude .unsatisfiable
          .ok ({ prepared with search := ended, verdict? := some .unsatisfiable },
            .unsatisfiable)
      | .ok (prepared, false) => prepared.conclude

def model? (solver : Branching) : Option Model := solver.verdict?.bind Verdict.model?

end Branching

/-! ## Either way to decide -/

inductive Algorithm where
  | dpll
  | bruteForce
  deriving DecidableEq, Repr, Inhabited

namespace Algorithm

def all : List Algorithm := [dpll, bruteForce]

def name : Algorithm → String
  | dpll => "dpll"
  | bruteForce => "brute-force"

end Algorithm

structure Statistics where
  decisions : Nat := 0
  conflicts : Nat := 0
  propagations : Nat := 0
  learned : Nat := 0
  removed : Nat := 0
  added : Nat := 0
  deriving DecidableEq, Repr

/-- A verdict with the model spelled out and the counters of the search. -/
structure Summary where
  satisfiable : Bool
  assignment : List (Nat × Bool)
  decisions : Nat
  conflicts : Nat
  deriving DecidableEq, Repr

inductive Solver where
  | branching (solver : Branching)
  | enumeration (solver : Enumeration)
  deriving DecidableEq, Repr

namespace Solver

def start (algorithm : Algorithm) (formula : Formula) (settings : Settings) :
    Except Fault Solver :=
  match algorithm with
  | .dpll => (Branching.start formula settings).map branching
  | .bruteForce => .ok (enumeration (Enumeration.start formula settings))

def solve : Solver → Except Fault (Solver × Verdict)
  | branching solver => solver.solve.map fun (ended, verdict) => (branching ended, verdict)
  | enumeration solver =>
      let (ended, verdict) := solver.solve
      .ok (enumeration ended, verdict)

/-- The model found by the last call of `solve`. -/
def model? : Solver → Option Model
  | branching solver => solver.model?
  | enumeration solver => solver.model?

def statistics : Solver → Statistics
  | branching solver =>
      { decisions := solver.search.decisions
        conflicts := solver.search.conflicts
        propagations := solver.search.workspace.propagations
        learned := solver.search.workspace.database.learned
        removed := solver.removed
        added := solver.added }
  | enumeration solver => { decisions := solver.tried }

def journal : Solver → Journal
  | branching solver => solver.search.workspace.journal
  | enumeration solver => solver.journal

/-- The summary of a verdict that this solver gave, unless a limit stopped it. -/
def summary (solver : Solver) (verdict : Verdict) : Except Nat Summary :=
  let counters := solver.statistics
  match verdict with
  | .satisfiable model => .ok ⟨true, model.assignment, counters.decisions, counters.conflicts⟩
  | .unsatisfiable => .ok ⟨false, [], counters.decisions, counters.conflicts⟩
  | .stopped limit => .error limit

end Solver

end CnfSolver

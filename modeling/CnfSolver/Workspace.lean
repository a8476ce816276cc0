import CnfSolver.Database
import CnfSolver.Formula
import CnfSolver.Journal

/-!
# The workspace

What propagation and conflict analysis work on: the clause database, the trail,
the number of literals propagated so far, and the journal.
-/

namespace CnfSolver

structure Workspace where
  database : Database
  trail : Trail
  propagations : Nat
  journal : Journal
  deriving DecidableEq, Repr, Inhabited

namespace Workspace

/-- The clauses of a formula, nothing assigned. -/
def ofFormula (formula : Formula) : Workspace :=
  { database := Database.ofClauses formula.numVars (formula.clauses.map Clause.ofList)
    trail := Trail.empty formula.numVars
    propagations := 0
    journal := #[] }

def log (workspace : Workspace) (event : Event) : Workspace :=
  { workspace with journal := workspace.journal.push event }

/-- Put a literal on the trail and enter it in the clauses. -/
def assign (workspace : Workspace) (literal : Literal) : Workspace :=
  { workspace with
    trail := workspace.trail.push literal
    database := workspace.database.assign literal }

/-- Cut the trail back to `length` entries and retract the removed ones, newest
first. -/
def backtrack (workspace : Workspace) (length : Nat) : Workspace :=
  { workspace with
    trail := workspace.trail.truncate length
    database := (workspace.trail.suffixFrom length).foldl
      (fun database literal => database.retract literal.var) workspace.database }

/-- Bring every clause in line with the trail, from scratch. -/
def replay (workspace : Workspace) : Workspace :=
  { workspace with database := workspace.database.replay workspace.trail }

end Workspace

/-!
## Unit propagation

Propagation proceeds in rounds. A round scans all clauses in order and collects
the literals they force. It ends at a falsified clause, and at a literal whose
complement was collected before. Otherwise the collected literals are assigned
and the next round starts, until a round collects nothing.

Each round that assigns something closes a position that was open, so the
number of open positions bounds the number of rounds.
-/

namespace Propagation

/-- What one scan of the clauses finds. -/
inductive Scan where
  /-- The forced literals, each once, in order of the first clause that forces it. -/
  | units (literals : List Int)
  /-- A forced literal whose complement is forced by an earlier clause. -/
  | conflict (signed : Int)
  /-- A clause with every position assigned and none true. -/
  | falsified (index : Nat)
  deriving DecidableEq, Repr

/-- Scan the clauses from `index` on, with the literals collected before. -/
def scan (index : Nat) (collected : List Int) : List Clause → Scan
  | [] => .units collected
  | clause :: rest =>
      if clause.isFalsified then .falsified index
      else
        match clause.unit? with
        | none => scan (index + 1) collected rest
        | some unit =>
            if collected.contains (-unit) then .conflict unit
            else if collected.contains unit then scan (index + 1) collected rest
            else scan (index + 1) (collected ++ [unit]) rest

/-- How propagation ended. -/
inductive Outcome where
  /-- No clause is falsified and none forces a literal. -/
  | settled
  /-- Two clauses force complementary literals; the later one is given. -/
  | conflict (literal : Literal)
  /-- A clause has every position assigned and none true. -/
  | falsified (index : Nat)
  /-- A round assigned literals and closed no position. -/
  | stalled
  deriving DecidableEq, Repr

end Propagation

/-- The number of open positions over all clauses. -/
def Database.openPositions (database : Database) : Nat :=
  database.clauses.toList.foldr (fun clause total => clause.unassigned + total) 0

namespace Workspace

/-- The result of scanning the clauses as they stand. -/
def scan (workspace : Workspace) : Propagation.Scan :=
  Propagation.scan 0 [] workspace.database.clauses.toList

/-- Assign a forced literal. -/
def force (workspace : Workspace) (unit : Int) : Workspace :=
  let literal := Literal.forcedOfSigned unit
  let assigned := (workspace.log (.propagated literal)).assign literal
  { assigned with propagations := assigned.propagations + 1 }

/-- Run rounds until one of them ends the propagation. -/
def propagate (workspace : Workspace) : Workspace × Propagation.Outcome :=
  match workspace.scan with
  | .falsified index => (workspace, .falsified index)
  | .conflict unit => (workspace, .conflict (Literal.forcedOfSigned unit))
  | .units [] => (workspace, .settled)
  | .units forced =>
      let next := forced.foldl force workspace
      if next.database.openPositions < workspace.database.openPositions then next.propagate
      else (next, .stalled)
termination_by workspace.database.openPositions

end Workspace

/-!
## Conflict analysis

When two clauses force complementary literals, the other literals of the
clauses that force either of them cannot all be false. Their disjunction is a
candidate for a learned clause. It is kept if the learning policy admits it,
and then names the decision to go back to.
-/

/-- A candidate clause, its literals in the order they were collected, and the
last trail position among its variables. -/
structure Candidate where
  literals : List Int
  lastPosition : Option Nat
  deriving DecidableEq, Repr

/-- How a node of the search failed. -/
inductive Signal where
  /-- Try the other value of the last open decision. -/
  | abort
  /-- Go back to the decision on this variable and try its other value. -/
  | backjump (target : Nat)
  deriving DecidableEq, Repr

namespace Workspace

/-- The clauses whose only open literal is on `var`. -/
def reasons (workspace : Workspace) (var : Nat) : List Clause :=
  workspace.database.clauses.toList.filter fun clause =>
    clause.unit?.any fun unit => unit.natAbs == var

/-- The assigned variables of the clauses that force a literal on `var`, each
once, in order of appearance. -/
def reasonVars (workspace : Workspace) (var : Nat) : List Nat :=
  (((workspace.reasons var).flatMap Clause.vars).filter workspace.trail.assigns).eraseDups

/-- The clause that excludes the assignments behind a conflict on `var`. -/
def candidate (workspace : Workspace) (var : Nat) : Candidate :=
  let vars := workspace.reasonVars var
  { literals := (vars.filterMap workspace.trail.get?).map fun entry => entry.negated.toSigned
    lastPosition := (vars.filterMap workspace.trail.position?).max? }

/-- Judge the candidate for a conflict on `var`. It is learned if its length is
admitted, no stored clause has the same literals, the cap is not reached and an
open decision lies at or before its last position. -/
def analyse (workspace : Workspace) (policy : LearningPolicy) (var : Nat) :
    Workspace × Signal :=
  if !policy.enabled then (workspace, .abort)
  else
    let candidate := workspace.candidate var
    let clause := Clause.learnedOfList candidate.literals
    if !policy.admitsLength clause.length then
      (workspace.log (.candidateLength clause.length), .abort)
    else if workspace.database.contains clause then
      (workspace.log (.candidateKnown clause.literals), .abort)
    else if policy.isCapped workspace.database.learned then (workspace, .abort)
    else
      match candidate.lastPosition.bind workspace.trail.openDecisionUpTo? with
      | none => (workspace, .abort)
      | some target =>
          let logged := workspace.log (.learned clause.literals target)
          ({ logged with database := logged.database.learn clause logged.trail },
            .backjump target)

end Workspace

end CnfSolver

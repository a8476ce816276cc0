import CnfSolver.Clause
import CnfSolver.Trail

/-!
# The clause database

The clauses of a formula followed by the clauses learned from it, with three
indexes over them: the occurrences of each variable, the literal lists, and the
number of learned clauses. Clauses are only ever appended. Assigning
and retracting a variable goes through the occurrence index and updates the
shadow states of the clauses that mention it.
-/

namespace CnfSolver

/-!
## The occurrence index

For each variable the indices of the clauses that mention it, in increasing
order. Variables outside the table occur nowhere; adding a clause extends the
table to the variables of the clause.
-/

structure Occurrences where
  table : Array (Array Nat)
  deriving DecidableEq, Repr, Inhabited

namespace Occurrences

/-- The index of no clauses over the variables up to `numVars`. -/
def empty (numVars : Nat) : Occurrences := ⟨Array.replicate (numVars + 1) #[]⟩

def of (occurrences : Occurrences) (var : Nat) : Array Nat :=
  (occurrences.table[var]?).getD #[]

/-- Note that the clause at `index` mentions `var`. -/
def note (occurrences : Occurrences) (index var : Nat) : Occurrences :=
  let table := occurrences.table ++ Array.replicate (var + 1 - occurrences.table.size) #[]
  ⟨table.modify var fun indices => indices.push index⟩

/-- Note every variable of a clause once. Positions on one variable lie next to
each other. -/
def add (occurrences : Occurrences) (clause : Clause) (index : Nat) : Occurrences :=
  clause.vars.eraseReps.foldl (fun occurrences var => occurrences.note index var) occurrences

end Occurrences

/-! ## Clauses and their indexes -/

structure Database where
  clauses : Array Clause
  occurrences : Occurrences
  known : List (List Int)
  learned : Nat
  deriving DecidableEq, Repr, Inhabited

namespace Database

def empty (numVars : Nat) : Database := ⟨#[], Occurrences.empty numVars, [], 0⟩

def push (database : Database) (clause : Clause) : Database :=
  { clauses := database.clauses.push clause
    occurrences := database.occurrences.add clause database.clauses.size
    known := clause.literals :: database.known
    learned := if clause.learned then database.learned + 1 else database.learned }

def ofClauses (numVars : Nat) (clauses : List Clause) : Database :=
  clauses.foldl push (empty numVars)

def length (database : Database) : Nat := database.clauses.size

/-- Whether a clause with the same literals is stored. -/
def contains (database : Database) (clause : Clause) : Bool :=
  database.known.contains clause.literals

/-- Apply a change of state to the clauses at the given indices. -/
def update (database : Database) (indices : Array Nat) (change : Clause → Clause) : Database :=
  { database with
    clauses := indices.foldl (fun clauses index => clauses.modify index change) database.clauses }

/-- Enter an assignment in the clauses that mention its variable. -/
def assign (database : Database) (literal : Literal) : Database :=
  database.update (database.occurrences.of literal.var) fun clause => clause.assign literal

/-- Undo the assignment of a variable in the clauses that mention it. -/
def retract (database : Database) (var : Nat) : Database :=
  database.update (database.occurrences.of var) fun clause => clause.retract var

def reset (database : Database) : Database :=
  { database with clauses := database.clauses.map Clause.reset }

/-- Bring every clause in line with a trail, from scratch. -/
def replay (database : Database) (trail : Trail) : Database :=
  trail.toList.foldl assign database.reset

/-- Append a clause, in the state that the trail puts it in. -/
def learn (database : Database) (clause : Clause) (trail : Trail) : Database :=
  let extended := database.push clause
  extended.update #[database.length] fun added => trail.toList.foldl Clause.assign added

def allSatisfied (database : Database) : Bool := database.clauses.all Clause.satisfied

/-- The first clause with every position assigned and none true. -/
def firstFalsified? (database : Database) : Option Nat :=
  database.clauses.findIdx? Clause.isFalsified

/-- The learned clauses, oldest first. -/
def learnedClauses (database : Database) : List Clause :=
  database.clauses.toList.filter Clause.learned

end Database

end CnfSolver

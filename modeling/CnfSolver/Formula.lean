import CnfSolver.Basic

/-!
# Formulas and models

A formula in conjunctive normal form: the number of its variables and its
clauses exactly as they were given. A model is checked against these clauses,
whatever a solver makes of its own copy of them.
-/

namespace CnfSolver

/-!
## Models

A model lists one signed literal for each variable, in order of the variable.
Looking up a variable is a binary search on that order.
-/

structure Model where
  literals : Array Int
  deriving DecidableEq, Repr, Inhabited

namespace Model

/-- The model of the given literals, brought in order. -/
def ofList (literals : List Int) : Model :=
  ⟨(literals.mergeSort fun first second => first.natAbs ≤ second.natAbs).toArray⟩

def toList (model : Model) : List Int := model.literals.toList

def length (model : Model) : Nat := model.literals.size

/-- Whether the literal at `position` is on a variable above `var`. -/
def exceeds (model : Model) (position var : Nat) : Bool :=
  (model.literals[position]?).any fun literal => var < literal.natAbs

/-- Narrow the window of `size` positions from `base` on to the last position
whose variable is at most `var`. -/
def locate (model : Model) (var base size : Nat) : Nat :=
  if size ≤ 1 then base
  else
    let half := size / 2
    if model.exceeds (base + half) var then model.locate var base (size - half)
    else model.locate var (base + half) (size - half)
termination_by size

/-- The value of a variable, if the model lists it. -/
def value? (model : Model) (var : Nat) : Option Bool :=
  match model.literals[model.locate var 0 model.length]? with
  | some literal => if literal.natAbs = var then some (polarity literal) else none
  | none => none

def satisfies (model : Model) (signed : Int) : Bool :=
  model.value? signed.natAbs == some (polarity signed)

def assignment (model : Model) : List (Nat × Bool) :=
  model.toList.map fun literal => (literal.natAbs, polarity literal)

def render (model : Model) : String := String.intercalate " " (model.toList.map toString)

end Model

/-! ## Formulas -/

structure Formula where
  numVars : Nat
  clauses : List (List Int)
  deriving DecidableEq, Repr, Inhabited

/-- The largest variable that a list of clauses mentions. -/
def largestVar (clauses : List (List Int)) : Nat :=
  ((clauses.flatten.map Int.natAbs).max?).getD 0

namespace Formula

/-- The formula of the given clauses over at least `numVars` variables, and at
least the variables that the clauses mention. -/
def ofClauses (numVars : Nat) (clauses : List (List Int)) : Formula :=
  ⟨max numVars (largestVar clauses), clauses⟩

def numClauses (formula : Formula) : Nat := formula.clauses.length

def numLiterals (formula : Formula) : Nat := formula.clauses.flatten.length

/-- Count one more clause for a variable. -/
def countVar (table : Array Nat) (var : Nat) : Except Fault (Array Nat) :=
  if var < table.size then .ok (table.modify var (· + 1)) else .error (.varBeyondTable var)

/-- Count one more clause for each of its variables. -/
def countClause (table : Array Nat) (clause : List Int) : Except Fault (Array Nat) :=
  (clause.map Int.natAbs).eraseDups.foldlM countVar table

/-- The number of clauses that mention each variable, indexed by variable. -/
def frequencies (formula : Formula) : Except Fault (Array Nat) :=
  formula.clauses.foldlM countClause (Array.replicate (formula.numVars + 1) 0)

/-- Whether the model makes a literal of every clause true. -/
def verify (formula : Formula) (model : Model) : Bool :=
  formula.clauses.all fun clause => clause.any model.satisfies

end Formula

end CnfSolver

import CnfSolver.Search

/-!
# Exhaustive enumeration

All assignments of the variables, one after the other. The values of the variables
are the bits of a counter, variable `i` being bit `i - 1`, and the next assignment is
one more. The first one that satisfies every clause gives the model. When the counter
is full, every assignment has been tried. Only practical for a few variables; it is
there to give an independent verdict.
-/

namespace CnfSolver

/-- A binary number of fixed width, its lowest bit first. -/
structure Counter where
  bits : List Bool
  deriving DecidableEq, Repr, Inhabited

namespace Counter

def zero (width : Nat) : Counter := ⟨List.replicate width false⟩

/-- Turn the ones below the lowest zero into zeros and that zero into a one. Without a
zero there is no next number. -/
def incrementBits? : List Bool → Option (List Bool)
  | [] => none
  | false :: rest => some (true :: rest)
  | true :: rest => (incrementBits? rest).map fun next => false :: next

def increment? (counter : Counter) : Option Counter := (incrementBits? counter.bits).map mk

/-- Whether the bit of a literal's variable makes the literal true. Zero and literals on
variables without a bit are false. -/
def satisfies (counter : Counter) (signed : Int) : Bool :=
  match signed.natAbs with
  | 0 => false
  | place + 1 => counter.bits[place]? == some (polarity signed)

/-- The model with the bits as values. -/
def model (counter : Counter) : Model :=
  Model.ofList ((counter.bits.zipIdx 1).map fun (value, var) =>
    if value then (var : Int) else -(var : Int))

/-- The number of increments until the bits are all ones. -/
def distance : List Bool → Nat
  | [] => 0
  | bit :: rest => (if bit then 0 else 1) + 2 * distance rest

theorem distance_of_incrementBits? {bits next : List Bool}
    (incremented : incrementBits? bits = some next) : distance next + 1 = distance bits := by
  induction bits generalizing next with
  | nil => cases incremented
  | cons bit rest ih =>
    cases bit with
    | false =>
      cases incremented
      simp [distance]
      omega
    | true =>
      obtain ⟨later, carried, rfl⟩ := Option.map_eq_some_iff.mp incremented
      have fewer := ih carried
      simp [distance]
      omega

theorem distance_increment? {counter next : Counter}
    (incremented : counter.increment? = some next) :
    distance next.bits < distance counter.bits := by
  obtain ⟨bits, carried, rfl⟩ := Option.map_eq_some_iff.mp incremented
  have fewer := distance_of_incrementBits? carried
  show distance bits < distance counter.bits
  omega

end Counter

namespace Formula

/-- Whether the bits make a literal of every clause true. -/
def satisfiedBy (formula : Formula) (counter : Counter) : Bool :=
  formula.clauses.all fun clause => clause.any counter.satisfies

/-- Try the assignment of the counter and those after it, `tried` others having been
tried. The result also tells how many were tried in all. -/
def enumerate (formula : Formula) (limit : Option Nat) (tried : Nat) (counter : Counter) :
    Nat × Verdict :=
  match limit.filter fun limit => limit ≤ tried with
  | some limit => (tried, .stopped limit)
  | none =>
      if formula.satisfiedBy counter then (tried + 1, .satisfiable counter.model)
      else
        match _incremented : counter.increment? with
        | none => (tried + 1, .unsatisfiable)
        | some next => formula.enumerate limit (tried + 1) next
termination_by Counter.distance counter.bits
decreasing_by exact Counter.distance_increment? _incremented

def enumerateAll (formula : Formula) (limit : Option Nat) : Nat × Verdict :=
  formula.enumerate limit 0 (.zero formula.numVars)

end Formula

/-- A solver that enumerates anew on each call. -/
structure Enumeration where
  formula : Formula
  limit : Option Nat
  tried : Nat
  model? : Option Model
  journal : Journal
  deriving DecidableEq, Repr, Inhabited

namespace Enumeration

def start (formula : Formula) (settings : Settings) : Enumeration :=
  ⟨formula, settings.maxDecisions, 0, none, #[]⟩

def solve (enumeration : Enumeration) : Enumeration × Verdict :=
  let (tried, verdict) := enumeration.formula.enumerateAll enumeration.limit
  let counted := { enumeration with tried := tried }
  let ended :=
    match verdict with
    | .satisfiable model =>
        { counted with
          model? := some model
          journal := counted.journal.push (.modelFound tried) }
    | .unsatisfiable =>
        { counted with model? := none, journal := counted.journal.push (.allFail tried) }
    | .stopped _ => counted
  (ended, verdict)

/-- Whether some assignment satisfies the clauses. -/
def isSatisfiable (numVars : Nat) (clauses : List (List Int)) : Bool :=
  ((start (Formula.ofClauses numVars clauses) {}).solve).2.model?.isSome

end Enumeration

end CnfSolver

/-!
# Literals, faults and settings

What every part of the solver is about. Literals are 32 bits wide, and so are the
numbers that random choices are made from; the states behind those choices are 64
bits wide.
-/

namespace CnfSolver

/-! ## Word sizes -/

/-- The number of 32-bit words. -/
def words32 : Nat := 0x100000000

/-- The number of 64-bit words. -/
def words64 : Nat := 0x10000000000000000

/-!
## Faults

Conditions under which a computation has no answer. None of them can arise from
a formula whose declared variables cover its clauses and a search that starts
with an empty trail, random draws apart; they are kept apart from every verdict.
-/

inductive Fault where
  /-- A variable lies above the last one of a table. -/
  | varBeyondTable (var : Nat)
  /-- A frame points past the end of the trail. -/
  | positionBeyondTrail (position : Nat)
  /-- A round of propagation left every open position open. -/
  | stalled
  /-- The search took more steps than its tree has nodes. -/
  | unfinished
  /-- A random draw is rejected for ever. -/
  | endlessDraw
  deriving DecidableEq, Repr

/-!
## Literals

A clause holds signed literals: an integer whose absolute value is the variable
and whose sign is the polarity, positive for the variable itself. The search
records its assignments as trail literals, which carry in addition where the
assignment came from. Variables are numbered from one; zero is admitted
everywhere and reads as a negative literal of variable zero.
-/

/-- How a trail literal came to be assigned. -/
inductive Origin where
  /-- A decision whose other value is still untried. -/
  | openDecision
  /-- A consequence found by unit propagation. -/
  | forced
  /-- The second value of a decision whose first value was refuted. -/
  | secondBranch
  deriving DecidableEq, Repr, Inhabited

/-- A variable with the value the search gave it. -/
structure Literal where
  var : Nat
  value : Bool
  origin : Origin
  deriving DecidableEq, Repr, Inhabited

/-- The polarity of a signed literal. Zero counts as negative. -/
def polarity (signed : Int) : Bool := decide (0 < signed)

/-- Signed literals in a row, each followed by a blank, closed by a zero. -/
def renderLiterals (literals : List Int) : String :=
  String.join (literals.map fun literal => s!"{literal} ") ++ "0"

namespace Literal

/-- The open decision that gives `var` the value `value`. -/
def decision (var : Nat) (value : Bool) : Literal := ⟨var, value, .openDecision⟩

/-- The assignment of `var` to `value` by propagation. -/
def forced (var : Nat) (value : Bool) : Literal := ⟨var, value, .forced⟩

/-- The assignment of `var` to `value` as the second branch of a decision. -/
def secondBranch (var : Nat) (value : Bool) : Literal := ⟨var, value, .secondBranch⟩

/-- The open decision that makes a signed literal true. -/
def ofSigned (signed : Int) : Literal := decision signed.natAbs (polarity signed)

/-- The propagated assignment that makes a signed literal true. -/
def forcedOfSigned (signed : Int) : Literal := forced signed.natAbs (polarity signed)

def isOpenDecision (literal : Literal) : Bool := literal.origin == .openDecision

def isSecondBranch (literal : Literal) : Bool := literal.origin == .secondBranch

/-- The open decision for the opposite value. -/
def negated (literal : Literal) : Literal := decision literal.var (!literal.value)

/-- The signed form. Signed literals are 32 bits wide, so a variable from half of
`words32` on wraps around. -/
def toSigned (literal : Literal) : Int :=
  let wrapped := Int.bmod literal.var words32
  if literal.value then wrapped else -wrapped

/-- Whether this assignment makes a signed literal true. -/
def satisfies (literal : Literal) (signed : Int) : Bool :=
  signed.natAbs == literal.var && polarity signed == literal.value

/-- Whether two literals assign the same variable the same value, whatever
their origins. -/
def agrees (first second : Literal) : Bool :=
  first.var == second.var && first.value == second.value

def render (literal : Literal) : String := toString literal.toSigned

end Literal

/-!
## Settings

How clause states follow the trail, which clauses the search may learn, and
where it stops.
-/

/-- How clause states are brought in line with the trail. -/
inductive ReplayMode where
  /-- Reset every clause at each node and assign the whole trail again. -/
  | full
  /-- Assign on every push and retract on every truncation. -/
  | incremental
  deriving DecidableEq, Repr, Inhabited

namespace ReplayMode

def all : List ReplayMode := [full, incremental]

def name : ReplayMode → String
  | full => "full"
  | incremental => "incremental"

end ReplayMode

/-- Which clauses may be learned: none at all if learning is off, else those
with an admitted length, as long as fewer than `cap` clauses were learned. -/
structure LearningPolicy where
  enabled : Bool := true
  minLength : Nat := 3
  maxLength : Nat := 9
  cap : Option Nat := none
  deriving DecidableEq, Repr, Inhabited

namespace LearningPolicy

def admitsLength (policy : LearningPolicy) (length : Nat) : Bool :=
  policy.minLength ≤ length && length ≤ policy.maxLength

/-- Whether `learned` clauses reach the cap. -/
def isCapped (policy : LearningPolicy) (learned : Nat) : Bool :=
  policy.cap.any fun cap => cap ≤ learned

end LearningPolicy

structure Settings where
  replay : ReplayMode := .full
  learning : LearningPolicy := {}
  preprocessing : Bool := true
  maxDecisions : Option Nat := none
  deriving DecidableEq, Repr, Inhabited

end CnfSolver

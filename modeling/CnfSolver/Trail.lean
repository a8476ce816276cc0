import CnfSolver.Basic

/-!
# The trail

The assignments of the current search path, oldest first, with a table from
each variable to its position. A variable is on the trail at most once: pushing
it again changes nothing but the extent of the table.
-/

namespace CnfSolver

structure Trail where
  entries : Array Literal
  positions : Array (Option Nat)
  deriving DecidableEq, Repr, Inhabited

namespace Trail

/-- The empty trail, with room in the table for the variables up to `numVars`. -/
def empty (numVars : Nat) : Trail := ⟨#[], Array.replicate (numVars + 1) none⟩

def length (trail : Trail) : Nat := trail.entries.size

def toList (trail : Trail) : List Literal := trail.entries.toList

def position? (trail : Trail) (var : Nat) : Option Nat := trail.positions[var]?.join

def get? (trail : Trail) (var : Nat) : Option Literal :=
  (trail.position? var).bind fun position => trail.entries[position]?

def value? (trail : Trail) (var : Nat) : Option Bool := (trail.get? var).map Literal.value

def assigns (trail : Trail) (var : Nat) : Bool := (trail.position? var).isSome

/-- Whether the trail gives the literal's variable the literal's value. -/
def contains (trail : Trail) (literal : Literal) : Bool :=
  (trail.get? literal.var).any fun entry => entry.agrees literal

/-- A position table that reaches `var`. -/
def reach (positions : Array (Option Nat)) (var : Nat) : Array (Option Nat) :=
  positions ++ Array.replicate (var + 1 - positions.size) none

/-- Append an assignment, unless its variable has one. -/
def push (trail : Trail) (literal : Literal) : Trail :=
  let positions := reach trail.positions literal.var
  if trail.assigns literal.var then { trail with positions := positions }
  else
    { entries := trail.entries.push literal
      positions := positions.setIfInBounds literal.var (some trail.length) }

/-- The entries from position `length` on, newest first. -/
def suffixFrom (trail : Trail) (length : Nat) : List Literal :=
  (trail.toList.drop length).reverse

def truncate (trail : Trail) (length : Nat) : Trail :=
  { entries := trail.entries.take length
    positions := (trail.suffixFrom length).foldl
      (fun positions literal => positions.setIfInBounds literal.var none) trail.positions }

/-- Cut the trail back to `length` entries, one after the other from the newest. Each of
them loses its place in the table and is handed to `onRemove`. -/
def truncateWith {State : Type} (onRemove : State → Literal → State) (length : Nat)
    (trail : Trail) (state : State) : Except Fault (Trail × State) :=
  if trail.entries.size ≤ length then .ok (trail, state)
  else
    match trail.entries.back? with
    | none => .ok (trail, state)
    | some newest =>
        if newest.var < trail.positions.size then
          truncateWith onRemove length
            { entries := trail.entries.pop
              positions := trail.positions.setIfInBounds newest.var none }
            (onRemove state newest)
        else .error (.varBeyondTable newest.var)
termination_by trail.entries.size
decreasing_by
  simp only [Array.size_pop]
  omega

/-- The variable of the last open decision at or before position `last`. -/
def openDecisionUpTo? (trail : Trail) (last : Nat) : Option Nat :=
  ((trail.toList.take (last + 1)).reverse.find? Literal.isOpenDecision).map Literal.var

/-- Same assignments in the same order and equal position tables; origins are
not compared. -/
def agrees (first second : Trail) : Bool :=
  first.entries.isEqv second.entries Literal.agrees && first.positions == second.positions

@[simp]
theorem toList_empty (numVars : Nat) : (empty numVars).toList = [] := rfl

theorem toList_push_of_assigns (trail : Trail) (literal : Literal)
    (assigned : trail.assigns literal.var = true) :
    (trail.push literal).toList = trail.toList := by
  simp [push, toList, assigned]

theorem toList_push_of_not_assigns (trail : Trail) (literal : Literal)
    (fresh : trail.assigns literal.var = false) :
    (trail.push literal).toList = trail.toList ++ [literal] := by
  simp [push, toList, fresh]

@[simp]
theorem toList_truncate (trail : Trail) (length : Nat) :
    (trail.truncate length).toList = trail.toList.take length := by
  simp [truncate, toList]

end Trail

end CnfSolver

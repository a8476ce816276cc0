import CnfSolver.Basic

/-!
# Clauses

A clause keeps its literals in one canonical order, without repeats, together
with a shadow of the current assignment: the value each position was given, how
many positions are still open, and whether some position is true. Assigning and
retracting a variable only touches the positions on that variable, which lie
next to each other.
-/

namespace CnfSolver

/-- The canonical order on signed literals: by variable, the negative literal
of a variable first. -/
def precedes (first second : Int) : Bool :=
  first.natAbs < second.natAbs || (first.natAbs == second.natAbs && first < second)

/-- Insert a literal into a list in canonical order, unless it is there. -/
def insertLiteral (literal : Int) : List Int → List Int
  | [] => [literal]
  | head :: tail =>
      if literal = head then head :: tail
      else if precedes literal head then literal :: head :: tail
      else head :: insertLiteral literal tail

/-- The canonical form of a list of literals: in order and without repeats. -/
def normalise (literals : List Int) : List Int := literals.foldr insertLiteral []

theorem mem_insertLiteral {literal other : Int} {literals : List Int} :
    other ∈ insertLiteral literal literals ↔ other = literal ∨ other ∈ literals := by
  induction literals with
  | nil => simp [insertLiteral]
  | cons head tail ih =>
    unfold insertLiteral
    split
    next same => simp [same]
    next different =>
      split
      next before => simp
      next behind =>
        simp only [List.mem_cons, ih]
        grind

/-- Normalising neither adds nor loses a literal. -/
@[simp]
theorem mem_normalise {literal : Int} {literals : List Int} :
    literal ∈ normalise literals ↔ literal ∈ literals := by
  induction literals with
  | nil => simp [normalise]
  | cons head tail ih =>
    have unfolded : normalise (head :: tail) = insertLiteral head (normalise tail) := rfl
    rw [unfolded, mem_insertLiteral, ih, List.mem_cons]

/-- A position of a clause: its literal and the value given to the variable,
if any. -/
structure Slot where
  literal : Int
  value : Option Bool
  deriving DecidableEq, Repr, Inhabited

namespace Slot

def unset (literal : Int) : Slot := ⟨literal, none⟩

def var (slot : Slot) : Nat := slot.literal.natAbs

def isOpen (slot : Slot) : Bool := slot.value.isNone

/-- Whether the position was given the value that makes its literal true. -/
def isTrue (slot : Slot) : Bool := slot.value == some (polarity slot.literal)

/-- Give an open position a value. The first value stays. -/
def fill (slot : Slot) (value : Bool) : Slot :=
  match slot.value with
  | none => ⟨slot.literal, some value⟩
  | some _ => slot

def clear (slot : Slot) : Slot := unset slot.literal

@[simp]
theorem literal_fill (slot : Slot) (value : Bool) : (slot.fill value).literal = slot.literal := by
  unfold fill
  split <;> rfl

@[simp]
theorem literal_clear (slot : Slot) : slot.clear.literal = slot.literal := rfl

end Slot

/-- A disjunction of literals with the shadow of the current assignment. -/
structure Clause where
  slots : List Slot
  satisfied : Bool
  unassigned : Nat
  learned : Bool
  deriving DecidableEq, Repr, Inhabited

namespace Clause

/-- The unassigned clause with the given literals, brought to canonical form. -/
def ofList (literals : List Int) : Clause :=
  let slots := (normalise literals).map Slot.unset
  ⟨slots, false, slots.length, false⟩

/-- The same clause, marked as found by the search. -/
def learnedOfList (literals : List Int) : Clause :=
  { ofList literals with learned := true }

def literals (clause : Clause) : List Int := clause.slots.map Slot.literal

/-- The variable of each position. A clause with both literals of a variable
lists it twice. -/
def vars (clause : Clause) : List Nat := clause.slots.map Slot.var

def length (clause : Clause) : Nat := clause.slots.length

def isEmpty (clause : Clause) : Bool := clause.slots.isEmpty

/-- Every position is assigned and none is true. -/
def isFalsified (clause : Clause) : Bool := clause.unassigned == 0 && !clause.satisfied

/-- The only open literal of a clause that is not satisfied. -/
def unit? (clause : Clause) : Option Int :=
  if clause.satisfied || clause.unassigned != 1 then none
  else (clause.slots.find? Slot.isOpen).map Slot.literal

/-- The positions before, on and after a variable. -/
structure Cut where
  before : List Slot
  own : List Slot
  after : List Slot
  deriving DecidableEq, Repr

/-- Cut a clause around the positions on `var`. Positions are in order of their
variable, so two scans find them. -/
def cut (clause : Clause) (var : Nat) : Cut :=
  let rest := clause.slots.dropWhile fun slot => slot.var < var
  { before := clause.slots.takeWhile fun slot => slot.var < var
    own := rest.takeWhile fun slot => slot.var == var
    after := rest.dropWhile fun slot => slot.var == var }

def mentions (clause : Clause) (var : Nat) : Bool := !(clause.cut var).own.isEmpty

/-- Enter an assignment at the open positions on its variable. -/
def assign (clause : Clause) (literal : Literal) : Clause :=
  let cut := clause.cut literal.var
  let fresh := cut.own.filter Slot.isOpen
  { clause with
    slots := cut.before ++ cut.own.map (fun slot => slot.fill literal.value) ++ cut.after
    unassigned := clause.unassigned - fresh.length
    satisfied := clause.satisfied ||
      fresh.any fun slot => polarity slot.literal == literal.value }

/-- Open the positions on `var` again. -/
def retract (clause : Clause) (var : Nat) : Clause :=
  let cut := clause.cut var
  if cut.own.isEmpty then clause
  else
    let slots := cut.before ++ cut.own.map Slot.clear ++ cut.after
    { clause with
      slots := slots
      unassigned := clause.unassigned + (cut.own.filter fun slot => !slot.isOpen).length
      satisfied := slots.any Slot.isTrue }

def reset (clause : Clause) : Clause :=
  { clause with
    slots := clause.slots.map Slot.clear
    satisfied := false
    unassigned := clause.slots.length }

/-- Clauses are compared by their literals alone. -/
def sameLiterals (first second : Clause) : Bool := first.literals == second.literals

def render (clause : Clause) : String := renderLiterals clause.literals

/-! ## The literals of a clause never change -/

@[simp]
theorem literals_ofList (literals : List Int) :
    (ofList literals).literals = normalise literals := by
  simp [Clause.literals, ofList, Function.comp_def, Slot.unset]

theorem cut_append (clause : Clause) (var : Nat) :
    (clause.cut var).before ++ (clause.cut var).own ++ (clause.cut var).after = clause.slots := by
  simp only [cut, List.append_assoc, List.takeWhile_append_dropWhile]

@[simp]
theorem literals_assign (clause : Clause) (literal : Literal) :
    (clause.assign literal).literals = clause.literals := by
  simp only [Clause.literals, assign, List.map_append, List.map_map]
  rw [← clause.cut_append literal.var]
  simp [Function.comp_def]

@[simp]
theorem literals_retract (clause : Clause) (var : Nat) :
    (clause.retract var).literals = clause.literals := by
  unfold retract
  dsimp only
  split
  next absent => rfl
  next present =>
    simp only [Clause.literals, List.map_append, List.map_map]
    rw [← clause.cut_append var]
    simp [Function.comp_def]

@[simp]
theorem literals_reset (clause : Clause) : clause.reset.literals = clause.literals := by
  simp [Clause.literals, reset, Function.comp_def]

end Clause

end CnfSolver

import CnfSolver.Proofs.ShadowState

/-!
# A clause state is a function of the partial assignment

A clause is told of every value that is given, withdrawn, or forgotten with all others,
and keeps its state up to date. However these operations follow each other, the state is
what the partial assignment behind them makes of the literals: the first value given to a
variable stays until it is withdrawn, and nothing of a withdrawn value is left. The count
of open positions is never taken below zero.
-/

namespace CnfSolver

/-- An operation on the state of a clause. -/
inductive Clause.Operation where
  | assign (literal : Literal)
  | retract (var : Nat)
  | reset
  deriving DecidableEq, Repr

namespace Valuation

/-- What an operation does to the partial assignment behind the state. -/
def apply (values : Valuation) : Clause.Operation → Valuation
  | .assign literal => values.extend literal
  | .retract var => values.forget var
  | .reset => .blank

/-- The partial assignment that operations lead to from nothing. -/
def after (operations : List Clause.Operation) : Valuation := operations.foldl apply .blank

end Valuation

namespace Clause

def apply (clause : Clause) : Operation → Clause
  | .assign literal => clause.assign literal
  | .retract var => clause.retract var
  | .reset => clause.reset

def applyAll (clause : Clause) (operations : List Operation) : Clause :=
  operations.foldl apply clause

/-- The state of the clause is what a partial assignment makes of the literals, and
assigning one more variable takes no more off the count of open positions than it holds. -/
structure Shows (values : Valuation) (literals : List Int) (clause : Clause) : Prop where
  literals_eq : clause.literals = literals
  value_eq : ∀ slot ∈ clause.slots, slot.value = values slot.var
  unassigned : clause.unassigned =
    literals.countP fun literal => (values literal.natAbs).isNone
  satisfied : clause.satisfied = true ↔
    ∃ literal ∈ literals, values literal.natAbs = some (polarity literal)
  falsified : clause.isFalsified = true ↔
    (∀ literal ∈ literals, values literal.natAbs ≠ none) ∧
      ∀ literal ∈ literals, values literal.natAbs ≠ some (polarity literal)
  unit : ∀ unit, clause.unit? = some unit ↔
    (∀ literal ∈ literals, values literal.natAbs ≠ some (polarity literal)) ∧
      unit ∈ literals ∧ values unit.natAbs = none ∧
        ∀ literal ∈ literals, values literal.natAbs = none → literal = unit
  counted : ∀ var, (clause.cut var).own.countP Slot.isOpen ≤ clause.unassigned

/-! ## One operation, and a run of them -/

theorem apply_under {clause : Clause} (ordered : clause.Ordered) (values : Valuation)
    (operation : Operation) :
    (clause.under values).apply operation = clause.under (values.apply operation) := by
  cases operation with
  | assign literal => exact assign_under ordered values literal
  | retract var => exact retract_under ordered values var
  | reset => exact (reset_eq_under _).trans (under_under clause values .blank)

theorem applyAll_under {clause : Clause} (ordered : clause.Ordered) (values : Valuation)
    (operations : List Operation) :
    (clause.under values).applyAll operations =
      clause.under (operations.foldl Valuation.apply values) := by
  induction operations generalizing values with
  | nil => rfl
  | cons operation rest ih =>
    calc
      _ = ((clause.under values).apply operation).applyAll rest := rfl
      _ = (clause.under (values.apply operation)).applyAll rest := by
        rw [apply_under ordered]
      _ = _ := ih (values.apply operation)

theorem Fresh.applyAll_eq {clause : Clause} (fresh : clause.Fresh) (operations : List Operation) :
    clause.applyAll operations = clause.under (.after operations) := by
  have run := applyAll_under fresh.ordered .blank operations
  rwa [fresh.blank] at run

/-! ## Reading the state -/

/-- A literal is false if its variable has a value and the value does not make it true. -/
theorem forall_eq_some_not_iff {values : Valuation} {literals : List Int} :
    (∀ literal ∈ literals, values literal.natAbs = some (!polarity literal)) ↔
      (∀ literal ∈ literals, values literal.natAbs ≠ none) ∧
        ∀ literal ∈ literals, values literal.natAbs ≠ some (polarity literal) := by
  constructor
  · intro allFalse
    exact ⟨fun literal member => by simp [allFalse literal member],
      fun literal member => by simp [allFalse literal member]⟩
  · rintro ⟨assigned, differs⟩ literal member
    exact eq_some_not_of_ne (assigned literal member) (differs literal member)

theorem Canonical.unit?_under_eq_some_iff {clause : Clause} (canonical : clause.Canonical)
    {values : Valuation} {unit : Int} :
    (clause.under values).unit? = some unit ↔
      (∀ literal ∈ clause.literals, values literal.natAbs ≠ some (polarity literal)) ∧
        unit ∈ clause.literals ∧ values unit.natAbs = none ∧
          ∀ literal ∈ clause.literals, values literal.natAbs = none → literal = unit := by
  constructor
  · intro found
    obtain ⟨member, isOpen, othersFalse⟩ := Clause.unit?_under found
    refine ⟨?_, member, isOpen, ?_⟩
    · intro literal literalMember isTrue
      by_cases same : literal = unit
      · rw [same, isOpen] at isTrue
        cases isTrue
      · rw [othersFalse literal literalMember same] at isTrue
        simp at isTrue
    · intro literal literalMember literalOpen
      by_contra different
      rw [othersFalse literal literalMember different] at literalOpen
      cases literalOpen
  · rintro ⟨unsatisfied, member, isOpen, onlyOpen⟩
    refine canonical.unit?_under member isOpen ?_
    intro literal literalMember different
    have closed : values literal.natAbs ≠ none := fun literalOpen =>
      different (onlyOpen literal literalMember literalOpen)
    exact eq_some_not_of_ne closed (unsatisfied literal literalMember)

/-- The positions on one variable are among the open ones that the count holds. -/
theorem countP_own_le (clause : Clause) (values : Valuation) (var : Nat) :
    ((clause.under values).cut var).own.countP Slot.isOpen ≤ (clause.under values).unassigned := by
  have within : ((clause.under values).cut var).own.Sublist (clause.under values).slots :=
    (List.takeWhile_sublist _).trans (List.dropWhile_sublist _)
  exact within.countP_le

theorem Canonical.shows_under {clause : Clause} (canonical : clause.Canonical)
    (values : Valuation) : (clause.under values).Shows values clause.literals where
  literals_eq := literals_under clause values
  value_eq := by
    intro slot member
    obtain ⟨source, _, rfl⟩ := List.mem_map.mp member
    rfl
  unassigned := unassigned_under clause values
  satisfied := satisfied_under
  falsified := isFalsified_under.trans forall_eq_some_not_iff
  unit := fun _ => canonical.unit?_under_eq_some_iff
  counted := countP_own_le clause values

/-- After any operations a new clause has its literals as they were, and its state is what
the partial assignment makes of them. -/
theorem state_of_partial_assignment (literals : List Int) (operations : List Operation) :
    ((ofList literals).applyAll operations).Shows (.after operations)
      (ofList literals).literals := by
  rw [(fresh_ofList literals).applyAll_eq]
  exact (canonical_ofList literals).shows_under (.after operations)

/-- The first value stays, both signs of a variable are filled and opened together, and a
withdrawn value does not come back with another one. -/
example :
    ((ofList [2, 1, -1, -3]).applyAll [.assign (.decision 1 false), .assign (.forced 1 true),
      .assign (.decision 2 false), .retract 1, .assign (.secondBranch 3 true)]).unassigned = 2 := by
  decide

end Clause

end CnfSolver

import CnfSolver.Proofs.DatabaseIndexes
import Mathlib.Algebra.Order.BigOperators.Group.List
import Mathlib.Algebra.Order.Ring.Nat
import Mathlib.Data.Finset.Card

/-!
# The rounds of a propagation

A literal is forced by a clause with an open position on its variable, and assigning it
closes every position on that variable, in whatever clause, since the occurrences reach
all of them. So a round leaves as many variables fewer with an open position as it forces
literals. None of this looks at the trail or at the values at the closed positions:
propagation ends within a bound that the open positions give, however far the clauses
are out of step with the trail.
-/

namespace CnfSolver

theorem Slot.isOpen_fill (slot : Slot) (value : Bool) : (slot.fill value).isOpen = false := by
  unfold fill
  split
  next isOpen => rfl
  next found => simp [isOpen, found]

namespace Clause

/-- The variable of each open position. -/
def openVars (clause : Clause) : List Nat := (clause.slots.filter Slot.isOpen).map Slot.var

theorem mem_openVars {clause : Clause} {var : Nat} :
    var ∈ clause.openVars ↔ ∃ slot ∈ clause.slots, slot.isOpen = true ∧ slot.var = var := by
  simp [openVars, and_assoc]

theorem Ordered.mem_openVars_assign {clause : Clause} (ordered : clause.Ordered)
    {literal : Literal} {var : Nat} :
    var ∈ (clause.assign literal).openVars ↔ var ∈ clause.openVars ∧ var ≠ literal.var := by
  rw [mem_openVars, mem_openVars, ordered.assign_eq]
  constructor
  · rintro ⟨filled, member, isOpen, rfl⟩
    obtain ⟨slot, slotMember, rfl⟩ := List.mem_map.mp member
    split at isOpen
    next same =>
      rw [slot.isOpen_fill] at isOpen
      cases isOpen
    next different =>
      rw [if_neg different]
      exact ⟨⟨slot, slotMember, isOpen, rfl⟩, different⟩
  · rintro ⟨⟨slot, member, isOpen, rfl⟩, different⟩
    exact ⟨slot, List.mem_map.mpr ⟨slot, member, if_neg different⟩, isOpen, rfl⟩

theorem mem_openVars_of_unit? {clause : Clause} {unit : Int} (found : clause.unit? = some unit) :
    unit.natAbs ∈ clause.openVars := by
  obtain ⟨_, _, slot, member, isOpen, rfl⟩ := exists_open_of_unit? found
  exact mem_openVars.mpr ⟨slot, member, isOpen, rfl⟩

theorem unassigned_assign_le {clause : Clause} (literal : Literal) :
    (clause.assign literal).unassigned ≤ clause.unassigned :=
  Nat.sub_le _ _

/-- Forcing the literal of a clause takes its last open position off the count. -/
theorem Ordered.unassigned_assign_lt {clause : Clause} (ordered : clause.Ordered) {unit : Int}
    (found : clause.unit? = some unit) :
    (clause.assign (.forcedOfSigned unit)).unassigned < clause.unassigned := by
  obtain ⟨_, single, slot, member, isOpen, rfl⟩ := exists_open_of_unit? found
  rw [ordered.assign_eq]
  apply Nat.sub_lt (by omega)
  apply List.countP_pos_iff.mpr
  exact ⟨slot, member, by simp [isOpen, Literal.forcedOfSigned, Literal.forced, Slot.var]⟩

end Clause

namespace Database

/-- The variables with an open position in some clause. -/
def openVars (database : Database) : Finset Nat :=
  (database.clauses.toList.flatMap Clause.openVars).toFinset

theorem mem_openVars {database : Database} {var : Nat} :
    var ∈ database.openVars ↔ ∃ clause ∈ database.clauses, var ∈ clause.openVars := by
  simp [openVars]

theorem openPositions_eq_sum (database : Database) :
    database.openPositions = (database.clauses.toList.map Clause.unassigned).sum := by
  simp [openPositions, List.sum, List.foldr_map]

/-! ## Assigning one literal -/

section Assign

variable {database : Database} (wellFormed : database.WellFormed)
include wellFormed

theorem WellFormed.assign (literal : Literal) : (database.assign literal).WellFormed :=
  wellFormed.of_bare (bare_assign database literal)

/-- Assigning a literal closes its variable in every clause, and closes no other. -/
theorem WellFormed.openVars_assign (literal : Literal) :
    (database.assign literal).openVars = database.openVars.erase literal.var := by
  ext var
  rw [wellFormed.assign_eq_map, Finset.mem_erase, mem_openVars, mem_openVars]
  constructor
  · rintro ⟨assigned, member, isOpen⟩
    obtain ⟨clause, clauseMember, rfl⟩ := Array.mem_map.mp member
    have kept := (wellFormed.ordered clause clauseMember).mem_openVars_assign.mp isOpen
    exact ⟨kept.2, clause, clauseMember, kept.1⟩
  · rintro ⟨different, clause, member, isOpen⟩
    exact ⟨_, Array.mem_map_of_mem member,
      (wellFormed.ordered clause member).mem_openVars_assign.mpr ⟨isOpen, different⟩⟩

theorem WellFormed.openPositions_assign_le (literal : Literal) :
    (database.assign literal).openPositions ≤ database.openPositions := by
  rw [wellFormed.assign_eq_map, openPositions_eq_sum, openPositions_eq_sum, Array.toList_map,
    List.map_map]
  exact List.sum_le_sum fun clause _ => Clause.unassigned_assign_le literal

theorem WellFormed.openPositions_assign_lt {clause : Clause} (member : clause ∈ database.clauses)
    {unit : Int} (found : clause.unit? = some unit) :
    (database.assign (.forcedOfSigned unit)).openPositions < database.openPositions := by
  rw [wellFormed.assign_eq_map, openPositions_eq_sum, openPositions_eq_sum, Array.toList_map,
    List.map_map]
  apply List.sum_lt_sum
  · exact fun other _ => Clause.unassigned_assign_le _
  · exact ⟨clause, Array.mem_toList_iff.mpr member,
      (wellFormed.ordered clause member).unassigned_assign_lt found⟩

end Assign

/-! ## Databases that operations lead to -/

/-- The database is new, over canonical clauses in whatever states, or an operation leads to
it from such a one. -/
inductive Reachable : Database → Prop where
  /-- Without clauses, and without room for a variable. -/
  | empty : Reachable ⟨#[], ⟨#[]⟩, [], 0⟩
  | ofClauses (numVars : Nat) {clauses : List Clause} :
      (∀ clause ∈ clauses, clause.Canonical) → Reachable (ofClauses numVars clauses)
  | apply {database : Database} (operation : Operation) :
      Reachable database → Reachable (database.apply operation)

theorem WellFormed.apply {database : Database} (wellFormed : database.WellFormed)
    (operation : Operation) : (database.apply operation).WellFormed := by
  cases operation with
  | learn clause canonical trail =>
    exact (wellFormed.push canonical.ordered).of_bare (bare_learn database clause trail)
  | assign literal => exact wellFormed.assign literal
  | retract var => exact wellFormed.of_bare (bare_retract database var)
  | reset => exact wellFormed.of_bare database.bare_reset
  | replay trail => exact wellFormed.of_bare (bare_replay database trail)

theorem Reachable.wellFormed {database : Database} (reachable : database.Reachable) :
    database.WellFormed := by
  induction reachable with
  | empty => exact ⟨by simp, fun var => by simp [Occurrences.of, mentioning, length]⟩
  | ofClauses numVars canonical =>
    exact wellFormed_ofClauses numVars fun clause member => (canonical clause member).ordered
  | apply operation _ ih => exact ih.apply operation

end Database

namespace Workspace

variable {workspace : Workspace}

/-! ## One round -/

section Round

variable (wellFormed : workspace.database.WellFormed)
include wellFormed

theorem wellFormed_force (unit : Int) : (workspace.force unit).database.WellFormed :=
  wellFormed.assign (.forcedOfSigned unit)

theorem wellFormed_foldl_force (units : List Int) :
    (units.foldl force workspace).database.WellFormed :=
  List.foldlRecOn (motive := fun result : Workspace => result.database.WellFormed) _ _ wellFormed
    fun _ wellFormed unit _ => wellFormed_force wellFormed unit

theorem openVars_foldl_force (units : List Int) :
    (units.foldl force workspace).database.openVars =
      workspace.database.openVars \ (units.map Int.natAbs).toFinset := by
  induction units generalizing workspace with
  | nil => simp
  | cons head tail ih =>
    have closed : (workspace.force head).database.openVars =
        workspace.database.openVars.erase head.natAbs :=
      wellFormed.openVars_assign (.forcedOfSigned head)
    rw [List.foldl_cons, ih (wellFormed_force wellFormed head), closed, List.map_cons,
      List.toFinset_cons, Finset.sdiff_insert, Finset.erase_sdiff_comm]

theorem openPositions_foldl_force_le (units : List Int) :
    (units.foldl force workspace).database.openPositions ≤ workspace.database.openPositions := by
  induction units generalizing workspace with
  | nil => exact Nat.le_refl _
  | cons head tail ih =>
    exact (ih (wellFormed_force wellFormed head)).trans
      (wellFormed.openPositions_assign_le (.forcedOfSigned head))

/-- A round leaves as many variables fewer open as it forces literals. -/
theorem card_openVars_round {units : List Int} (scanned : workspace.scan = .units units) :
    (units.foldl force workspace).database.openVars.card + units.length =
      workspace.database.openVars.card := by
  obtain ⟨_, _, distinct⟩ := found_of_scan scanned
  have vars : ((units.map Int.natAbs).toFinset).card = units.length := by
    rw [List.toFinset_card_of_nodup, List.length_map]
    exact List.pairwise_map.mpr (distinct .nil)
  have isOpen : (units.map Int.natAbs).toFinset ⊆ workspace.database.openVars := by
    intro var member
    obtain ⟨unit, isUnit, rfl⟩ := List.mem_map.mp (List.mem_toFinset.mp member)
    obtain ⟨clause, isClause, found⟩ := exists_clause_of_units scanned isUnit
    exact Database.mem_openVars.mpr ⟨clause, isClause, Clause.mem_openVars_of_unit? found⟩
  rw [openVars_foldl_force wellFormed, ← vars]
  exact Finset.card_sdiff_add_card_eq_card isOpen

/-- A round that forces a literal closes a position. -/
theorem openPositions_round {head : Int} {tail : List Int}
    (scanned : workspace.scan = .units (head :: tail)) :
    ((head :: tail).foldl force workspace).database.openPositions <
      workspace.database.openPositions := by
  obtain ⟨clause, isClause, found⟩ := exists_clause_of_units scanned List.mem_cons_self
  have rest := openPositions_foldl_force_le (wellFormed_force wellFormed head) tail
  exact rest.trans_lt (wellFormed.openPositions_assign_lt isClause found)

end Round

/-! ## All rounds -/

/-- Scanning and forcing in turns, with nothing that would stop it early, ends with the
given round and in the given result. -/
inductive EndsAfter : Nat → Workspace → Workspace × Propagation.Outcome → Prop where
  | falsified {workspace : Workspace} {index : Nat} :
      workspace.scan = .falsified index → EndsAfter 1 workspace (workspace, .falsified index)
  | conflict {workspace : Workspace} {unit : Int} :
      workspace.scan = .conflict unit →
      EndsAfter 1 workspace (workspace, .conflict (.forcedOfSigned unit))
  | settled {workspace : Workspace} :
      workspace.scan = .units [] → EndsAfter 1 workspace (workspace, .settled)
  | next {workspace : Workspace} {head : Int} {tail : List Int} {rounds : Nat}
      {result : Workspace × Propagation.Outcome} :
      workspace.scan = .units (head :: tail) →
      EndsAfter rounds ((head :: tail).foldl force workspace) result →
      EndsAfter (rounds + 1) workspace result

namespace EndsAfter

variable {rounds : Nat} {result : Workspace × Propagation.Outcome}

/-- Each scan leaves one way to go on, so the rounds and the result are determined. -/
theorem unique (ends : EndsAfter rounds workspace result) {otherRounds : Nat}
    {other : Workspace × Propagation.Outcome} (otherEnds : EndsAfter otherRounds workspace other) :
    otherRounds = rounds ∧ other = result := by
  induction ends generalizing otherRounds other with
  | falsified scanned =>
    cases otherEnds with
    | falsified again =>
      cases scanned.symm.trans again
      exact ⟨rfl, rfl⟩
    | conflict again | settled again | next again _ => cases scanned.symm.trans again
  | conflict scanned =>
    cases otherEnds with
    | conflict again =>
      cases scanned.symm.trans again
      exact ⟨rfl, rfl⟩
    | falsified again | settled again | next again _ => cases scanned.symm.trans again
  | settled scanned =>
    cases otherEnds with
    | settled again => exact ⟨rfl, rfl⟩
    | falsified again | conflict again | next again _ => cases scanned.symm.trans again
  | next scanned _ ih =>
    cases otherEnds with
    | next again later =>
      cases scanned.symm.trans again
      obtain ⟨sameRounds, sameResult⟩ := ih later
      exact ⟨congrArg (· + 1) sameRounds, sameResult⟩
    | falsified again | conflict again | settled again => cases scanned.symm.trans again

theorem ne_stalled (ends : EndsAfter rounds workspace result) : result.2 ≠ .stalled := by
  induction ends with
  | falsified => exact Propagation.Outcome.noConfusion
  | conflict => exact Propagation.Outcome.noConfusion
  | settled => exact Propagation.Outcome.noConfusion
  | next _ _ ih => exact ih

/-- Every round but the last takes a variable from those with an open position. -/
theorem rounds_add_card_le (ends : EndsAfter rounds workspace result)
    (wellFormed : workspace.database.WellFormed) :
    rounds + result.1.database.openVars.card ≤ workspace.database.openVars.card + 1 := by
  induction ends with
  | falsified => exact (Nat.add_comm _ _).le
  | conflict => exact (Nat.add_comm _ _).le
  | settled => exact (Nat.add_comm _ _).le
  | next scanned _ ih =>
    have later := ih (wellFormed_foldl_force wellFormed _)
    have round := card_openVars_round wellFormed scanned
    rw [List.length_cons] at round
    omega

end EndsAfter

theorem endsAfter_propagate (wellFormed : workspace.database.WellFormed) :
    ∃ rounds, EndsAfter rounds workspace workspace.propagate := by
  fun_induction propagate workspace with
  | case1 workspace index scanned => exact ⟨1, .falsified scanned⟩
  | case2 workspace unit scanned => exact ⟨1, .conflict scanned⟩
  | case3 workspace scanned => exact ⟨1, .settled scanned⟩
  | case4 workspace units nonempty scanned next smaller ih =>
    obtain ⟨rounds, ends⟩ := ih (wellFormed_foldl_force wellFormed units)
    cases units with
    | nil => exact absurd rfl nonempty
    | cons head tail => exact ⟨rounds + 1, .next scanned ends⟩
  | case5 workspace units nonempty scanned next stuck =>
    cases units with
    | nil => exact absurd rfl nonempty
    | cons head tail => exact absurd (openPositions_round wellFormed scanned) stuck

/-- Propagation ends, on whatever clause states and beside whatever trail. It takes at most
one round more than there are variables with an open position. -/
theorem propagation_rounds_bounded (reachable : workspace.database.Reachable) :
    ∃ rounds ≤ workspace.database.openVars.card + 1,
      EndsAfter rounds workspace workspace.propagate ∧
      ∀ other result, EndsAfter other workspace result →
        other = rounds ∧ result = workspace.propagate := by
  have wellFormed := reachable.wellFormed
  obtain ⟨rounds, ends⟩ := endsAfter_propagate wellFormed
  have bound := ends.rounds_add_card_le wellFormed
  exact ⟨rounds, by omega, ends, fun _ _ => ends.unique⟩

/-- The clauses do not know that the trail gives the second variable false, and they hold a
value for the fourth that the trail lacks. Three variables are open, and the bound of four
rounds is attained. -/
theorem propagation_rounds_bounded_out_of_step :
    let workspace : Workspace :=
      { database := (Database.ofClauses 2 [.ofList [1], .ofList [-1, 2], .ofList [-2, 3],
          .ofList [3, 4, -4]]).apply (.assign (.decision 4 false))
        trail := (Trail.empty 4).push (.decision 2 false)
        propagations := 0
        journal := #[] }
    workspace.database.openVars.card = 3 ∧ EndsAfter 4 workspace workspace.propagate ∧
      ∀ rounds result, EndsAfter rounds workspace result →
        rounds = 4 ∧ result = workspace.propagate := by
  intro workspace
  have canonical : ∀ clause ∈ [Clause.ofList [1], .ofList [-1, 2], .ofList [-2, 3],
      .ofList [3, 4, -4]], clause.Canonical := by
    decide
  have reachable : workspace.database.Reachable :=
    .apply (.assign (.decision 4 false)) (.ofClauses 2 canonical)
  obtain ⟨rounds, bound, ends, unique⟩ := propagation_rounds_bounded reachable
  have first : workspace.scan = .units [1] := by decide +kernel
  have second : ([1].foldl force workspace).scan = .units [2] := by decide +kernel
  have third : ([2].foldl force ([1].foldl force workspace)).scan = .units [3] := by
    decide +kernel
  have fourth : ([3].foldl force ([2].foldl force ([1].foldl force workspace))).scan =
      .units [] := by
    decide +kernel
  obtain ⟨rfl, _⟩ := unique 4 _ (.next first (.next second (.next third (.settled fourth))))
  exact ⟨by decide +kernel, ends, unique⟩

end Workspace

end CnfSolver

import CnfSolver.Proofs.ModelLookup
import CnfSolver.Proofs.PreparedSearch

/-!
# Models that a solver finds

A search ends with a model when every stored clause is satisfied on the trail.
The values on the trail, with false for the other variables, then satisfy the
clauses that the search started from, and so those of the formula. The model
lists these values for each variable of the formula, in order.
-/

namespace CnfSolver

namespace Search

/-- The values on the trail, and false for every other variable. -/
def assignment (search : Search) : Assignment :=
  fun var => (search.workspace.trail.value? var).getD false

/-! ## The listed literals -/

section Listed

variable {search : Search} (small : search.numVars < words32 / 2)
include small

theorem natAbs_toSigned_decision {var : Nat} (member : var ∈ List.range' 1 search.numVars)
    (value : Bool) : (Literal.decision var value).toSigned.natAbs = var := by
  rw [List.mem_range'_1] at member
  exact Literal.natAbs_toSigned (show var < _ by omega)

theorem map_natAbs_listed :
    ((List.range' 1 search.numVars).map fun var =>
      (Literal.decision var (search.assignment var)).toSigned).map Int.natAbs =
      List.range' 1 search.numVars := by
  rw [List.map_map]
  conv_rhs => rw [← List.map_id (List.range' 1 search.numVars)]
  exact List.map_congr_left fun var member => natAbs_toSigned_decision small member _

/-- The literals are in order already, so sorting leaves them where they are. -/
theorem toList_model :
    search.model.toList = (List.range' 1 search.numVars).map fun var =>
      (Literal.decision var (search.assignment var)).toSigned := by
  have increasing : (List.range' 1 search.numVars).Pairwise (· < ·) := List.pairwise_lt_range'
  rw [← map_natAbs_listed small, List.pairwise_map] at increasing
  exact List.mergeSort_of_pairwise
    (increasing.imp fun smaller => decide_eq_true (Nat.le_of_lt smaller))

theorem map_natAbs_model :
    search.model.toList.map Int.natAbs = List.range' 1 search.numVars := by
  rw [toList_model small]
  exact map_natAbs_listed small

theorem value?_model {var : Nat} (member : var ∈ List.range' 1 search.numVars) :
    search.model.value? var = some (search.assignment var) := by
  have oneSign : ∀ first ∈ search.model.toList, ∀ second ∈ search.model.toList,
      first.natAbs = second.natAbs → first = second := by
    rw [toList_model small]
    intro first isFirst second isSecond sameVar
    obtain ⟨firstVar, firstMember, rfl⟩ := List.mem_map.mp isFirst
    obtain ⟨secondVar, secondMember, rfl⟩ := List.mem_map.mp isSecond
    rw [natAbs_toSigned_decision small firstMember,
      natAbs_toSigned_decision small secondMember] at sameVar
    rw [sameVar]
  have ordered : search.model.Ordered := Model.ordered_ofList _
  rw [ordered.value?_eq_some_iff oneSign]
  refine ⟨(Literal.decision var (search.assignment var)).toSigned, ?_,
    natAbs_toSigned_decision small member _, ?_⟩
  · rw [toList_model small]
    exact List.mem_map_of_mem member
  · rw [List.mem_range'_1] at member
    exact Literal.polarity_toSigned (show 0 < var by omega) (show var < _ by omega)

end Listed

/-! ## The end of a search -/

variable {base : List (List Int)} {search : Search}

theorem Consistent.satisfiesAll_assignment (consistent : search.Consistent base)
    (aligned : search.workspace.Aligned)
    (satisfied : search.workspace.database.allSatisfied = true) :
    search.assignment.SatisfiesAll base := by
  intro clause member
  obtain ⟨stored, isStored, rfl⟩ := List.mem_map.mp (consistent.stored.subset member)
  rw [Array.mem_toList_iff] at isStored
  have flag : stored.satisfied = true := by
    rw [Database.allSatisfied, Array.all_eq_true_iff_forall_mem] at satisfied
    exact satisfied stored isStored
  rw [← aligned.clause_under isStored] at flag
  obtain ⟨literal, isLiteral, isTrue⟩ := Clause.satisfied_under.mp flag
  refine ⟨literal, isLiteral, ?_⟩
  simp [Assignment.Holds, assignment, isTrue]

/-- A search that ends with a model ends at a node where every clause is
satisfied. -/
theorem Consistent.solve_satisfiable (consistent : search.Consistent base) {ended : Search}
    {model : Model} (result : search.solve = .ok (ended, .satisfiable model)) :
    ∃ count last, search.node? count = some last ∧ model = last.propagated.model ∧
      last.propagated.numVars = search.numVars ∧
      last.propagated.assignment.SatisfiesAll base := by
  obtain ⟨count, last, final, isNode, ends, _⟩ := solve_ends result
  have lastConsistent := consistent.node? isNode
  cases ends with
  | satisfied stepped =>
    cases visits_of_step stepped with
    | satisfied settled satisfied =>
      have same := last.parameters_propagated.trans (parameters_node? isNode)
      refine ⟨count, last, isNode, rfl, congrArg Prod.fst same, ?_⟩
      exact lastConsistent.propagated.satisfiesAll_assignment
        lastConsistent.synced.aligned_propagated satisfied

end Search

/-! ## Verdicts with a model -/

namespace Branching

/-- The model passes the check against the clauses as they were given, and lists
one literal for each variable of the formula, in order. -/
structure Answers (formula : Formula) (model : Model) : Prop where
  verified : formula.verify model = true
  complete : model.toList.map Int.natAbs = List.range' 1 formula.numVars

theorem numVars_ofClauses_lt {numVars : Nat} (small : numVars < words32 / 2)
    {clauses : List (List Int)} (proper : ProperClauses clauses) :
    (Formula.ofClauses numVars clauses).numVars < words32 / 2 := by
  have positive : 0 < words32 / 2 := by decide
  have bounded : largestVar clauses ≤ words32 / 2 - 1 := by
    apply Formula.largestVar_le_iff.mpr
    intro clause member literal isLiteral
    exact Nat.le_pred_of_lt (proper clause member literal isLiteral).2
  refine Nat.max_lt.mpr ⟨small, ?_⟩
  omega

theorem verify_model {numVars : Nat} {clauses : List (List Int)} (proper : ProperClauses clauses)
    {search : Search} (sameVars : search.numVars = (Formula.ofClauses numVars clauses).numVars)
    (small : search.numVars < words32 / 2) (satisfied : search.assignment.SatisfiesAll clauses) :
    (Formula.ofClauses numVars clauses).verify search.model = true := by
  rw [Formula.verify, List.all_eq_true]
  intro clause isGiven
  have member : clause ∈ clauses := isGiven
  obtain ⟨literal, isLiteral, holds⟩ := satisfied clause member
  have positive := Int.natAbs_pos.mpr (proper clause member literal isLiteral).1
  have bounded := Formula.natAbs_le_numVars numVars member isLiteral
  have listed : literal.natAbs ∈ List.range' 1 search.numVars := by
    rw [List.mem_range'_1]
    omega
  rw [List.any_eq_true]
  refine ⟨literal, isLiteral, ?_⟩
  rw [Model.satisfies, Search.value?_model small listed, beq_iff_eq, Option.some.injEq]
  exact holds

theorem answers_of_solve {numVars : Nat} (small : numVars < words32 / 2)
    {clauses : List (List Int)} (proper : ProperClauses clauses) {settings : Settings}
    {order : BranchOrder} {ended : Branching} {model : Model}
    (result : (withOrder (.ofClauses numVars clauses) settings order).solve =
      .ok (ended, .satisfiable model)) : Answers (.ofClauses numVars clauses) model := by
  rcases solve_cases result with ⟨impossible, _⟩ | ⟨prepared, isPrepared, solved⟩
  · cases impossible
  · obtain ⟨⟨base, starts⟩, _⟩ := startsFrom_of_prepare proper isPrepared
    obtain ⟨_, last, _, rfl, sameVars, satisfied⟩ := starts.consistent.solve_satisfiable solved
    rw [starts.numVars] at sameVars
    have lastSmall : last.propagated.numVars < words32 / 2 := by
      rw [sameVars]
      exact numVars_ofClauses_lt small proper
    constructor
    · exact verify_model proper sameVars lastSmall ((starts.models _).mp satisfied)
    · rw [Search.map_natAbs_model lastSmall, sameVars]

/-- A model that a solver finds, with whatever order, satisfies the clauses as they
were given and is complete. -/
theorem satisfiable_sound {numVars : Nat} (small : numVars < words32 / 2)
    {clauses : List (List Int)} (proper : ProperClauses clauses) (settings : Settings) :
    (∀ (order : BranchOrder) (ended : Branching) (model : Model),
      (withOrder (.ofClauses numVars clauses) settings order).solve =
        .ok (ended, .satisfiable model) →
      Answers (.ofClauses numVars clauses) model) ∧
    ∃ solver, start (.ofClauses numVars clauses) settings = .ok solver ∧
      ∀ ended model, solver.solve = .ok (ended, .satisfiable model) →
        Answers (.ofClauses numVars clauses) model := by
  constructor
  · intro order ended model result
    exact answers_of_solve small proper result
  · obtain ⟨table, started, _⟩ := start_ofClauses numVars clauses settings
    exact ⟨_, started, fun ended model result => answers_of_solve small proper result⟩

theorem exists_model {result : Except Fault (Branching × Verdict)}
    (answer : (result.map fun finished => finished.2.model?.isSome) = .ok true) :
    ∃ ended model, result = .ok (ended, .satisfiable model) := by
  match result, answer with
  | .ok (ended, .satisfiable model), _ => exact ⟨ended, model, rfl⟩

/-- The order misses three variables of the formula and names one outside it. -/
theorem satisfiable_sound_partial_order :
    ∃ ended model,
      (withOrder (.ofClauses 4 [[3, 1], [-1, 2, 2], [-2, -4]]) {} ⟨[9, 3]⟩).solve =
        .ok (ended, .satisfiable model) ∧
      Answers (.ofClauses 4 [[3, 1], [-1, 2, 2], [-2, -4]]) model := by
  have answer : ((withOrder (.ofClauses 4 [[3, 1], [-1, 2, 2], [-2, -4]]) {} ⟨[9, 3]⟩).solve.map
      fun finished => finished.2.model?.isSome) = .ok true := by
    decide +kernel
  obtain ⟨ended, model, result⟩ := exists_model answer
  exact ⟨ended, model, result,
    (satisfiable_sound (by decide) (by decide) {}).1 ⟨[9, 3]⟩ ended model result⟩

end Branching

end CnfSolver

import CnfSolver.Solver
import CnfSolver.Proofs.EnumeratedVerdicts
import CnfSolver.Proofs.FoundModels
import CnfSolver.Proofs.Termination

/-!
# The two solvers agree

Without a decision limit, the search and the enumeration each tell whether the
clauses have a model, so on clauses without a zero they give the same verdict. The
search takes a zero for a literal on variable zero, which it can make true. The
enumeration never makes a zero true, and so agrees with the search of the clauses
that are left when the zeros are taken out.
-/

namespace CnfSolver

/-- Both verdicts come with a model, or both say that there is none. -/
inductive Verdict.Agrees : Verdict → Verdict → Prop where
  | satisfiable {first second : Model} : Agrees (.satisfiable first) (.satisfiable second)
  | unsatisfiable : Agrees .unsatisfiable .unsatisfiable

/-- Verdicts that settle the same question agree. -/
theorem Verdict.Settles.agrees {exists? : Prop} {first second : Verdict}
    (firstSettles : first.Settles exists?) (secondSettles : second.Settles exists?) :
    first.Agrees second := by
  cases first with
  | satisfiable model =>
    cases second with
    | satisfiable other => exact .satisfiable
    | unsatisfiable => exact absurd firstSettles secondSettles
    | stopped limit => exact secondSettles.elim
  | unsatisfiable =>
    cases second with
    | satisfiable other => exact absurd secondSettles firstSettles
    | unsatisfiable => exact .unsatisfiable
    | stopped limit => exact secondSettles.elim
  | stopped limit => exact firstSettles.elim

/-- The search of one formula and the enumeration of the other end with verdicts that
agree. -/
def SolversAgree (settings : Settings) (searched enumerated : Formula) : Prop :=
  ∃ solver ended verdict, Branching.start searched settings = .ok solver ∧
    solver.solve = .ok (ended, verdict) ∧
    verdict.Agrees (Enumeration.start enumerated settings).solve.2

/-- Only a decision limit stops a search. -/
theorem Search.ne_stopped_of_solve {search ended : Search}
    (unlimited : search.settings.maxDecisions = none) {verdict : Verdict}
    (result : search.solve = .ok (ended, verdict)) (limit : Nat) : verdict ≠ .stopped limit := by
  rintro rfl
  obtain ⟨count, last, final, isNode, ends, _⟩ := solve_ends result
  have sameSettings := settings_eq_of_parameters (parameters_node? isNode)
  cases ends with
  | stopped stepped =>
    exact not_visits_stopped (sameSettings ▸ unlimited) (visits_of_step stepped)

namespace Branching

variable {numVars : Nat} {clauses : List (List Int)} {settings : Settings}

/-- Without a limit, a search with an order that covers the clauses tells whether they
have a model. -/
theorem settles_of_solve (proper : ProperClauses clauses) (unlimited : settings.maxDecisions = none)
    {order : BranchOrder} (covers : order.Covers clauses) {ended : Branching} {verdict : Verdict}
    (result : (withOrder (.ofClauses numVars clauses) settings order).solve =
      .ok (ended, verdict)) :
    verdict.Settles (∃ assignment : Assignment, assignment.SatisfiesAll clauses) := by
  cases verdict with
  | unsatisfiable =>
    rintro ⟨assignment, model⟩
    exact not_satisfiesAll_of_solve (.ofClauses numVars clauses) proper covers result assignment
      model
  | satisfiable model =>
    rcases solve_cases result with ⟨impossible, _⟩ | ⟨prepared, isPrepared, solved⟩
    · cases impossible
    · obtain ⟨⟨base, starts⟩, _⟩ := startsFrom_of_prepare proper isPrepared
      obtain ⟨_, last, _, _, _, satisfied⟩ := starts.consistent.solve_satisfiable solved
      exact ⟨_, (starts.models _).mp satisfied⟩
  | stopped limit =>
    rcases solve_cases result with ⟨impossible, _⟩ | ⟨prepared, isPrepared, solved⟩
    · cases impossible
    · rw [← settings_prepare isPrepared] at unlimited
      exact Search.ne_stopped_of_solve unlimited solved limit rfl

theorem solve_settles (numVars : Nat) (proper : ProperClauses clauses)
    (unlimited : settings.maxDecisions = none) :
    ∃ solver ended verdict, start (.ofClauses numVars clauses) settings = .ok solver ∧
      solver.solve = .ok (ended, verdict) ∧
      verdict.Settles (∃ assignment : Assignment, assignment.SatisfiesAll clauses) := by
  obtain ⟨table, started, size, _⟩ := start_ofClauses numVars clauses settings
  obtain ⟨ended, verdict, result⟩ := solve_ok (.ofClauses numVars clauses) settings
    (.ofFrequencies table)
  exact ⟨_, ended, verdict, started, result,
    settles_of_solve proper unlimited (covers_ofFrequencies proper size) result⟩

end Branching

theorem properClauses_withoutZeros {clauses : List (List Int)}
    (small : ∀ clause ∈ clauses, ∀ literal ∈ clause, literal.natAbs < words32 / 2) :
    ProperClauses (clauses.map withoutZeros) := by
  intro handed isHanded literal isLiteral
  obtain ⟨clause, member, rfl⟩ := List.mem_map.mp isHanded
  obtain ⟨isGiven, nonzero⟩ := mem_withoutZeros.mp isLiteral
  exact ⟨nonzero, small clause member literal isGiven⟩

theorem solversAgree_withoutZeros (numVars : Nat) {clauses : List (List Int)}
    (small : ∀ clause ∈ clauses, ∀ literal ∈ clause, literal.natAbs < words32 / 2)
    {settings : Settings} (unlimited : settings.maxDecisions = none) :
    SolversAgree settings (.ofClauses numVars (clauses.map withoutZeros))
      (.ofClauses numVars clauses) := by
  obtain ⟨solver, ended, verdict, started, result, settles⟩ :=
    Branching.solve_settles numVars (properClauses_withoutZeros small) unlimited
  refine ⟨solver, ended, verdict, started, result, settles.agrees ?_⟩
  have enumerated := Formula.settles_enumerateAll numVars clauses
  rw [← unlimited] at enumerated
  exact enumerated

/-- On clauses without a zero the two solvers agree. With zeros, the enumeration agrees
with the search of the clauses that the zeros are taken out of. -/
theorem solvers_agree (numVars : Nat) {clauses : List (List Int)}
    (small : ∀ clause ∈ clauses, ∀ literal ∈ clause, literal.natAbs < words32 / 2)
    {settings : Settings} (unlimited : settings.maxDecisions = none) :
    ((∀ clause ∈ clauses, 0 ∉ clause) →
      SolversAgree settings (.ofClauses numVars clauses) (.ofClauses numVars clauses)) ∧
    SolversAgree settings (.ofClauses numVars (clauses.map withoutZeros))
      (.ofClauses numVars clauses) := by
  have agree := solversAgree_withoutZeros numVars small unlimited
  refine ⟨fun noZeros => ?_, agree⟩
  rw [map_withoutZeros_eq_self noZeros] at agree
  exact agree

theorem solvers_agree_three_vars :
    SolversAgree {} (.ofClauses 3 [[1, -2], [2, 3], [-1, -3], [-2, -1]])
      (.ofClauses 3 [[1, -2], [2, 3], [-1, -3], [-2, -1]]) :=
  (solvers_agree 3 (by decide) rfl).1 (by decide)

/-- The search makes the only literal of this formula true, and the enumeration does
not. -/
theorem solvers_disagree_on_zero :
    ¬SolversAgree {} (.ofClauses 1 [[0]]) (.ofClauses 1 [[0]]) := by
  have searched : ((Branching.start (.ofClauses 1 [[0]]) {}).bind fun solver =>
      solver.solve.map fun finished => finished.2.model?.isSome) = .ok true := by
    decide +kernel
  have enumerated : (Enumeration.start (.ofClauses 1 [[0]]) {}).solve.2 = .unsatisfiable := by
    decide +kernel
  rintro ⟨solver, ended, verdict, started, result, agrees⟩
  rw [enumerated] at agrees
  rw [started] at searched
  cases agrees
  simp [Except.bind, result, Except.map, Verdict.model?] at searched

end CnfSolver

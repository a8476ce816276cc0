import CnfSolver.Solver
import CnfSolver.Proofs.EnumeratedVerdicts

/-!
# Assignments are tried in the order of their numbers

Enumeration starts at number zero and adds one until the counter is full, so it visits
every assignment once, and the first one that satisfies the clauses is the one with the
least number. A limit is looked at before each assignment: with enough assignments
allowed it changes nothing, and otherwise exactly as many are tried as it allows. Every
call starts anew, so a call gives the same as the one before.
-/

namespace CnfSolver

/-! ## The numbers that are visited -/

namespace Counter

/-- The counter after a number of increments. -/
def following? (counter : Counter) : Nat → Option Counter
  | 0 => some counter
  | steps + 1 => (counter.following? steps).bind increment?

theorem following?_zero {width number : Nat} (inside : number < 2 ^ width) :
    ∃ counter, (zero width).following? number = some counter ∧ counter.number = number ∧
      counter.width = width := by
  induction number with
  | zero => exact ⟨zero width, rfl, number_zero width, width_zero width⟩
  | succ number ih =>
    obtain ⟨counter, reached, isNumber, sameWidth⟩ := ih (Nat.lt_of_succ_lt inside)
    cases incremented : counter.increment? with
    | none =>
      rw [increment?_eq_none_iff, isNumber, sameWidth] at incremented
      omega
    | some next =>
      obtain ⟨nextNumber, nextWidth⟩ := number_increment? incremented
      refine ⟨next, ?_, nextNumber.trans (congrArg (· + 1) isNumber), nextWidth.trans sameWidth⟩
      rw [following?, reached]
      exact incremented

theorem following?_zero_eq_none (width : Nat) : (zero width).following? (2 ^ width) = none := by
  have positive := Nat.two_pow_pos width
  obtain ⟨counter, reached, isNumber, sameWidth⟩ :=
    following?_zero (Nat.sub_one_lt_of_lt positive)
  have last : 2 ^ width = (2 ^ width - 1) + 1 := by omega
  have full : counter.increment? = none := by
    rw [increment?_eq_none_iff, isNumber, sameWidth]
    omega
  rw [last, following?, reached]
  exact full

end Counter

/-! ## The limit -/

namespace Formula

section Equations

variable {formula : Formula} {tried : Nat} {counter : Counter}

theorem enumerate_of_satisfied (satisfied : formula.satisfiedBy counter = true) :
    formula.enumerate none tried counter = (tried + 1, .satisfiable counter.model) := by
  unfold enumerate
  exact if_pos satisfied

theorem enumerate_of_full (fails : ¬formula.satisfiedBy counter = true)
    (full : counter.increment? = none) :
    formula.enumerate none tried counter = (tried + 1, .unsatisfiable) := by
  unfold enumerate
  simp only [Option.filter_none, if_neg fails]
  split
  next isFull => rfl
  next incremented => cases full.symm.trans incremented

theorem enumerate_of_increment (fails : ¬formula.satisfiedBy counter = true) {next : Counter}
    (incremented : counter.increment? = some next) :
    formula.enumerate none tried counter = formula.enumerate none (tried + 1) next := by
  conv_lhs => unfold enumerate
  simp only [Option.filter_none, if_neg fails]
  split
  next full => cases full.symm.trans incremented
  next other otherIncremented =>
    cases incremented.symm.trans otherIncremented
    rfl

end Equations

theorem lt_fst_enumerate (formula : Formula) (tried : Nat) (counter : Counter) :
    tried < (formula.enumerate none tried counter).1 := by
  fun_induction enumerate formula none tried counter with
  | case1 tried counter limit reached => cases reached
  | case2 tried => exact Nat.lt_succ_self tried
  | case3 tried => exact Nat.lt_succ_self tried
  | case4 tried counter free fails next incremented ih => exact Nat.lt_of_succ_lt ih

theorem limit_filter_eq_none_iff {limit tried : Nat} :
    (some limit).filter (fun limit => limit ≤ tried) = none ↔ tried < limit := by
  simp

/-- A limit cuts the enumeration short where it would try more than allowed. -/
theorem enumerate_some (formula : Formula) {limit tried : Nat} (allowed : tried ≤ limit)
    (counter : Counter) :
    formula.enumerate (some limit) tried counter =
      if (formula.enumerate none tried counter).1 ≤ limit then
        formula.enumerate none tried counter
      else (limit, .stopped limit) := by
  fun_induction enumerate formula (some limit) tried counter with
  | case1 tried counter reached atLimit =>
    obtain ⟨same, isReached⟩ := Option.filter_eq_some_iff.mp atLimit
    cases same
    obtain rfl : tried = limit := Nat.le_antisymm allowed (by simpa using isReached)
    -- Without the limit at least one more would be tried.
    rw [if_neg (Nat.not_le_of_lt (formula.lt_fst_enumerate tried counter))]
  | case2 tried counter free satisfied =>
    have below : tried + 1 ≤ limit := limit_filter_eq_none_iff.mp free
    rw [enumerate_of_satisfied satisfied, if_pos below]
  | case3 tried counter free fails full =>
    have below : tried + 1 ≤ limit := limit_filter_eq_none_iff.mp free
    rw [enumerate_of_full fails full, if_pos below]
  | case4 tried counter free fails next incremented ih =>
    have below : tried + 1 ≤ limit := limit_filter_eq_none_iff.mp free
    rw [enumerate_of_increment fails incremented]
    exact ih below

end Formula

/-! ## Calls of the solver -/

namespace Enumeration

/-- The solver of a formula after a number of calls. -/
def after (formula : Formula) (settings : Settings) : Nat → Enumeration
  | 0 => start formula settings
  | calls + 1 => (after formula settings calls).solve.1

/-- What the next call gives: the verdict, the number of decisions in the statistics and
the model that the solver has then. -/
structure Gives (solver : Enumeration) (decisions : Nat) (verdict : Verdict) : Prop where
  answer : solver.solve.2 = verdict
  counted : (Solver.enumeration solver.solve.1).statistics.decisions = decisions
  found : (Solver.enumeration solver.solve.1).model? = verdict.model?

theorem formula_solve (solver : Enumeration) : solver.solve.1.formula = solver.formula := by
  unfold solve
  dsimp only
  split <;> rfl

theorem limit_solve (solver : Enumeration) : solver.solve.1.limit = solver.limit := by
  unfold solve
  dsimp only
  split <;> rfl

theorem tried_solve {solver : Enumeration} {tried : Nat} {verdict : Verdict}
    (result : solver.formula.enumerateAll solver.limit = (tried, verdict)) :
    solver.solve.1.tried = tried := by
  unfold solve
  rw [result]
  cases verdict <;> rfl

theorem model?_solve_of_found {solver : Enumeration} {tried : Nat} {model : Model}
    (result : solver.formula.enumerateAll solver.limit = (tried, .satisfiable model)) :
    solver.solve.1.model? = some model := by
  unfold solve
  rw [result]

theorem model?_solve_of_exhausted {solver : Enumeration} {tried : Nat}
    (result : solver.formula.enumerateAll solver.limit = (tried, .unsatisfiable)) :
    solver.solve.1.model? = none := by
  unfold solve
  rw [result]

/-- A stopped call leaves the model of the call before. -/
theorem model?_solve_of_stopped {solver : Enumeration} {tried limit : Nat}
    (result : solver.formula.enumerateAll solver.limit = (tried, .stopped limit)) :
    solver.solve.1.model? = solver.model? := by
  unfold solve
  rw [result]

theorem gives_of_enumerateAll {solver : Enumeration} {tried : Nat} {verdict : Verdict}
    (result : solver.formula.enumerateAll solver.limit = (tried, verdict))
    (noModel : ∀ limit, verdict = .stopped limit → solver.model? = none) :
    solver.Gives tried verdict := by
  refine ⟨by rw [solve, result], tried_solve result, ?_⟩
  cases verdict with
  | satisfiable model => exact model?_solve_of_found result
  | unsatisfiable => exact model?_solve_of_exhausted result
  | stopped limit => exact (model?_solve_of_stopped result).trans (noModel limit rfl)

section Calls

variable (formula : Formula) (settings : Settings) (calls : Nat)

theorem formula_after : (after formula settings calls).formula = formula := by
  induction calls with
  | zero => rfl
  | succ calls ih => exact (formula_solve _).trans ih

theorem limit_after : (after formula settings calls).limit = settings.maxDecisions := by
  induction calls with
  | zero => rfl
  | succ calls ih => exact (limit_solve _).trans ih

theorem enumerateAll_after :
    (after formula settings calls).formula.enumerateAll (after formula settings calls).limit =
      formula.enumerateAll settings.maxDecisions := by
  rw [formula_after, limit_after]

/-- A solver whose calls are all stopped never has a model. -/
theorem model?_after {tried limit : Nat}
    (stops : formula.enumerateAll settings.maxDecisions = (tried, .stopped limit)) :
    (after formula settings calls).model? = none := by
  induction calls with
  | zero => rfl
  | succ calls ih =>
    exact (model?_solve_of_stopped ((enumerateAll_after _ _ calls).trans stops)).trans ih

/-- Every call gives what the enumeration of the formula comes to. -/
theorem after_gives {tried : Nat} {verdict : Verdict}
    (result : formula.enumerateAll settings.maxDecisions = (tried, verdict)) :
    (after formula settings calls).Gives tried verdict := by
  apply gives_of_enumerateAll ((enumerateAll_after formula settings calls).trans result)
  rintro limit rfl
  exact model?_after formula settings calls result

end Calls

/-- The counter visits the numbers of all assignments in order, each once. Every call of
the solver gives the satisfying assignment of the least number, or none, after trying the
numbers up to it, or all of them. A limit changes nothing if it allows as many, and
otherwise the call is stopped with as many tried as it allows, and without a model. -/
theorem assignments_tried_in_order (formula : Formula) (settings : Settings) (calls : Nat) :
    (∀ number < 2 ^ formula.numVars, ∃ counter,
      (Counter.zero formula.numVars).following? number = some counter ∧
      counter.number = number ∧ counter.width = formula.numVars) ∧
    (Counter.zero formula.numVars).following? (2 ^ formula.numVars) = none ∧
    ∃ tried verdict, formula.Enumerates 0 (tried, verdict) ∧
      (settings.maxDecisions = none → (after formula settings calls).Gives tried verdict) ∧
      ∀ limit, settings.maxDecisions = some limit →
        (tried ≤ limit → (after formula settings calls).Gives tried verdict) ∧
        (limit < tried → (after formula settings calls).Gives limit (.stopped limit)) := by
  refine ⟨fun number inside => Counter.following?_zero inside,
    Counter.following?_zero_eq_none formula.numVars, _, _, formula.enumerates_enumerateAll, ?_, ?_⟩
  · intro unlimited
    apply after_gives
    rw [unlimited]
    rfl
  · intro limit limited
    have cut := formula.enumerate_some limit.zero_le (.zero formula.numVars)
    constructor
    · intro enough
      apply after_gives
      rw [limited]
      exact cut.trans (if_pos enough)
    · intro more
      apply after_gives
      rw [limited]
      exact cut.trans (if_neg (Nat.not_le_of_lt more))

end Enumeration

end CnfSolver

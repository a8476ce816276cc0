import CnfSolver.Proofs.ClauseStrengthening
import CnfSolver.Proofs.FrequencyOrder
import CnfSolver.Proofs.Preparation

/-!
# From the formula to the search and its verdict

Whatever preparation does to the clauses, the search starts from clauses with
the models of the formula and no other variables. So a verdict about the clauses
of the search is one about the formula, and the verdict that there is no model is
right if the order covers the formula.
-/

namespace CnfSolver

namespace Branching

/-- The search starts at its first node, from the clauses `base`, which have the
models of the formula and no other variables. -/
structure StartsFrom (formula : Formula) (base : List (List Int)) (search : Search) : Prop where
  consistent : search.Consistent base
  trail : search.workspace.trail.toList = []
  numVars : search.numVars = formula.numVars
  models : ∀ assignment : Assignment,
    assignment.SatisfiesAll base ↔ assignment.SatisfiesAll formula.clauses
  mentioned : ∀ var, Mentions base var → Mentions formula.clauses var

theorem StartsFrom.grounded {formula : Formula} {base : List (List Int)} {search : Search}
    (starts : StartsFrom formula base search) (covers : search.order.Covers formula.clauses) :
    search.Grounded base where
  toConsistent := starts.consistent
  entailed := by
    rw [starts.trail]
    exact along_nil
  covered := fun var mentioned => covers var (starts.mentioned var mentioned)

variable {formula : Formula} {settings : Settings} {order : BranchOrder}

theorem properClauses_ofList {clauses : List (List Int)} (proper : ProperClauses clauses) :
    ProperClauses ((clauses.map Clause.ofList).map Clause.literals) := by
  rw [map_literals_ofList]
  exact properClauses_normalise proper

theorem satisfiesAll_ofList {clauses : List (List Int)} {assignment : Assignment} :
    assignment.SatisfiesAll ((clauses.map Clause.ofList).map Clause.literals) ↔
      assignment.SatisfiesAll clauses := by
  rw [map_literals_ofList]
  exact Assignment.satisfiesAll_normalise

theorem not_satisfiesAll_of_prepare (proper : ProperClauses formula.clauses) {prepared : Branching}
    (result : (withOrder formula settings order).prepare = .ok (prepared, true))
    (assignment : Assignment) : ¬assignment.SatisfiesAll formula.clauses := by
  rcases prepare_cases result with ⟨_, pass, _, _, passed, refuted⟩ | ⟨impossible, _⟩
  · have sound := Strengthening.pass_sound (properClauses_ofList proper) passed
    rw [refuted] at sound
    rw [← satisfiesAll_ofList]
    exact sound assignment
  · cases impossible

theorem startsFrom_of_prepare (proper : ProperClauses formula.clauses) {prepared : Branching}
    (result : (withOrder formula settings order).prepare = .ok (prepared, false)) :
    (∃ base, StartsFrom formula base prepared.search) ∧ prepared.search.order = order := by
  have aligned := aligned_prepare result
  rcases prepare_cases result with ⟨impossible, _⟩ | ⟨_, clauses, journal, started, origin⟩
  · cases impossible
  · have inputProper := properClauses_ofList proper
    have sound : Strengthening.Result.Sound (formula.clauses.map Clause.ofList)
        (.clauses clauses) := by
      rcases origin with rfl | ⟨pass, passed, handed⟩
      · exact ⟨fun _ => Iff.rfl, fun _ mentioned => mentioned⟩
      · rw [← handed]
        exact Strengthening.pass_sound inputProper passed
    obtain ⟨models, mentioned⟩ := sound
    have handedProper : ProperClauses (clauses.map Clause.literals) := by
      rw [properClauses_iff] at inputProper ⊢
      exact fun var isMentioned => inputProper var (mentioned var isMentioned)
    refine ⟨⟨clauses.map Clause.literals, ?_, ?_, ?_, ?_, ?_⟩, by rw [started]; rfl⟩
    · refine Search.consistent_of_aligned aligned ?_ handedProper ?_ ?_
      · rw [started]
        exact Database.contents_ofClauses _ _
      · rw [started]
        rfl
      · rw [started]
        rfl
    · rw [started]
      rfl
    · rw [started]
      rfl
    · exact fun assignment => (models assignment).trans satisfiesAll_ofList
    · intro var isMentioned
      have isInput := mentioned var isMentioned
      rw [map_literals_ofList] at isInput
      exact mentions_normalise.mp isInput

/-- A verdict comes from strengthening, or from the search of the prepared
clauses. -/
theorem solve_cases {ended : Branching} {verdict : Verdict}
    (result : (withOrder formula settings order).solve = .ok (ended, verdict)) :
    (verdict = .unsatisfiable ∧
      ∃ prepared, (withOrder formula settings order).prepare = .ok (prepared, true) ∧
        ended.search = prepared.search.conclude .unsatisfiable) ∨
    ∃ prepared, (withOrder formula settings order).prepare = .ok (prepared, false) ∧
      prepared.search.solve = .ok (ended.search, verdict) := by
  unfold solve at result
  split at result
  next impossible => cases impossible
  next unanswered =>
    split at result
    next failed => cases result
    next prepared refuted =>
      cases result
      exact .inl ⟨rfl, prepared, refuted, rfl⟩
    next prepared isPrepared =>
      unfold conclude at result
      split at result
      next failed => cases result
      next search found solved =>
        cases result
        exact .inr ⟨prepared, isPrepared, solved⟩

theorem exists_ended {result : Except Fault (Branching × Verdict)} {verdict : Verdict}
    (answer : result.map Prod.snd = .ok verdict) : ∃ ended, result = .ok (ended, verdict) := by
  cases result with
  | error fault => cases answer
  | ok pair =>
    cases answer
    exact ⟨pair.1, rfl⟩

/-- A solver can always be made, and branches in the order by frequency. -/
theorem start_ofClauses (numVars : Nat) (clauses : List (List Int)) (settings : Settings) :
    ∃ table, start (.ofClauses numVars clauses) settings =
        .ok (withOrder (.ofClauses numVars clauses) settings (.ofFrequencies table)) ∧
      table.size = (Formula.ofClauses numVars clauses).numVars + 1 ∧
      ∀ var, (table[var]?).getD 0 = clauseCount clauses var := by
  obtain ⟨table, counted, size, counts⟩ := Formula.frequencies_ofClauses numVars clauses
  refine ⟨table, ?_, size, counts⟩
  unfold start
  rw [counted]

theorem covers_ofFrequencies {numVars : Nat} {clauses : List (List Int)}
    (proper : ProperClauses clauses) {table : Array Nat}
    (size : table.size = (Formula.ofClauses numVars clauses).numVars + 1) :
    (BranchOrder.ofFrequencies table).Covers clauses := by
  rintro var ⟨clause, member, literal, isLiteral, rfl⟩
  have positive := Int.natAbs_pos.mpr (proper clause member literal isLiteral).1
  have bounded := Formula.natAbs_le_numVars numVars member isLiteral
  rw [BranchOrder.mem_ofFrequencies]
  omega

theorem not_satisfiesAll_of_solve (formula : Formula) (proper : ProperClauses formula.clauses)
    (covers : order.Covers formula.clauses) {ended : Branching}
    (result : (withOrder formula settings order).solve = .ok (ended, .unsatisfiable))
    (assignment : Assignment) : ¬assignment.SatisfiesAll formula.clauses := by
  rcases solve_cases result with ⟨_, prepared, refuted, _⟩ | ⟨prepared, isPrepared, solved⟩
  · exact not_satisfiesAll_of_prepare proper refuted assignment
  · obtain ⟨⟨base, starts⟩, sameOrder⟩ := startsFrom_of_prepare proper isPrepared
    rw [← sameOrder] at covers
    rw [← starts.models]
    exact (starts.grounded covers).not_satisfiesAll_of_solve solved assignment

/-- If a solver says that there is no model, there is none: with the order by
frequency, and with any order that holds the variables of the clauses. -/
theorem unsatisfiable_sound (numVars : Nat) {clauses : List (List Int)}
    (proper : ProperClauses clauses) (settings : Settings) :
    (∃ solver, start (.ofClauses numVars clauses) settings = .ok solver ∧
      ∀ ended, solver.solve = .ok (ended, .unsatisfiable) →
        ∀ assignment : Assignment, ¬assignment.SatisfiesAll clauses) ∧
    ∀ order : BranchOrder, order.Covers clauses →
      ∀ ended, (withOrder (.ofClauses numVars clauses) settings order).solve =
        .ok (ended, .unsatisfiable) →
      ∀ assignment : Assignment, ¬assignment.SatisfiesAll clauses := by
  constructor
  · obtain ⟨table, started, size, _⟩ := start_ofClauses numVars clauses settings
    refine ⟨_, started, fun ended result => ?_⟩
    exact not_satisfiesAll_of_solve (.ofClauses numVars clauses) proper
      (covers_ofFrequencies proper size) result
  · intro order covers ended result
    exact not_satisfiesAll_of_solve (.ofClauses numVars clauses) proper covers result

theorem unsatisfiable_sound_two_vars :
    (∃ ended, (withOrder (.ofClauses 2 [[1, 2], [1, -2], [-1, 2], [-1, -2]])
      { preprocessing := false } ⟨[2, 1]⟩).solve = .ok (ended, .unsatisfiable)) ∧
    ∀ assignment : Assignment, ¬assignment.SatisfiesAll [[1, 2], [1, -2], [-1, 2], [-1, -2]] := by
  have answer : ((withOrder (.ofClauses 2 [[1, 2], [1, -2], [-1, 2], [-1, -2]])
      { preprocessing := false } ⟨[2, 1]⟩).solve.map Prod.snd) = .ok .unsatisfiable := by
    decide +kernel
  obtain ⟨ended, result⟩ := exists_ended answer
  exact ⟨⟨ended, result⟩,
    (unsatisfiable_sound 2 (by decide) { preprocessing := false }).2 ⟨[2, 1]⟩ (by decide) ended
      result⟩

end Branching

end CnfSolver

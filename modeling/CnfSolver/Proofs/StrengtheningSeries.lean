import CnfSolver.Proofs.Termination

/-!
# Passes one after the other

A series of passes strengthens the clauses that the pass before handed on and
carries the counters along. A refuted pass leaves the clauses as they were. Every
pass of a series ends, and what it says of its own input holds of the clauses
that the series started from, because these have the same models.
-/

namespace CnfSolver.Strengthening

/-- The clauses and counters between two passes. -/
structure Series where
  clauses : List Clause
  statistics : Statistics
  deriving DecidableEq, Repr

namespace Series

/-- No pass has been made. -/
def start (clauses : List Clause) : Series := ⟨clauses, {}⟩

/-- Take over what a pass hands on. -/
def after (series : Series) (finished : Pass) : Series :=
  match finished.result with
  | .clauses handed => ⟨handed, finished.statistics⟩
  | .refuted => ⟨series.clauses, finished.statistics⟩

variable (numVars : Nat) (settings : Settings)

def nextPass (series : Series) : Except Fault Pass :=
  pass numVars settings series.statistics series.clauses

/-- Make a number of passes. -/
def run : Nat → Series → Except Fault Series
  | 0, series => .ok series
  | count + 1, series =>
      match series.nextPass numVars settings with
      | .error fault => .error fault
      | .ok finished => run count (series.after finished)

end Series

/-- What is handed on has no other variables than the input, so its literals are
proper too. -/
theorem Result.Sound.properClauses {input handed : List Clause}
    (sound : Result.Sound input (.clauses handed))
    (proper : ProperClauses (input.map Clause.literals)) :
    ProperClauses (handed.map Clause.literals) := by
  rw [properClauses_iff] at proper ⊢
  intro var mentioned
  exact proper var (sound.2 var mentioned)

/-- The clauses are proper and have the models of the clauses `origin`. -/
structure Series.Keeps (origin : List Clause) (series : Series) : Prop where
  proper : ProperClauses (series.clauses.map Clause.literals)
  models : ∀ assignment : Assignment,
    assignment.SatisfiesAll (series.clauses.map Clause.literals) ↔
      assignment.SatisfiesAll (origin.map Clause.literals)

namespace Series.Keeps

variable {numVars : Nat} {settings : Settings} {origin : List Clause} {series : Series}

theorem start (proper : ProperClauses (origin.map Clause.literals)) :
    (Series.start origin).Keeps origin :=
  ⟨proper, fun _ => Iff.rfl⟩

theorem after (keeps : series.Keeps origin) {finished : Pass}
    (passed : series.nextPass numVars settings = .ok finished) :
    (series.after finished).Keeps origin := by
  have sound := pass_sound keeps.proper passed
  unfold Series.after
  cases result : finished.result with
  | refuted => exact ⟨keeps.proper, keeps.models⟩
  | clauses handed =>
    rw [result] at sound
    refine ⟨sound.properClauses keeps.proper, fun assignment => ?_⟩
    exact (sound.1 assignment).trans (keeps.models assignment)

theorem run (keeps : series.Keeps origin) (count : Nat) :
    ∃ ended, series.run numVars settings count = .ok ended ∧ ended.Keeps origin := by
  induction count generalizing series with
  | zero => exact ⟨series, rfl, keeps⟩
  | succ count ih =>
    obtain ⟨finished, passed⟩ := pass_ok numVars settings series.statistics series.clauses
    obtain ⟨ended, made, endedKeeps⟩ := ih (keeps.after passed)
    refine ⟨ended, ?_, endedKeeps⟩
    unfold Series.run Series.nextPass
    rw [passed]
    exact made

end Series.Keeps

/-- Every pass of a series ends. It hands on clauses with the models of its input, or
finds that its input has none, and its input has the models of the clauses that the
series started from. -/
theorem series_keeps_models {clauses : List Clause}
    (proper : ProperClauses (clauses.map Clause.literals)) (numVars : Nat) (settings : Settings)
    (count : Nat) :
    ∃ series finished, (Series.start clauses).run numVars settings count = .ok series ∧
      series.nextPass numVars settings = .ok finished ∧
      (∀ assignment : Assignment, assignment.SatisfiesAll (series.clauses.map Clause.literals) ↔
        assignment.SatisfiesAll (clauses.map Clause.literals)) ∧
      (∀ handed, finished.result = .clauses handed → ∀ assignment : Assignment,
        assignment.SatisfiesAll (series.clauses.map Clause.literals) ↔
          assignment.SatisfiesAll (handed.map Clause.literals)) ∧
      (finished.result = .refuted → ∀ assignment : Assignment,
        ¬assignment.SatisfiesAll (series.clauses.map Clause.literals)) := by
  obtain ⟨series, made, keeps⟩ := (Series.Keeps.start proper).run count
  obtain ⟨finished, passed⟩ := pass_ok numVars settings series.statistics series.clauses
  have sound := pass_sound keeps.proper passed
  refine ⟨series, finished, made, passed, keeps.models, ?_, ?_⟩
  · intro handed result assignment
    rw [result] at sound
    exact (sound.1 assignment).symm
  · intro result
    rw [result] at sound
    exact sound

/-- The first pass leaves one clause on the first variable for each sign, and the
second pass refutes these. -/
theorem series_keeps_models_two_passes :
    ∃ series finished,
      (Series.start ([[1, 2], [1, -2], [-1, 3], [-1, -3]].map Clause.ofList)).run 3 {} 1 =
        .ok series ∧
      series.nextPass 3 {} = .ok finished ∧
      series.clauses.map Clause.literals = [[1], [-1]] ∧ finished.result = .refuted ∧
      ∀ assignment : Assignment,
        ¬assignment.SatisfiesAll [[1, 2], [1, -2], [-1, 3], [-1, -3]] := by
  have proper : ProperClauses
      (([[1, 2], [1, -2], [-1, 3], [-1, -3]].map Clause.ofList).map Clause.literals) := by
    decide
  obtain ⟨series, finished, made, passed, models, _, refuted⟩ :=
    series_keeps_models proper 3 {} 1
  have answer : (((Series.start ([[1, 2], [1, -2], [-1, 3], [-1, -3]].map Clause.ofList)).run
      3 {} 1).bind fun series => (series.nextPass 3 {}).map fun finished =>
        (series.clauses.map Clause.literals, finished.result)) =
      .ok ([[1], [-1]], .refuted) := by
    decide +kernel
  rw [made] at answer
  simp only [Except.bind, passed, Except.map, Except.ok.injEq, Prod.mk.injEq] at answer
  refine ⟨series, finished, made, passed, answer.1, answer.2, fun assignment model => ?_⟩
  exact refuted answer.2 assignment ((models assignment).mpr model)

end CnfSolver.Strengthening

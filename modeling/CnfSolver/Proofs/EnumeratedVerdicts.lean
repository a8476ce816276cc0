import CnfSolver.Proofs.BinaryCounter
import CnfSolver.Proofs.FrequencyOrder

/-!
# Verdicts by enumeration

Every assignment of the variables has a number, its values being the bits.
Enumeration stops at the first number from its start on that satisfies the clauses,
and says that there is none only after the last number. A zero is true under no
number, so the verdict is that of the clauses without their zeros.
-/

namespace CnfSolver

/-- What a verdict says on the question whether something exists. A search that was
stopped says nothing. -/
def Verdict.Settles (exists? : Prop) : Verdict → Prop
  | .satisfiable _ => exists?
  | .unsatisfiable => ¬exists?
  | .stopped _ => False

/-! ## Numbers as assignments -/

/-- Each assignment agrees with a number on the variables from one to `numVars`. -/
theorem exists_ofNumber (assignment : Assignment) (numVars : Nat) :
    ∃ number < 2 ^ numVars, ∀ var, 0 < var → var ≤ numVars →
      Assignment.ofNumber number var = assignment var := by
  refine ⟨Nat.ofBits fun bit : Fin numVars => assignment (bit + 1), Nat.ofBits_lt_two_pow _, ?_⟩
  intro var positive inside
  have isBit : var - 1 < numVars := by omega
  unfold Assignment.ofNumber
  rw [Nat.testBit_ofBits_lt _ _ isBit]
  exact congrArg assignment (Nat.sub_add_cancel positive)

theorem map_withoutZeros_eq_self {clauses : List (List Int)}
    (noZeros : ∀ clause ∈ clauses, 0 ∉ clause) : clauses.map withoutZeros = clauses := by
  conv_rhs => rw [← List.map_id clauses]
  exact List.map_congr_left fun clause member => withoutZeros_eq_self (noZeros clause member)

namespace Formula

/-- The assignment with the given number makes a literal of every clause true. Zero and
literals on variables above `numVars` count as false. -/
def SatisfiedByNumber (formula : Formula) (number : Nat) : Prop :=
  ∀ clause ∈ formula.clauses, ∃ literal ∈ clause, literal ≠ 0 ∧ literal.natAbs ≤ formula.numVars ∧
    (Assignment.ofNumber number).Holds literal

theorem satisfiedBy_iff {formula : Formula} {counter : Counter}
    (width : counter.width = formula.numVars) :
    formula.satisfiedBy counter = true ↔ formula.SatisfiedByNumber counter.number := by
  simp only [satisfiedBy, SatisfiedByNumber, List.all_eq_true, List.any_eq_true,
    Counter.satisfies_iff, width]

theorem satisfiedByNumber_iff {numVars number : Nat} {clauses : List (List Int)} :
    (ofClauses numVars clauses).SatisfiedByNumber number ↔
      (Assignment.ofNumber number).SatisfiesAll (clauses.map withoutZeros) := by
  simp only [SatisfiedByNumber, Assignment.SatisfiesAll, Assignment.Satisfies, List.forall_mem_map,
    mem_withoutZeros]
  constructor
  · intro satisfied clause member
    obtain ⟨literal, isLiteral, nonzero, _, holds⟩ := satisfied clause member
    exact ⟨literal, ⟨isLiteral, nonzero⟩, holds⟩
  · intro satisfied clause member
    obtain ⟨literal, ⟨isLiteral, nonzero⟩, holds⟩ := satisfied clause member
    exact ⟨literal, isLiteral, nonzero, natAbs_le_numVars numVars member isLiteral, holds⟩

/-- Some number satisfies the clauses if some assignment does. -/
theorem exists_satisfiedByNumber (numVars : Nat) {clauses : List (List Int)}
    {assignment : Assignment} (model : assignment.SatisfiesAll (clauses.map withoutZeros)) :
    ∃ number < 2 ^ (ofClauses numVars clauses).numVars,
      (ofClauses numVars clauses).SatisfiedByNumber number := by
  obtain ⟨number, inside, agrees⟩ := exists_ofNumber assignment (ofClauses numVars clauses).numVars
  refine ⟨number, inside, satisfiedByNumber_iff.mpr ?_⟩
  intro handed isHanded
  obtain ⟨clause, member, rfl⟩ := List.mem_map.mp isHanded
  obtain ⟨literal, isLiteral, holds⟩ := model _ isHanded
  obtain ⟨isGiven, nonzero⟩ := mem_withoutZeros.mp isLiteral
  have bounded := natAbs_le_numVars numVars member isGiven
  refine ⟨literal, isLiteral, ?_⟩
  unfold Assignment.Holds
  rw [agrees _ (Int.natAbs_pos.mpr nonzero) bounded]
  exact holds

/-! ## The enumeration -/

/-- What trying the numbers from `number` on comes to: the first one that satisfies the
clauses, with its assignment as the model, or none. The first component is the number
of the last assignment that was tried, and one more. -/
inductive Enumerates (formula : Formula) (number : Nat) : Nat × Verdict → Prop where
  | found {first : Nat} {model : Model} :
      number ≤ first → first < 2 ^ formula.numVars → formula.SatisfiedByNumber first →
      (∀ other, number ≤ other → other < first → ¬formula.SatisfiedByNumber other) →
      model.toList = literalsOfNumber formula.numVars first →
      Enumerates formula number (first + 1, .satisfiable model)
  | exhausted :
      (∀ other, number ≤ other → other < 2 ^ formula.numVars →
        ¬formula.SatisfiedByNumber other) →
      Enumerates formula number (2 ^ formula.numVars, .unsatisfiable)

/-- A number that does not satisfy the clauses may be tried first. -/
theorem Enumerates.cons {formula : Formula} {number : Nat} {result : Nat × Verdict}
    (enumerates : formula.Enumerates (number + 1) result)
    (fails : ¬formula.SatisfiedByNumber number) : formula.Enumerates number result := by
  cases enumerates with
  | found after inside satisfied earlier listed =>
    refine .found (by omega) inside satisfied (fun other notBefore before => ?_) listed
    rcases Nat.eq_or_lt_of_le notBefore with rfl | later
    · exact fails
    · exact earlier other later before
  | exhausted none =>
    refine .exhausted fun other notBefore before => ?_
    rcases Nat.eq_or_lt_of_le notBefore with rfl | later
    · exact fails
    · exact none other later before

/-- The counter goes through the numbers from its own on, and its number counts the
assignments that have been tried. -/
theorem enumerates_enumerate (formula : Formula) {counter : Counter}
    (width : counter.width = formula.numVars) {tried : Nat} (counts : counter.number = tried) :
    formula.Enumerates tried (formula.enumerate none tried counter) := by
  have inside := counter.number_lt
  rw [width] at inside
  fun_induction enumerate formula none tried counter with
  | case1 tried counter limit reached => cases reached
  | case2 tried counter free satisfied =>
    subst counts
    apply Enumerates.found (Nat.le_refl _) inside ((satisfiedBy_iff width).mp satisfied)
    · intro other notBefore before
      omega
    · rw [counter.toList_model, width]
  | case3 tried counter free fails full =>
    subst counts
    rw [Counter.increment?_eq_none_iff, width] at full
    rw [full]
    apply Enumerates.exhausted
    intro other notBefore before
    obtain rfl : other = counter.number := by omega
    exact fun satisfied => fails ((satisfiedBy_iff width).mpr satisfied)
  | case4 tried counter free fails next incremented ih =>
    subst counts
    obtain ⟨nextNumber, nextWidth⟩ := Counter.number_increment? incremented
    have nextInside := next.number_lt
    rw [nextWidth, width] at nextInside
    apply (ih (nextWidth.trans width) nextNumber nextInside).cons
    exact fun satisfied => fails ((satisfiedBy_iff width).mpr satisfied)

theorem enumerates_enumerateAll (formula : Formula) :
    formula.Enumerates 0 (formula.enumerateAll none) :=
  formula.enumerates_enumerate (Counter.width_zero _) (Counter.number_zero _)

/-- Without a limit, enumeration tells whether an assignment satisfies the clauses,
the zeros left out. -/
theorem settles_enumerateAll (numVars : Nat) (clauses : List (List Int)) :
    ((ofClauses numVars clauses).enumerateAll none).2.Settles
      (∃ assignment : Assignment, assignment.SatisfiesAll (clauses.map withoutZeros)) := by
  have enumerates := (ofClauses numVars clauses).enumerates_enumerateAll
  generalize (ofClauses numVars clauses).enumerateAll none = result at enumerates ⊢
  cases enumerates with
  | found _ _ satisfied _ => exact ⟨_, satisfiedByNumber_iff.mp satisfied⟩
  | exhausted none =>
    rintro ⟨assignment, model⟩
    obtain ⟨number, inside, satisfied⟩ := exists_satisfiedByNumber numVars model
    exact none number (Nat.zero_le _) inside satisfied

end Formula

end CnfSolver

import CnfSolver.Formula

/-!
# The meaning of clauses

A total assignment gives every variable a value. It satisfies a clause if it makes
one of the literals true, and a list of clauses if it satisfies each of them.
-/

namespace CnfSolver

theorem polarity_neg {signed : Int} (nonzero : signed ≠ 0) :
    polarity (-signed) = !polarity signed := by
  unfold polarity
  rw [← decide_not, decide_eq_decide]
  omega

/-- A value for every variable. -/
abbrev Assignment := Nat → Bool

namespace Assignment

def Holds (assignment : Assignment) (signed : Int) : Prop :=
  assignment signed.natAbs = polarity signed

/-- The assignment makes a literal of the clause true. -/
def Satisfies (assignment : Assignment) (clause : List Int) : Prop :=
  ∃ literal ∈ clause, assignment.Holds literal

def SatisfiesAll (assignment : Assignment) (clauses : List (List Int)) : Prop :=
  ∀ clause ∈ clauses, assignment.Satisfies clause

instance (assignment : Assignment) (signed : Int) : Decidable (assignment.Holds signed) :=
  inferInstanceAs (Decidable (assignment signed.natAbs = polarity signed))

instance (assignment : Assignment) (clause : List Int) :
    Decidable (assignment.Satisfies clause) :=
  inferInstanceAs (Decidable (∃ literal ∈ clause, assignment.Holds literal))

instance (assignment : Assignment) (clauses : List (List Int)) :
    Decidable (assignment.SatisfiesAll clauses) :=
  inferInstanceAs (Decidable (∀ clause ∈ clauses, assignment.Satisfies clause))

@[simp]
theorem satisfies_nil (assignment : Assignment) : ¬assignment.Satisfies [] := by
  simp [Satisfies]

@[simp]
theorem satisfies_cons {assignment : Assignment} {literal : Int} {clause : List Int} :
    assignment.Satisfies (literal :: clause) ↔
      assignment.Holds literal ∨ assignment.Satisfies clause := by
  simp [Satisfies]

/-- A clause with more literals is satisfied by more assignments. -/
theorem Satisfies.mono {assignment : Assignment} {smaller larger : List Int}
    (satisfied : assignment.Satisfies smaller) (included : ∀ literal ∈ smaller, literal ∈ larger) :
    assignment.Satisfies larger := by
  obtain ⟨literal, member, holds⟩ := satisfied
  exact ⟨literal, included literal member, holds⟩

theorem satisfiesAll_cons {assignment : Assignment} {clause : List Int}
    {clauses : List (List Int)} :
    assignment.SatisfiesAll (clause :: clauses) ↔
      assignment.Satisfies clause ∧ assignment.SatisfiesAll clauses := by
  simp [SatisfiesAll]

theorem satisfiesAll_append {assignment : Assignment} {firsts seconds : List (List Int)} :
    assignment.SatisfiesAll (firsts ++ seconds) ↔
      assignment.SatisfiesAll firsts ∧ assignment.SatisfiesAll seconds := by
  simp only [SatisfiesAll, List.mem_append]
  exact ⟨fun all => ⟨fun clause member => all clause (.inl member),
      fun clause member => all clause (.inr member)⟩,
    fun both clause member => member.elim (both.1 clause) (both.2 clause)⟩

/-- Exactly one of a literal and its complement holds, zero apart. -/
theorem holds_neg_iff {assignment : Assignment} {signed : Int} (nonzero : signed ≠ 0) :
    assignment.Holds (-signed) ↔ ¬assignment.Holds signed := by
  simp only [Holds, Int.natAbs_neg, polarity_neg nonzero]
  cases assignment signed.natAbs <;> cases polarity signed <;> simp

end Assignment

/-! ## Zeros -/

/-- The literals of a clause other than zero. -/
def withoutZeros (clause : List Int) : List Int := clause.filter fun literal => literal != 0

@[simp]
theorem mem_withoutZeros {clause : List Int} {literal : Int} :
    literal ∈ withoutZeros clause ↔ literal ∈ clause ∧ literal ≠ 0 := by
  simp [withoutZeros]

theorem withoutZeros_eq_self {clause : List Int} (noZero : 0 ∉ clause) :
    withoutZeros clause = clause := by
  apply List.filter_eq_self.mpr
  intro literal member
  have nonzero : literal ≠ 0 := fun isZero => noZero (isZero ▸ member)
  simpa using nonzero

end CnfSolver

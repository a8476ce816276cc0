import CnfSolver.Proofs.ModelLookup

/-!
# Checking a formula against listed literals

A list of literals without both signs of a variable makes true exactly the literals
that are in it. A model of the list looks them up by variable alone, so two facts
carry this: ordering the list by variable leaves no choice, since literals that tie
are the same literal, and a look-up that finds the variable finds the sign too.
-/

namespace CnfSolver

/-- A literal is determined by its variable and its polarity, zero included. -/
theorem eq_of_natAbs_of_polarity {first second : Int} (sameVar : first.natAbs = second.natAbs)
    (samePolarity : polarity first = polarity second) : first = second := by
  simp only [polarity, decide_eq_decide] at samePolarity
  omega

/-- No variable is listed with both signs. Zero has one sign only. -/
def OneSigned (literals : List Int) : Prop :=
  ∀ literal ∈ literals, -literal ∈ literals → literal = 0

instance (literals : List Int) : Decidable (OneSigned literals) :=
  inferInstanceAs (Decidable (∀ literal ∈ literals, -literal ∈ literals → literal = 0))

theorem OneSigned.eq_of_natAbs {literals : List Int} (oneSigned : OneSigned literals)
    {first second : Int} (isFirst : first ∈ literals) (isSecond : second ∈ literals)
    (sameVar : first.natAbs = second.natAbs) : first = second := by
  rcases Int.natAbs_eq_natAbs_iff.mp sameVar with same | opposite
  · exact same
  · have isZero := oneSigned second isSecond (opposite ▸ isFirst)
    omega

namespace Model

variable {literals : List Int}

/-- However ties are broken, ordering the literals by variable gives one model. -/
theorem eq_ofList_of_perm (oneSigned : OneSigned literals) {model : Model}
    (ordered : model.Ordered) (arranged : model.toList.Perm literals) :
    model = ofList literals := by
  have sameMembers : model.toList.Perm (ofList literals).toList :=
    arranged.trans (List.mergeSort_perm literals _).symm
  have sameList : model.toList = (ofList literals).toList := by
    apply sameMembers.eq_of_pairwise _ ordered (ordered_ofList literals)
    intro first second isFirst isSecond notAfter notBefore
    exact oneSigned.eq_of_natAbs (arranged.mem_iff.mp isFirst) (mem_ofList.mp isSecond)
      (Nat.le_antisymm notAfter notBefore)
  exact congrArg Model.mk (Array.toList_inj.mp sameList)

theorem value?_ofList_eq_some_iff (oneSigned : OneSigned literals) {var : Nat} {value : Bool} :
    (ofList literals).value? var = some value ↔
      ∃ literal ∈ literals, literal.natAbs = var ∧ polarity literal = value := by
  simpa only [mem_ofList] using (ordered_ofList literals).value?_eq_some_iff
    fun first isFirst second isSecond =>
      oneSigned.eq_of_natAbs (mem_ofList.mp isFirst) (mem_ofList.mp isSecond)

theorem satisfies_ofList_iff (oneSigned : OneSigned literals) {signed : Int} :
    (ofList literals).satisfies signed = true ↔ signed ∈ literals := by
  rw [satisfies, beq_iff_eq, value?_ofList_eq_some_iff oneSigned]
  constructor
  · rintro ⟨literal, member, sameVar, samePolarity⟩
    exact eq_of_natAbs_of_polarity sameVar samePolarity ▸ member
  · intro member
    exact ⟨signed, member, rfl, rfl⟩

theorem verify_ofList_iff (oneSigned : OneSigned literals) (formula : Formula) :
    formula.verify (ofList literals) = true ↔
      ∀ clause ∈ formula.clauses, ∃ literal ∈ clause, literal ∈ literals := by
  simp only [Formula.verify, List.all_eq_true, List.any_eq_true, satisfies_ofList_iff oneSigned]

/-- A list without both signs of a variable has one model, whatever its order and its
repeats. It makes the listed literals true and no others, gives a variable the polarity
of its literal, and passes a formula that has a listed literal in every clause. -/
theorem check_exact (oneSigned : OneSigned literals) :
    (∀ model : Model, model.Ordered → model.toList.Perm literals → model = ofList literals) ∧
    (∀ signed, (ofList literals).satisfies signed = true ↔ signed ∈ literals) ∧
    (∀ var value, (ofList literals).value? var = some value ↔
      ∃ literal ∈ literals, literal.natAbs = var ∧ decide (0 < literal) = value) ∧
    (∀ formula : Formula, formula.verify (ofList literals) = true ↔
      ∀ clause ∈ formula.clauses, ∃ literal ∈ clause, literal ∈ literals) :=
  ⟨fun _ ordered arranged => eq_ofList_of_perm oneSigned ordered arranged,
    fun _ => satisfies_ofList_iff oneSigned, fun _ _ => value?_ofList_eq_some_iff oneSigned,
    verify_ofList_iff oneSigned⟩

/-- A list out of order with repeats, zero, and the least literal of 32 bits. -/
theorem check_exact_repeats :
    OneSigned [-3, 1, 0, 1, 2, -2147483648, -3] ∧
    (∀ signed, (ofList [-3, 1, 0, 1, 2, -2147483648, -3]).satisfies signed = true ↔
      signed ∈ [-3, 1, 0, 1, 2, -2147483648, -3]) ∧
    (ofList [-3, 1, 0, 1, 2, -2147483648, -3]).value? 3 = some false ∧
    (Formula.mk 3 [[3, -1, 2], [5, -2147483648], [0]]).verify
      (ofList [-3, 1, 0, 1, 2, -2147483648, -3]) = true := by
  have oneSigned : OneSigned [-3, 1, 0, 1, 2, -2147483648, -3] := by decide
  obtain ⟨_, satisfies, value, verify⟩ := check_exact oneSigned
  exact ⟨oneSigned, satisfies, (value 3 false).mpr (by decide), (verify _).mpr (by decide)⟩

end Model

end CnfSolver

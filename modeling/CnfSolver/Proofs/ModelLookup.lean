import CnfSolver.Formula
import Mathlib.Data.List.Basic

/-!
# Looking up a variable in a model

The literals of a model are in order of their variables, so halving a window of
positions finds the last one whose variable is not too large. If the model has no
variable with both signs, that position answers the look-up: the model gives a
variable the value of the literal that it lists.
-/

namespace CnfSolver

namespace Model

/-- The literals are in order of their variables. -/
def Ordered (model : Model) : Prop :=
  model.toList.Pairwise fun first second => first.natAbs ≤ second.natAbs

theorem ordered_ofList (literals : List Int) : (ofList literals).Ordered := by
  have transitive : ∀ first second third : Int, decide (first.natAbs ≤ second.natAbs) = true →
      decide (second.natAbs ≤ third.natAbs) = true →
      decide (first.natAbs ≤ third.natAbs) = true := by
    simpa only [decide_eq_true_eq] using fun _ _ _ => Nat.le_trans
  have total : ∀ first second : Int, (decide (first.natAbs ≤ second.natAbs) ||
      decide (second.natAbs ≤ first.natAbs)) = true := by
    simpa only [Bool.or_eq_true, decide_eq_true_eq] using fun _ _ => Nat.le_total _ _
  have sorted := List.pairwise_mergeSort transitive total literals
  simpa [Ordered, ofList, toList] using sorted

@[simp]
theorem mem_ofList {literals : List Int} {literal : Int} :
    literal ∈ (ofList literals).toList ↔ literal ∈ literals := by
  simp [ofList, toList]

theorem Ordered.natAbs_le {model : Model} (ordered : model.Ordered) {first second : Nat}
    (notAfter : first ≤ second) {literal later : Int} (there : model.toList[first]? = some literal)
    (laterThere : model.toList[second]? = some later) : literal.natAbs ≤ later.natAbs := by
  obtain ⟨firstInside, rfl⟩ := List.getElem?_eq_some_iff.mp there
  obtain ⟨secondInside, rfl⟩ := List.getElem?_eq_some_iff.mp laterThere
  rcases Nat.eq_or_lt_of_le notAfter with rfl | before
  · exact Nat.le_refl _
  · exact List.pairwise_iff_getElem.mp ordered first second firstInside secondInside before

theorem exceeds_eq_true_iff {model : Model} {place var : Nat} :
    model.exceeds place var = true ↔
      ∃ literal, model.toList[place]? = some literal ∧ var < literal.natAbs := by
  simp [exceeds, toList, Option.any_eq_true]

/-! ## Halving the window -/

/-- The window of `size` positions from `base` on starts at a variable that is not
too large, unless it starts at the first position, and ends where the variables
become too large. -/
structure Brackets (model : Model) (var base size : Nat) : Prop where
  below : base = 0 ∨ ∃ literal, model.toList[base]? = some literal ∧ literal.natAbs ≤ var
  above : ∀ place literal, base + size ≤ place → model.toList[place]? = some literal →
    var < literal.natAbs

theorem Ordered.brackets_locate {model : Model} (ordered : model.Ordered) {var base size : Nat}
    (inside : base + size ≤ model.toList.length) (brackets : model.Brackets var base size) :
    model.Brackets var (model.locate var base size) 1 := by
  fun_induction locate model var base size with
  | case1 base size narrow =>
    exact ⟨brackets.below, fun place literal late there =>
      brackets.above place literal (by omega) there⟩
  | case2 base size wide half exceeds ih =>
    obtain ⟨middle, middleThere, tooLarge⟩ := exceeds_eq_true_iff.mp exceeds
    refine ih (by omega) ⟨brackets.below, ?_⟩
    intro place literal late there
    have notSmaller := ordered.natAbs_le (by omega) middleThere there
    omega
  | case3 base size wide half fits ih =>
    refine ih (by omega) ⟨.inr ?_, ?_⟩
    · have middleInside : base + half < model.toList.length := by omega
      refine ⟨_, List.getElem?_eq_getElem middleInside, ?_⟩
      by_contra tooLarge
      exact fits (exceeds_eq_true_iff.mpr
        ⟨_, List.getElem?_eq_getElem middleInside, by omega⟩)
    · intro place literal late there
      exact brackets.above place literal (by omega) there

/-- If a literal on the variable is listed, the position found holds one. -/
theorem Ordered.natAbs_locate {model : Model} (ordered : model.Ordered) {literal : Int}
    (member : literal ∈ model.toList) :
    ∃ found, model.toList[model.locate literal.natAbs 0 model.length]? = some found ∧
      found.natAbs = literal.natAbs := by
  have start : model.Brackets literal.natAbs 0 model.length := by
    refine ⟨.inl rfl, fun place other late there => ?_⟩
    have inside := (List.getElem?_eq_some_iff.mp there).1
    simp only [length, toList, Array.length_toList] at late inside
    omega
  have final := ordered.brackets_locate (by simp [length, toList]) start
  obtain ⟨place, there⟩ := List.getElem?_of_mem member
  have notAfter : place ≤ model.locate literal.natAbs 0 model.length := by
    by_contra after
    exact Nat.lt_irrefl _ (final.above place literal (by omega) there)
  rcases final.below with first | ⟨found, foundThere, notLarger⟩
  · rw [first] at notAfter ⊢
    obtain rfl := Nat.le_zero.mp notAfter
    exact ⟨literal, there, rfl⟩
  · exact ⟨found, foundThere,
      Nat.le_antisymm notLarger (ordered.natAbs_le notAfter there foundThere)⟩

/-! ## Values -/

/-- A model without both signs of a variable gives each variable the value of the
literal it lists. -/
theorem Ordered.value?_eq_some_iff {model : Model} (ordered : model.Ordered)
    (oneSign : ∀ first ∈ model.toList, ∀ second ∈ model.toList, first.natAbs = second.natAbs →
      first = second) {var : Nat} {value : Bool} :
    model.value? var = some value ↔
      ∃ literal ∈ model.toList, literal.natAbs = var ∧ polarity literal = value := by
  have lookUp : ∀ place : Nat, model.literals[place]? = model.toList[place]? := by
    intro place
    rw [toList, Array.getElem?_toList]
  unfold value?
  rw [lookUp]
  constructor
  · intro found
    split at found
    next literal there =>
      split at found
      next sameVar =>
        cases found
        exact ⟨literal, List.mem_of_getElem? there, sameVar, rfl⟩
      next otherVar => cases found
    next outside => cases found
  · rintro ⟨literal, member, rfl, rfl⟩
    obtain ⟨found, there, sameVar⟩ := ordered.natAbs_locate member
    obtain rfl := oneSign found (List.mem_of_getElem? there) literal member sameVar
    simp [there]

end Model

end CnfSolver

import CnfSolver.Proofs.ShadowState
import Mathlib.Data.List.Sort
import Mathlib.Order.Interval.Finset.Nat

/-!
# The canonical form of a clause

A set of literals has one list in the canonical order. Inserting the literals one by one
leads to it, and so does sorting them and then dropping the repeats, which sorting has
brought side by side. Hence clauses over the same set of literals are equal, whatever the
order and the repeats they were given in, and the positions on a variable are an interval.
-/

namespace CnfSolver

/-! ## Adjacent repeats -/

theorem eraseRepsBy_loop_eq {Element : Type} (equal : Element → Element → Bool) (last : Element)
    (rest kept : List Element) :
    List.eraseRepsBy.loop equal last rest kept =
      kept.reverse ++ List.eraseRepsBy.loop equal last rest [] := by
  induction rest generalizing last kept with
  | nil => simp [List.eraseRepsBy.loop]
  | cons head tail ih =>
    simp only [List.eraseRepsBy.loop]
    split
    next same => exact ih last kept
    next different =>
      rw [ih head (last :: kept), ih head [last]]
      simp

section Repeats

variable {Element : Type} [BEq Element] [LawfulBEq Element]

omit [LawfulBEq Element] in
theorem eraseReps_cons_cons (first second : Element) (rest : List Element) :
    (first :: second :: rest).eraseReps =
      if first == second then (first :: rest).eraseReps
      else first :: (second :: rest).eraseReps := by
  simp only [List.eraseReps, List.eraseRepsBy, List.eraseRepsBy.loop]
  split
  next same => rw [if_pos same]
  next different =>
    rw [if_neg (by simp [different]), eraseRepsBy_loop_eq]
    rfl

theorem mem_eraseReps {element : Element} (elements : List Element) :
    element ∈ elements.eraseReps ↔ element ∈ elements := by
  match elements with
  | [] => rfl
  | [only] => rfl
  | first :: second :: rest =>
    rw [eraseReps_cons_cons]
    split
    next same =>
      rw [mem_eraseReps (first :: rest)]
      simp [eq_of_beq same]
    next different =>
      rw [List.mem_cons, mem_eraseReps (second :: rest), List.mem_cons (a := element) (b := first)]
termination_by elements.length

/-- A list in order is strictly in order once its adjacent repeats are dropped. -/
theorem pairwise_eraseReps {relation : Element → Element → Prop}
    (antisymmetric : ∀ first second, relation first second → relation second first →
      first = second) (elements : List Element) (sorted : elements.Pairwise relation) :
    elements.eraseReps.Pairwise fun first second => relation first second ∧ first ≠ second := by
  match elements with
  | [] => exact .nil
  | [only] => simp [List.eraseReps, List.eraseRepsBy, List.eraseRepsBy.loop]
  | first :: second :: rest =>
    rw [eraseReps_cons_cons]
    have parts := List.pairwise_cons.mp sorted
    split
    next same =>
      refine pairwise_eraseReps antisymmetric (first :: rest) (sorted.sublist ?_)
      exact (List.sublist_cons_self second rest).cons_cons first
    next different =>
      refine List.pairwise_cons.mpr ⟨?_, pairwise_eraseReps antisymmetric (second :: rest) parts.2⟩
      intro later member
      have isLater := (mem_eraseReps (second :: rest)).mp member
      refine ⟨parts.1 later isLater, ?_⟩
      rintro rfl
      -- The first element would come back behind the second.
      rcases List.mem_cons.mp isLater with rfl | inRest
      · simp at different
      · have back := (List.pairwise_cons.mp parts.2).1 first inRest
        exact different (beq_of_eq (antisymmetric _ _ (parts.1 second List.mem_cons_self) back))
termination_by elements.length

end Repeats

/-! ## One list for each set of literals -/

theorem precedes_iff {first second : Int} :
    precedes first second = true ↔
      first.natAbs < second.natAbs ∨ first.natAbs = second.natAbs ∧ first < second := by
  simp [precedes]

/-- In the canonical order, a list of literals is determined by their set. -/
theorem eq_of_pairwise_precedes {firsts seconds : List Int}
    (firstOrdered : firsts.Pairwise fun earlier later => precedes earlier later = true)
    (secondOrdered : seconds.Pairwise fun earlier later => precedes earlier later = true)
    (sameMembers : ∀ literal, literal ∈ firsts ↔ literal ∈ seconds) : firsts = seconds := by
  have irreflexive : Std.Irrefl fun earlier later : Int => precedes earlier later = true :=
    ⟨fun literal loop => by simp [precedes] at loop⟩
  have antisymmetric : Std.Antisymm fun earlier later : Int => precedes earlier later = true :=
    ⟨fun first second before after => by
      have loop := precedes_trans before after
      simp [precedes] at loop⟩
  exact firstOrdered.eq_of_mem_iff secondOrdered sameMembers

theorem normalise_eq_normalise_iff {firsts seconds : List Int} :
    normalise firsts = normalise seconds ↔ ∀ literal, literal ∈ firsts ↔ literal ∈ seconds := by
  constructor
  · intro same literal
    rw [← mem_normalise, same, mem_normalise]
  · intro sameMembers
    apply eq_of_pairwise_precedes (pairwise_normalise firsts) (pairwise_normalise seconds)
    simpa only [mem_normalise] using sameMembers

theorem pairwise_mergeSort_precedes (literals : List Int) :
    (literals.mergeSort fun earlier later => !precedes later earlier).Pairwise
      fun earlier later => ¬precedes later earlier = true := by
  have transitive : ∀ first second third : Int, (!precedes second first) = true →
      (!precedes third second) = true → (!precedes third first) = true := by
    simp only [Bool.not_eq_true', Bool.eq_false_iff, ne_eq, precedes_iff]
    omega
  have total : ∀ first second : Int,
      (!precedes second first || !precedes first second) = true := by
    simp only [Bool.or_eq_true, Bool.not_eq_true', Bool.eq_false_iff, ne_eq, precedes_iff]
    omega
  simpa using List.pairwise_mergeSort transitive total literals

/-- Sorting and dropping adjacent repeats brings a list to canonical form. -/
theorem normalise_eq_eraseReps_mergeSort (literals : List Int) :
    normalise literals =
      (literals.mergeSort fun earlier later => !precedes later earlier).eraseReps := by
  have antisymmetric : ∀ first second : Int, ¬precedes second first = true →
      ¬precedes first second = true → first = second := by
    intro first second notAfter notBefore
    by_contra different
    exact notBefore (precedes_of_not_precedes (Ne.symm different) notAfter)
  have strict := pairwise_eraseReps antisymmetric _ (pairwise_mergeSort_precedes literals)
  apply eq_of_pairwise_precedes (pairwise_normalise literals)
  · exact strict.imp fun both => precedes_of_not_precedes (Ne.symm both.2) both.1
  · intro literal
    rw [mem_normalise, mem_eraseReps, List.mem_mergeSort]

namespace Clause

/-- In canonical form, the list of literals is determined by their set. -/
theorem Canonical.literals_eq_iff {first second : Clause} (isFirst : first.Canonical)
    (isSecond : second.Canonical) :
    first.literals = second.literals ↔
      ∀ literal, literal ∈ first.literals ↔ literal ∈ second.literals := by
  rw [← normalise_eq_normalise_iff, isFirst, isSecond]

/-! ## The places of a variable -/

/-- The places of the positions on a variable. -/
def span (clause : Clause) (var : Nat) : Finset Nat :=
  let cut := clause.cut var
  Finset.Ico cut.before.length (cut.before.length + cut.own.length)

theorem Ordered.mem_span_iff {clause : Clause} (ordered : clause.Ordered) {var place : Nat} :
    place ∈ clause.span var ↔
      ∃ literal, clause.literals[place]? = some literal ∧ literal.natAbs = var := by
  have lookUp : clause.literals[place]? =
      (((clause.cut var).before ++ (clause.cut var).own ++ (clause.cut var).after)[place]?).map
        Slot.literal := by
    rw [clause.cut_append, literals, List.getElem?_map]
  rw [lookUp, span, Finset.mem_Ico]
  constructor
  · rintro ⟨notBefore, inside⟩
    have isOwn : place - (clause.cut var).before.length < (clause.cut var).own.length := by omega
    refine ⟨_, ?_, var_eq_of_mem_own (List.getElem_mem isOwn)⟩
    rw [List.append_assoc, List.getElem?_append_right notBefore, List.getElem?_append_left isOwn,
      List.getElem?_eq_getElem isOwn, Option.map_some]
  · rintro ⟨literal, found, sameVar⟩
    obtain ⟨slot, there, rfl⟩ := Option.map_eq_some_iff.mp found
    constructor
    · by_contra before
      rw [List.append_assoc, List.getElem?_append_left (Nat.lt_of_not_le before)] at there
      exact (var_lt_of_mem_before (List.mem_of_getElem? there)).ne sameVar
    · by_contra beyond
      rw [List.getElem?_append_right (by rw [List.length_append]; omega)] at there
      exact (ordered.var_lt_of_mem_after (List.mem_of_getElem? there)).ne' sameVar

/-- A new clause holds the given literals sorted and without repeats, which is the only
strictly increasing way to list them. So clauses are equal if they were given the same set
of literals. The span of a variable is where its literals are. -/
theorem normalisation_canonical (first second : List Int) :
    (ofList first).literals =
      (first.mergeSort fun earlier later => !precedes later earlier).eraseReps ∧
    ((ofList first).literals.Pairwise fun earlier later =>
      earlier.natAbs < later.natAbs ∨ earlier.natAbs = later.natAbs ∧ earlier < later) ∧
    (∀ literal, literal ∈ (ofList first).literals ↔ literal ∈ first) ∧
    ofList (ofList first).literals = ofList first ∧
    ((ofList first).sameLiterals (ofList second) = true ↔
      ∀ literal, literal ∈ first ↔ literal ∈ second) ∧
    ∀ var : Nat,
      (∀ place, place ∈ (ofList first).span var ↔ ∃ literal,
        (ofList first).literals[place]? = some literal ∧ (literal = var ∨ literal = -var)) ∧
      ((ofList first).mentions var = true ↔ (var : Int) ∈ first ∨ -(var : Int) ∈ first) := by
  have canonical := canonical_ofList first
  refine ⟨?_, canonical.pairwise.imp precedes_iff.mp, ?_, ?_, ?_, fun var => ⟨fun place => ?_, ?_⟩⟩
  · rw [literals_ofList, normalise_eq_eraseReps_mergeSort]
  · simp
  · rw [literals_ofList, ofList, normalise_of_pairwise (pairwise_normalise first)]
    rfl
  · rw [sameLiterals, beq_iff_eq, literals_ofList, literals_ofList, normalise_eq_normalise_iff]
  · simp only [canonical.ordered.mem_span_iff, Int.natAbs_eq_iff]
  · simp [canonical.ordered.mentions_iff, Int.natAbs_eq_iff, and_or_left, exists_or]

/-- Zero comes first, the negative literal of a variable before the positive one, and the
least literal of 32 bits last. -/
example : (ofList [3, -2147483648, 1, 0, 3, -1]).literals = [0, -1, 1, 3, -2147483648] := by
  decide

end Clause

end CnfSolver

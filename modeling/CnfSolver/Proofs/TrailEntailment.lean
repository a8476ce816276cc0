import CnfSolver.Proofs.PreparedSearch

/-!
# Every entry of a trail is entailed

With an order that covers the formula, the trail is entailed by the clauses of the
formula at every state of a run, not only at its nodes. Unwinding may drop open
decisions whose second value was never tried. It does so only on the way to an
earlier decision, and then no model of the formula follows the open decisions up to
that one.
-/

namespace CnfSolver

/-- No model of the clauses follows the open decisions among the entries. -/
def Refuted (clauses : List (List Int)) (entries : List Literal) : Prop :=
  ∀ assignment : Assignment, assignment.SatisfiesAll clauses →
    ¬assignment.Follows (entries.filter Literal.isOpenDecision)

namespace Search

/-- Unwinding replaced the open decision at place `cut` by its second branch. -/
def TurnsAt (visited unwound : Search) (cut : Nat) : Prop :=
  ∃ var, visited.workspace.trail.toList[cut]? = some (.decision var false) ∧
    unwound.workspace.trail.toList =
      visited.workspace.trail.toList.take cut ++ [.secondBranch var true]

variable {base : List (List Int)} {search : Search}

theorem Grounded.along_visits (grounded : search.Grounded base) {visited : Search}
    {outcome : Step} (visits : search.Visits visited outcome) :
    Along (Entailed base) visited.workspace.trail.toList := by
  rcases visits.trail_cases with ⟨_, same⟩ | ⟨var, _, _, decided⟩
  · rw [same]
    exact grounded.entailed_propagated
  · rw [decided, along_concat]
    refine ⟨grounded.entailed_propagated, ?_⟩
    intro notDecision
    cases notDecision

theorem Grounded.along_unwound (grounded : search.Grounded base) {visited unwound : Search}
    {signal : Signal} {flipped : Bool} (fails : search.Fails visited signal)
    (result : visited.unwind signal = .ok (unwound, flipped)) :
    Along (Entailed base) unwound.workspace.trail.toList := by
  obtain ⟨count, node, isNode, stepped⟩ := fails
  have nodeGrounded := grounded.node? isNode
  cases flipped with
  | true =>
    have goesOn : node.next? = some unwound := by
      unfold Search.next?
      rw [stepped]
      dsimp only
      rw [result]
    exact (nodeGrounded.next? goesOn).entailed
  | false =>
    rcases (nodeGrounded.framed.visits (visits_of_step stepped)).unwind_cases result with
      ⟨impossible, _⟩ | ⟨_, _, _, emptied⟩
    · cases impossible
    · rw [emptied]
      exact along_nil

theorem Grounded.along_passes (grounded : search.Grounded base) {state : Search}
    (passes : search.Passes state) : Along (Entailed base) state.workspace.trail.toList := by
  cases passes with
  | node isNode => exact (grounded.node? isNode).entailed
  | entered isNode =>
    rw [(grounded.node? isNode).synced.trail_enter]
    exact (grounded.node? isNode).entailed
  | propagated isNode => exact (grounded.node? isNode).entailed_propagated
  | visited isNode stepped => exact (grounded.node? isNode).along_visits (visits_of_step stepped)
  | unwound fails result => exact grounded.along_unwound fails result

theorem Grounded.refuted_of_lost (grounded : search.Grounded base) {visited unwound : Search}
    {signal : Signal} {flipped : Bool} (fails : search.Fails visited signal)
    (result : visited.unwind signal = .ok (unwound, flipped)) {place : Nat} {decision : Literal}
    (there : visited.workspace.trail.toList[place]? = some decision)
    (isDecision : decision.isOpenDecision = true)
    (lost : unwound.workspace.trail.toList[place]? ≠ some decision) :
    ∃ cut ≤ place, visited.TurnsAt unwound cut ∧
      Refuted base (visited.workspace.trail.toList.take (cut + 1)) := by
  obtain ⟨count, node, isNode, stepped⟩ := fails
  have nodeGrounded := grounded.node? isNode
  have refutes := nodeGrounded.refutes (visits_of_step stepped)
  have consistent := nodeGrounded.toConsistent.visits (visits_of_step stepped)
  rcases consistent.framed.unwind_cases result with
    ⟨_, dropped, frame, rest, parts, passed, onFirst, flips, _, toList⟩ | ⟨_, passed, _⟩
  · refine ⟨frame.position, ?_, ⟨frame.var, onFirst, toList⟩, ?_⟩
    · by_contra early
      apply lost
      have inside : frame.position < visited.workspace.trail.toList.length :=
        (List.getElem?_eq_some_iff.mp onFirst).1
      rw [toList, List.getElem?_append_left (by simp; omega), List.getElem?_take,
        if_pos (by omega)]
      exact there
    · intro assignment model
      exact consistent.not_follows_first_branch refutes parts passed onFirst flips model
  · have closed := consistent.framed.not_isOpenDecision_of_passedBy refutes passed there
    rw [isDecision] at closed
    cases closed

end Search

namespace Branching

/-- Every entry of the trail other than an open decision is true in all models that
follow the open decisions before it. Where unwinding gives up an open decision, it
turns that one or an earlier one, and no model follows the open decisions up to the
one it turns. -/
theorem trail_entailed (numVars : Nat) {clauses : List (List Int)}
    (proper : ProperClauses clauses) (settings : Settings) {order : BranchOrder}
    (covers : order.Covers clauses) :
    (∀ state, (withOrder (.ofClauses numVars clauses) settings order).Passes state →
      Along (Entailed clauses) state.workspace.trail.toList) ∧
    ∀ visited signal unwound flipped,
      (withOrder (.ofClauses numVars clauses) settings order).Fails visited signal →
      visited.unwind signal = .ok (unwound, flipped) →
      ∀ (place : Nat) (decision : Literal),
        visited.workspace.trail.toList[place]? = some decision →
        decision.isOpenDecision = true →
        unwound.workspace.trail.toList[place]? ≠ some decision →
        ∃ cut ≤ place, visited.TurnsAt unwound cut ∧
          Refuted clauses (visited.workspace.trail.toList.take (cut + 1)) := by
  constructor
  · rintro state ⟨prepared, isPrepared, passes⟩ earlier entry initial notDecision assignment model
    obtain ⟨⟨base, starts⟩, rfl⟩ := startsFrom_of_prepare proper isPrepared
    exact (starts.grounded covers).along_passes passes earlier entry initial notDecision assignment
      ((starts.models assignment).mpr model)
  · rintro visited signal unwound flipped ⟨prepared, isPrepared, fails⟩ result place decision there
      isDecision lost
    obtain ⟨⟨base, starts⟩, rfl⟩ := startsFrom_of_prepare proper isPrepared
    obtain ⟨cut, early, turns, refuted⟩ :=
      (starts.grounded covers).refuted_of_lost fails result there isDecision lost
    refine ⟨cut, early, turns, ?_⟩
    intro assignment model
    exact refuted assignment ((starts.models assignment).mpr model)

/-- The open decision on the second variable is given up for a turn at the first. -/
theorem trail_entailed_skipping :
    ∃ visited unwound, (withOrder
        (.ofClauses 7 [[4, -5], [1, 5, 6], [1, 5, -6], [1, -5, 7], [1, -5, -7]])
        { preprocessing := false, learning := { minLength := 1 } }
        ⟨[1, 2, 3, 4, 5, 6, 7]⟩).Fails visited (.backjump 1) ∧
      visited.workspace.trail.toList =
        [.decision 1 false, .decision 2 false, .secondBranch 3 true] ∧
      visited.unwind (.backjump 1) = .ok (unwound, true) ∧
      unwound.workspace.trail.toList = [.secondBranch 1 true] ∧
      Along (Entailed [[4, -5], [1, 5, 6], [1, 5, -6], [1, -5, 7], [1, -5, -7]])
        visited.workspace.trail.toList ∧
      ∃ cut ≤ 1, visited.TurnsAt unwound cut ∧
        Refuted [[4, -5], [1, 5, 6], [1, 5, -6], [1, -5, 7], [1, -5, -7]]
          (visited.workspace.trail.toList.take (cut + 1)) := by
  have answer : ((Search.start
      (.ofClauses 7 [[4, -5], [1, 5, 6], [1, 5, -6], [1, -5, 7], [1, -5, -7]])
      { preprocessing := false, learning := { minLength := 1 } }
      ⟨[1, 2, 3, 4, 5, 6, 7]⟩).failure? 6).map
        (fun failure => ((failure.1.workspace.trail.toList,
          (failure.1.unwind (.backjump 1)).toOption.map fun unwound =>
            (unwound.1.workspace.trail.toList, unwound.2)), failure.2)) =
      some (([.decision 1 false, .decision 2 false, .secondBranch 3 true],
        some ([.secondBranch 1 true], true)), .backjump 1) := by
    decide +kernel
  obtain ⟨visited, fails, seen⟩ := exists_fails rfl
    (fun visited => (visited.workspace.trail.toList,
      (visited.unwind (.backjump 1)).toOption.map fun unwound =>
        (unwound.1.workspace.trail.toList, unwound.2))) answer
  obtain ⟨toList, turned⟩ := Prod.mk.inj seen
  obtain ⟨unwound, result, turnedList⟩ : ∃ unwound,
      visited.unwind (.backjump 1) = .ok (unwound, true) ∧
      unwound.workspace.trail.toList = [.secondBranch 1 true] := by
    generalize visited.unwind (.backjump 1) = result at turned
    rcases result with fault | ⟨unwound, flipped⟩
    · cases turned
    · obtain ⟨turnedList, rfl⟩ := Prod.mk.inj (Option.some.inj turned)
      exact ⟨unwound, rfl, turnedList⟩
  have entailed := @trail_entailed 7
    [[4, -5], [1, 5, 6], [1, 5, -6], [1, -5, 7], [1, -5, -7]] (by decide)
    { preprocessing := false, learning := { minLength := 1 } } ⟨[1, 2, 3, 4, 5, 6, 7]⟩ (by decide)
  have lost : unwound.workspace.trail.toList[1]? ≠ some (.decision 2 false) := by
    rw [turnedList]
    decide
  have refuted := entailed.2 visited _ unwound true fails result 1 (.decision 2 false)
    (by rw [toList]; rfl) rfl lost
  obtain ⟨prepared, isPrepared, count, node, isNode, stepped⟩ := fails
  exact ⟨visited, unwound, ⟨prepared, isPrepared, count, node, isNode, stepped⟩, toList, result,
    turnedList, entailed.1 visited ⟨prepared, isPrepared, .visited isNode stepped⟩, refuted⟩

end Branching

end CnfSolver

import CnfSolver.Proofs.DecisionLimit
import CnfSolver.Proofs.Unwinding
import Mathlib.Data.List.Permutation

/-!
# Decisions and conflicts balance

Every decision opens a first branch, and every failed node counts a conflict. Unwinding
ends the first branch of the frame that takes its second one, and a backjump drops those
above it, their second branches never tried. What remains is on the trail, so at every
node there are as many decisions as conflicts, open decisions and dropped ones together.
A search that is exhausted had no open decision left for its last conflict.
-/

namespace CnfSolver

/-! ## First branches are open decisions -/

/-- The frames of a trail that are on their first branch stand for its open decisions. -/
theorem countP_framesOf {entries : List Literal}
    (values : ∀ entry ∈ entries, entry.isOpenDecision = true → entry.value = false) :
    (framesOf entries).countP
        (fun frame => entries[frame.position]? = some (.decision frame.var false)) =
      entries.countP Literal.isOpenDecision := by
  induction entries using List.reverseRecOn with
  | nil => rfl
  | append_singleton earlier entry ih =>
    -- The frames of the earlier entries do not look at the last one.
    have before := ih fun other member => values other (List.mem_append_left _ member)
    have same : (framesOf earlier).countP (fun frame =>
          (earlier ++ [entry])[frame.position]? = some (.decision frame.var false)) =
        (framesOf earlier).countP fun frame =>
          earlier[frame.position]? = some (.decision frame.var false) := by
      apply List.countP_congr
      intro frame member
      rw [List.getElem?_append_left (position_lt_of_mem_framesOf member)]
    have isFalse := values entry List.mem_concat_self
    obtain ⟨var, value, origin⟩ := entry
    rw [framesOf_concat, List.countP_append]
    cases origin with
    | forced =>
      rw [if_pos rfl, same, before]
      rfl
    | secondBranch =>
      rw [if_neg Origin.noConfusion, List.countP_cons, same, before, List.getElem?_concat_length]
      simp [Literal.decision, Literal.isOpenDecision]
    | openDecision =>
      obtain rfl : value = false := isFalse rfl
      rw [if_neg Origin.noConfusion, List.countP_cons, same, before, List.getElem?_concat_length]
      simp [Literal.decision, Literal.isOpenDecision]

namespace Search

variable {search : Search}

instance (search : Search) (frame : Frame) : Decidable (search.OnFirstBranch frame) :=
  inferInstanceAs (Decidable (_ = _))

def openDecisions (search : Search) : Nat :=
  search.workspace.trail.toList.countP Literal.isOpenDecision

/-- The frames that a signal passes by on its way to the one it is meant for. -/
def passedFrames (search : Search) (signal : Signal) : List Frame :=
  search.frames.takeWhile fun frame => !(search.OnFirstBranch frame && signal.flips frame.var)

/-- The number of open decisions that a signal drops. -/
def skipped (search : Search) (signal : Signal) : Nat :=
  (search.passedFrames signal).countP fun frame => search.OnFirstBranch frame

/-- The number of open decisions that are dropped before node number `count`. -/
def skippedBefore (search : Search) : Nat → Nat
  | 0 => 0
  | count + 1 =>
      match search.failure? count with
      | some (visited, signal) => search.skippedBefore count + visited.skipped signal
      | none => search.skippedBefore count

theorem Framed.countP_frames (framed : search.Framed) :
    search.frames.countP (fun frame => search.OnFirstBranch frame) = search.openDecisions := by
  rw [framed.frames]
  exact countP_framesOf framed.values

/-- The frames behind a frame stand for the open decisions before its position. -/
theorem Framed.countP_rest (framed : search.Framed) {dropped rest : List Frame} {frame : Frame}
    (parts : search.frames = dropped ++ frame :: rest) :
    rest.countP (fun other => search.OnFirstBranch other) =
      (search.workspace.trail.toList.take frame.position).countP Literal.isOpenDecision := by
  rw [← countP_framesOf fun entry member => framed.values entry (List.mem_of_mem_take member),
    framed.framesOf_take parts]
  apply List.countP_congr
  intro other member
  rw [← framed.framesOf_take parts] at member
  have early := position_lt_of_mem_framesOf member
  rw [List.length_take, Nat.lt_min] at early
  rw [List.getElem?_take_of_lt early.1]
  exact Iff.rfl

/-! ## Unwinding -/

theorem not_onFirstBranch_of_passedBy {signal : Signal} {frame : Frame}
    (passed : PassedBy search.workspace.trail.toList signal frame)
    (flips : signal.flips frame.var = true) : ¬search.OnFirstBranch frame := by
  intro onFirst
  have isDecision : (Literal.decision frame.var false).isOpenDecision = true := rfl
  exact not_passedBy onFirst isDecision flips passed

theorem passedFrames_eq {signal : Signal} {dropped rest : List Frame} {frame : Frame}
    (parts : search.frames = dropped ++ frame :: rest)
    (passed : ∀ other ∈ dropped, PassedBy search.workspace.trail.toList signal other)
    (onFirst : search.OnFirstBranch frame) (flips : signal.flips frame.var = true) :
    search.passedFrames signal = dropped := by
  unfold passedFrames
  rw [parts, List.takeWhile_append_of_pos, List.takeWhile_cons_of_neg, List.append_nil]
  · simp [onFirst, flips]
  · intro other member
    have passes := not_onFirstBranch_of_passedBy (passed other member)
    cases isTarget : signal.flips other.var with
    | false => simp
    | true => simp [passes isTarget]

/-- The open decisions before unwinding are those that are dropped, the one whose second
branch is tried, and those that are left. -/
theorem Framed.openDecisions_unwind (framed : search.Framed) {signal : Signal}
    {unwound : Search} (result : search.unwind signal = .ok (unwound, true)) :
    search.openDecisions = search.skipped signal + 1 + unwound.openDecisions := by
  rcases framed.unwind_cases result with
    ⟨_, dropped, frame, rest, parts, passed, onFirst, flips, _, toList⟩ | ⟨impossible, _⟩
  · have behind := framed.countP_rest parts
    have left : unwound.openDecisions =
        (search.workspace.trail.toList.take frame.position).countP Literal.isOpenDecision := by
      rw [openDecisions, toList, List.countP_append]
      rfl
    rw [skipped, passedFrames_eq parts passed onFirst flips, left, ← behind,
      ← framed.countP_frames, parts, List.countP_append, List.countP_cons_of_pos (by simpa)]
    omega
  · cases impossible

/-- An abort takes the first frame on its first branch, so it drops no open decision. -/
theorem skipped_abort (search : Search) : search.skipped .abort = 0 := by
  rw [skipped, List.countP_eq_zero]
  intro frame member
  simpa [Signal.flips] using List.mem_takeWhile_imp member

/-! ## One node -/

/-- The decisions, as far as `dropped` of them were dropped before. -/
def Balanced (search : Search) (dropped : Nat) : Prop :=
  search.decisions = search.conflicts + search.openDecisions + dropped

theorem conflicts_propagated (search : Search) : search.propagated.conflicts = search.conflicts :=
  congrArg (fun counters => counters.2.1) search.counters_enter

theorem conflicts_push (search : Search) (literal : Literal) :
    (search.push literal).conflicts = search.conflicts :=
  congrArg (fun counters => counters.2.1) (search.counters_push literal)

theorem conflicts_unwind {unwound : Search} {signal : Signal} {flipped : Bool}
    (result : search.unwind signal = .ok (unwound, flipped)) :
    unwound.conflicts = search.conflicts :=
  congrArg (fun counters => counters.2.1) (counters_unwind result)

theorem Synced.openDecisions_propagated (synced : search.Synced) :
    search.propagated.openDecisions = search.openDecisions := by
  obtain ⟨forced, toList, tags⟩ := synced.toList_propagated
  have none : forced.countP Literal.isOpenDecision = 0 := by
    rw [List.countP_eq_zero]
    intro entry member
    rw [Literal.isOpenDecision_of_forced (tags entry member)]
    exact Bool.false_ne_true
  rw [openDecisions, toList, List.countP_append, none]
  rfl

theorem Visits.openDecisions (synced : search.Synced) {visited : Search} {outcome : Step}
    (visits : search.Visits visited outcome) :
    visited.openDecisions = search.openDecisions + if outcome = .descended then 1 else 0 := by
  rw [← synced.openDecisions_propagated]
  rcases visits.trail_cases with ⟨notDescended, same⟩ | ⟨var, rfl, _, toList⟩
  · rw [if_neg notDescended, Search.openDecisions, same]
    rfl
  · rw [if_pos rfl, Search.openDecisions, toList, List.countP_append]
    rfl

theorem Visits.conflicts {visited : Search} {outcome : Step}
    (visits : search.Visits visited outcome) (notFailed : ∀ signal, outcome ≠ .failed signal) :
    visited.conflicts = search.conflicts := by
  have same := search.conflicts_propagated
  cases visits with
  | satisfied => exact same
  | stuck => exact absurd rfl (notFailed .abort)
  | stopped => exact same
  | decided =>
    rw [decideVar, conflicts_push]
    exact same
  | conflicting => exact absurd rfl (notFailed _)
  | falsified => exact absurd rfl (notFailed .abort)

/-- Every failed node counts a conflict: none of them fails for want of a variable. -/
theorem Grounded.conflicts_of_failed {base : List (List Int)} (grounded : search.Grounded base)
    {visited : Search} {signal : Signal} (visits : search.Visits visited (.failed signal)) :
    visited.conflicts = search.conflicts + 1 := by
  cases visits with
  | stuck settled unsatisfied finished =>
    exact absurd finished (grounded.next?_ne_none settled unsatisfied)
  | conflicting => rfl
  | falsified => rfl

theorem Balanced.visits {dropped : Nat} (balanced : search.Balanced dropped)
    (synced : search.Synced) {visited : Search} {outcome : Step}
    (visits : search.Visits visited outcome) (notFailed : ∀ signal, outcome ≠ .failed signal) :
    visited.Balanced dropped := by
  have openDecisions := visits.openDecisions synced
  have decisions := visits.decisions
  have conflicts := visits.conflicts notFailed
  unfold Balanced at *
  omega

/-- A failed node has one conflict too many. -/
theorem Balanced.failed {dropped : Nat} (balanced : search.Balanced dropped)
    {base : List (List Int)} (grounded : search.Grounded base) {visited : Search}
    {signal : Signal} (visits : search.Visits visited (.failed signal)) :
    visited.decisions + 1 = visited.conflicts + visited.openDecisions + dropped := by
  have openDecisions : visited.openDecisions = search.openDecisions :=
    visits.openDecisions grounded.synced
  have decisions : visited.decisions = search.decisions := visits.decisions
  have conflicts := grounded.conflicts_of_failed visits
  unfold Balanced at balanced
  omega

/-! ## Whole runs -/

theorem skippedBefore_of_descended {count : Nat} {node visited : Search}
    (isNode : search.node? count = some node)
    (stepped : node.step = .ok (visited, .descended)) :
    search.skippedBefore (count + 1) = search.skippedBefore count := by
  have goesOn : search.failure? count = none := by
    rw [failure?, isNode, Option.bind_some, stepped]
  rw [skippedBefore, goesOn]

theorem skippedBefore_of_failed {count : Nat} {node visited : Search} {signal : Signal}
    (isNode : search.node? count = some node)
    (stepped : node.step = .ok (visited, .failed signal)) :
    search.skippedBefore (count + 1) = search.skippedBefore count + visited.skipped signal := by
  have failed : search.failure? count = some (visited, signal) := by
    rw [failure?, isNode, Option.bind_some, stepped]
  rw [skippedBefore, failed]

theorem Grounded.balanced_node? {base : List (List Int)} (grounded : search.Grounded base)
    (balanced : search.Balanced 0) {count : Nat} {node : Search}
    (isNode : search.node? count = some node) : node.Balanced (search.skippedBefore count) := by
  induction count generalizing node with
  | zero =>
    cases isNode
    exact balanced
  | succ count ih =>
    obtain ⟨before, isBefore, goesOn⟩ := Option.bind_eq_some_iff.mp isNode
    have beforeGrounded := grounded.node? isBefore
    have beforeBalanced := ih isBefore
    rcases next?_cases goesOn with stepped | ⟨visited, signal, stepped, unwound⟩
    · rw [skippedBefore_of_descended isBefore stepped]
      exact beforeBalanced.visits beforeGrounded.synced (visits_of_step stepped)
        fun _ => Step.noConfusion
    · have visits := visits_of_step stepped
      -- Unwinding turns one open decision, which makes up for the conflict.
      have failed := beforeBalanced.failed beforeGrounded visits
      have openDecisions := (beforeGrounded.framed.visits visits).openDecisions_unwind unwound
      have decisions := decisions_unwind unwound
      have conflicts := conflicts_unwind unwound
      rw [skippedBefore_of_failed isBefore stepped]
      unfold Balanced
      omega

/-- A search that is exhausted leaves no open decision to its last conflict. -/
theorem Grounded.openDecisions_of_exhausted {base : List (List Int)}
    (grounded : search.Grounded base) {visited unwound : Search} {signal : Signal}
    (visits : search.Visits visited (.failed signal))
    (result : visited.unwind signal = .ok (unwound, false)) : visited.openDecisions = 0 := by
  have framed := grounded.framed.visits visits
  rcases framed.unwind_cases result with ⟨impossible, _⟩ | ⟨_, passed, _⟩
  · cases impossible
  · rw [openDecisions, List.countP_eq_zero]
    intro entry member
    obtain ⟨place, there⟩ := List.getElem?_of_mem member
    rw [framed.not_isOpenDecision_of_passedBy (grounded.refutes visits) passed there]
    exact Bool.false_ne_true

/-- How decisions and conflicts compare once there is a verdict. -/
def EndBalanced (ended : Search) (dropped : Nat) : Verdict → Prop
  | .satisfiable _ | .stopped _ => ended.Balanced dropped
  | .unsatisfiable => ended.decisions + 1 = ended.conflicts + dropped

theorem Grounded.endBalanced {base : List (List Int)} (grounded : search.Grounded base)
    {dropped : Nat} (balanced : search.Balanced dropped) {ended : Search} {verdict : Verdict}
    (ends : search.Ends ended verdict) : ended.EndBalanced dropped verdict := by
  cases ends with
  | satisfied stepped =>
    exact balanced.visits grounded.synced (visits_of_step stepped) fun _ => Step.noConfusion
  | stopped stepped =>
    exact balanced.visits grounded.synced (visits_of_step stepped) fun _ => Step.noConfusion
  | exhausted stepped unwound =>
    have visits := visits_of_step stepped
    -- The conflict that is one too many has no open decision to turn.
    have failed := balanced.failed grounded visits
    have openDecisions := grounded.openDecisions_of_exhausted visits unwound
    have decisions := decisions_unwind unwound
    have conflicts := conflicts_unwind unwound
    show ended.decisions + 1 = ended.conflicts + dropped
    omega

theorem EndBalanced.conclude {ended : Search} {dropped : Nat} {verdict : Verdict}
    (balanced : ended.EndBalanced dropped verdict) :
    (ended.conclude verdict).EndBalanced dropped verdict := by
  cases verdict <;> exact balanced

theorem Grounded.endBalanced_of_solve {base : List (List Int)} (grounded : search.Grounded base)
    (balanced : search.Balanced 0) {ended : Search} {verdict : Verdict}
    (result : search.solve = .ok (ended, verdict)) :
    ∃ count, ended.EndBalanced (search.skippedBefore count) verdict := by
  obtain ⟨count, last, final, isNode, ends, rfl⟩ := solve_ends result
  have endBalanced := (grounded.node? isNode).endBalanced (grounded.balanced_node? balanced isNode)
    ends
  exact ⟨count, endBalanced.conclude⟩

/-! ## Without learning -/

theorem Visits.signal_eq_abort {visited : Search} {signal : Signal}
    (visits : search.Visits visited (.failed signal))
    (disabled : search.settings.learning.enabled = false) : signal = .abort := by
  cases visits with
  | stuck => rfl
  | conflicting _ analysed =>
    rw [Workspace.analyse, disabled] at analysed
    exact (Prod.mk.inj analysed).2.symm
  | falsified => rfl

theorem skippedBefore_eq_zero (disabled : search.settings.learning.enabled = false)
    (count : Nat) : search.skippedBefore count = 0 := by
  induction count with
  | zero => rfl
  | succ count ih =>
    unfold skippedBefore
    split
    next visited signal failed =>
      obtain ⟨_, node, isNode, stepped⟩ := fails_of_failure? failed
      have sameSettings := settings_eq_of_parameters (parameters_node? isNode)
      obtain rfl := (visits_of_step stepped).signal_eq_abort (sameSettings ▸ disabled)
      rw [ih, skipped_abort]
    next settled => exact ih

end Search

namespace Branching

variable {formula : Formula} {settings : Settings} {order : BranchOrder}

/-- Before the first node nothing is counted. -/
theorem balanced_prepare {prepared : Branching} {refuted : Bool}
    (result : (withOrder formula settings order).prepare = .ok (prepared, refuted)) :
    prepared.search.Balanced 0 := by
  obtain ⟨lists, journal, started⟩ := started_prepare result
  rw [started]
  rfl

theorem grounded_prepare (proper : ProperClauses formula.clauses)
    (covers : order.Covers formula.clauses) {prepared : Branching}
    (result : (withOrder formula settings order).prepare = .ok (prepared, false)) :
    ∃ base, prepared.search.Grounded base := by
  obtain ⟨⟨base, starts⟩, rfl⟩ := startsFrom_of_prepare proper result
  exact ⟨base, starts.grounded covers⟩

/-- A refutation by strengthening counts nothing, and any other verdict balances. -/
theorem endBalanced_of_solve (proper : ProperClauses formula.clauses)
    (covers : order.Covers formula.clauses) {ended : Branching} {verdict : Verdict}
    (result : (withOrder formula settings order).solve = .ok (ended, verdict)) :
    (verdict = .unsatisfiable ∧ ended.search.conflicts = 0 ∧
      ∃ prepared, (withOrder formula settings order).prepare = .ok (prepared, true)) ∨
    ∃ prepared count, (withOrder formula settings order).prepare = .ok (prepared, false) ∧
      ended.search.EndBalanced (prepared.search.skippedBefore count) verdict := by
  rcases solve_cases result with ⟨rfl, prepared, refuted, ended⟩ | ⟨prepared, isPrepared, solved⟩
  · obtain ⟨lists, journal, started⟩ := started_prepare refuted
    refine .inl ⟨rfl, ?_, prepared, refuted⟩
    rw [ended, started]
    rfl
  · obtain ⟨base, grounded⟩ := grounded_prepare proper covers isPrepared
    obtain ⟨count, balanced⟩ := grounded.endBalanced_of_solve (balanced_prepare isPrepared) solved
    exact .inr ⟨prepared, count, isPrepared, balanced⟩

/-- At every node the decisions are the conflicts, the open decisions and those that were
dropped. So at the end the conflicts are at most the decisions, or one more if there is no
model. Without learning none is dropped, and a search that finds no model has exactly one
conflict more. -/
theorem decisions_balance_conflicts (numVars : Nat) {clauses : List (List Int)}
    (proper : ProperClauses clauses) (settings : Settings) :
    ∃ solver ended verdict, start (.ofClauses numVars clauses) settings = .ok solver ∧
      solver.solve = .ok (ended, verdict) ∧
      (∀ prepared, solver.prepare = .ok (prepared, false) →
        ∀ count node, prepared.search.node? count = some node →
          node.decisions =
            node.conflicts + node.openDecisions + prepared.search.skippedBefore count) ∧
      (verdict ≠ .unsatisfiable → ended.search.conflicts ≤ ended.search.decisions) ∧
      (verdict = .unsatisfiable → ended.search.conflicts ≤ ended.search.decisions + 1) ∧
      (settings.learning.enabled = false →
        (verdict ≠ .unsatisfiable →
          ended.search.decisions = ended.search.conflicts + ended.search.openDecisions) ∧
        (verdict = .unsatisfiable → ∀ prepared, solver.prepare = .ok (prepared, false) →
          ended.search.conflicts = ended.search.decisions + 1)) := by
  obtain ⟨table, started, size, _⟩ := start_ofClauses numVars clauses settings
  have properFormula : ProperClauses (Formula.ofClauses numVars clauses).clauses := proper
  have covers : (BranchOrder.ofFrequencies table).Covers
      (Formula.ofClauses numVars clauses).clauses := covers_ofFrequencies proper size
  obtain ⟨ended, verdict, result⟩ :=
    solve_ok (.ofClauses numVars clauses) settings (.ofFrequencies table)
  refine ⟨_, ended, verdict, started, result, ?_, ?_⟩
  · intro prepared isPrepared count node isNode
    obtain ⟨base, grounded⟩ := grounded_prepare properFormula covers isPrepared
    exact grounded.balanced_node? (balanced_prepare isPrepared) isNode
  · rcases endBalanced_of_solve properFormula covers result with
      ⟨rfl, none, other, refuted⟩ | ⟨prepared, count, isPrepared, balanced⟩
    · refine ⟨absurd rfl, fun _ => none.trans_le (Nat.zero_le _), fun _ => ⟨absurd rfl, ?_⟩⟩
      intro _ prepared isPrepared
      cases refuted.symm.trans isPrepared
    · have dropsNone : settings.learning.enabled = false →
          prepared.search.skippedBefore count = 0 := by
        rw [← settings_prepare isPrepared]
        exact fun disabled => Search.skippedBefore_eq_zero disabled count
      cases verdict with
      | satisfiable | stopped =>
        have equality : ended.search.decisions = ended.search.conflicts +
          ended.search.openDecisions + prepared.search.skippedBefore count := balanced
        refine ⟨fun _ => by omega, nofun, fun disabled => ⟨fun _ => ?_, nofun⟩⟩
        have none := dropsNone disabled
        omega
      | unsatisfiable =>
        have equality : ended.search.decisions + 1 =
          ended.search.conflicts + prepared.search.skippedBefore count := balanced
        refine ⟨absurd rfl, fun _ => by omega, fun disabled => ⟨absurd rfl, fun _ _ _ => ?_⟩⟩
        have none := dropsNone disabled
        omega

/-- Clauses that make a search without a lower bound on learned clauses drop a decision. -/
def skippingClauses : List (List Int) :=
  [[4, -5], [1, 5, 6], [1, 5, -6], [1, -5, 7], [1, -5, -7], [-1, 2, 3], [-1, 2, 3, 4],
    [-1, 2, -3, 4], [-1, -2, 3, 4], [-1, -2, -3, 4]]

/-- The third conflict drops the decision on the second variable. -/
theorem decisions_balance_conflicts_skipping :
    ∃ solver node, start (.ofClauses 7 skippingClauses)
        { preprocessing := false, learning := { minLength := 1 } } = .ok solver ∧
      solver.search.node? 7 = some node ∧ solver.search.skippedBefore 7 = 1 ∧
      node.conflicts = 3 ∧ node.decisions = node.conflicts + node.openDecisions + 1 := by
  have proper : ProperClauses skippingClauses := by decide
  obtain ⟨solver, _, _, started, _, balanced, _⟩ := decisions_balance_conflicts 7 proper
    { preprocessing := false, learning := { minLength := 1 } }
  have order : start (.ofClauses 7 skippingClauses)
        { preprocessing := false, learning := { minLength := 1 } } =
      .ok (withOrder (.ofClauses 7 skippingClauses)
        { preprocessing := false, learning := { minLength := 1 } } ⟨[1, 2, 3, 4, 5, 6, 7]⟩) := by
    cbv
  obtain ⟨seen, skipped⟩ : ((withOrder (.ofClauses 7 skippingClauses)
        { preprocessing := false, learning := { minLength := 1 } }
        ⟨[1, 2, 3, 4, 5, 6, 7]⟩).search.node? 7).map Search.conflicts = some 3 ∧
      (withOrder (.ofClauses 7 skippingClauses)
        { preprocessing := false, learning := { minLength := 1 } }
        ⟨[1, 2, 3, 4, 5, 6, 7]⟩).search.skippedBefore 7 = 1 := by
    decide +kernel
  obtain rfl := Except.ok.inj (order.symm.trans started)
  obtain ⟨node, isNode, conflicts⟩ := Option.map_eq_some_iff.mp seen
  refine ⟨_, node, started, isNode, skipped, conflicts, ?_⟩
  rw [balanced _ rfl 7 node isNode, skipped]

end Branching

end CnfSolver

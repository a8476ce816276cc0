import CnfSolver.Proofs.SearchPath

/-!
# Searches without a model

With an order that covers the variables of the clauses, the trail of a search
stays entailed by them. A node that fails refutes the open decisions up to the
one its signal is meant for. Unwinding turns this into the next entry of the
trail: the decision that takes its second branch is true in every model that
follows the open decisions before it. A signal that no frame takes refutes the
clauses themselves.
-/

namespace CnfSolver

/-- Every variable of the clauses is in the order. -/
def BranchOrder.Covers (order : BranchOrder) (clauses : List (List Int)) : Prop :=
  ∀ var, Mentions clauses var → var ∈ order.vars

theorem BranchOrder.covers_iff {order : BranchOrder} {clauses : List (List Int)} :
    order.Covers clauses ↔
      ∀ clause ∈ clauses, ∀ literal ∈ clause, literal.natAbs ∈ order.vars := by
  constructor
  · intro covers clause member literal isLiteral
    exact covers _ ⟨clause, member, literal, isLiteral, rfl⟩
  · rintro listed var ⟨clause, member, literal, isLiteral, rfl⟩
    exact listed clause member literal isLiteral

instance (order : BranchOrder) (clauses : List (List Int)) : Decidable (order.Covers clauses) :=
  decidable_of_iff _ BranchOrder.covers_iff.symm

theorem BranchOrder.Covers.assigns {order : BranchOrder} {clauses : List (List Int)}
    (covers : order.Covers clauses) {trail : Trail} (finished : order.next? trail = none)
    {var : Nat} (mentioned : Mentions clauses var) : trail.assigns var = true := by
  simpa using List.find?_eq_none.mp finished var (covers var mentioned)

/-- What a signal says of the trail it comes from: no model follows the open
decisions, up to the target of a backjump. -/
def Signal.Refutes (base : List (List Int)) (entries : List Literal) : Signal → Prop
  | .abort => ∀ assignment : Assignment, assignment.SatisfiesAll base →
      ¬assignment.Follows (entries.filter Literal.isOpenDecision)
  | .backjump target => ∃ earlier decision later,
      entries = earlier ++ decision :: later ∧ decision.isOpenDecision = true ∧
      decision.var = target ∧
      ∀ assignment : Assignment, assignment.SatisfiesAll base →
        ¬assignment.Follows ((earlier ++ [decision]).filter Literal.isOpenDecision)

namespace Workspace

/-! ## Failed propagation -/

theorem Aligned.not_follows_of_falsified {workspace : Workspace} (aligned : workspace.Aligned)
    {index : Nat} (scanned : workspace.scan = .falsified index) {assignment : Assignment}
    (model : assignment.SatisfiesAll workspace.database.contents) :
    ¬assignment.Follows workspace.trail.toList := by
  obtain ⟨_, clause, _, there, falsified⟩ := found_of_scan scanned
  have member := Array.mem_toList_iff.mp (List.mem_of_getElem? there)
  exact aligned.not_follows_of_isFalsified member falsified model

/-- Where complementary literals are forced, the candidate is falsified as soon as
the trail up to its last position is followed. -/
theorem Aligned.not_follows_take {workspace : Workspace} (aligned : workspace.Aligned)
    (proper : ProperClauses workspace.database.contents) {unit : Int}
    (scanned : workspace.scan = .conflict unit) {last : Nat}
    (position : (workspace.candidate unit.natAbs).lastPosition = some last)
    {assignment : Assignment} (model : assignment.SatisfiesAll workspace.database.contents) :
    ¬assignment.Follows (workspace.trail.toList.take (last + 1)) := by
  intro follows
  exact aligned.not_satisfies_candidate proper position follows
    (aligned.satisfies_candidate proper scanned model)

theorem Aligned.not_follows_of_conflict {workspace : Workspace} (aligned : workspace.Aligned)
    (proper : ProperClauses workspace.database.contents) {unit : Int}
    (scanned : workspace.scan = .conflict unit) {assignment : Assignment}
    (model : assignment.SatisfiesAll workspace.database.contents) :
    ¬assignment.Follows workspace.trail.toList := by
  intro follows
  obtain ⟨first, firstMember, firstUnit, second, secondMember, secondUnit⟩ :=
    units_of_conflict scanned
  have forces := aligned.forces_of_unit? firstMember firstUnit
  have opposite := aligned.forces_of_unit? secondMember secondUnit
  have nonzero := (forces.proper proper).1
  exact (Assignment.holds_neg_iff nonzero).mp (opposite.holds aligned model follows)
    (forces.holds aligned model follows)

/-- A scan that finds nothing leaves no clause open whose variables are all
assigned. -/
theorem Aligned.allSatisfied_of_assigns {workspace : Workspace} (aligned : workspace.Aligned)
    (scanned : workspace.scan = .units [])
    (assigned : ∀ var, Mentions workspace.database.contents var →
      workspace.trail.assigns var = true) :
    workspace.database.allSatisfied = true := by
  rw [Database.allSatisfied, Array.all_eq_true_iff_forall_mem]
  intro clause member
  have holds := (found_of_scan scanned).1 clause (Array.mem_toList_iff.mpr member)
  by_contra unsatisfied
  rw [← aligned.clause_under member] at holds unsatisfied
  apply absurd holds
  rw [Bool.not_eq_false, Clause.isFalsified_under]
  intro literal literalMember
  apply Clause.eq_some_not_of_ne
  · intro isOpen
    have isAssigned := assigned literal.natAbs
      ⟨clause.literals, Database.mem_contents member, literal, literalMember, rfl⟩
    obtain ⟨entry, entryMember, sameVar⟩ := aligned.trail.assigns_iff.mp isAssigned
    exact aligned.trail.value?_eq_none_iff.mp isOpen entry entryMember sameVar
  · intro isTrue
    exact unsatisfied (Clause.satisfied_under.mpr ⟨literal, literalMember, isTrue⟩)

end Workspace

namespace Search

/-- The search is consistent, its trail is entailed by the clauses it started from,
and its order covers them. -/
structure Grounded (base : List (List Int)) (search : Search) : Prop
    extends Consistent base search where
  entailed : Along (Entailed base) search.workspace.trail.toList
  covered : search.order.Covers base

variable {base : List (List Int)} {search : Search}

theorem Grounded.entailed_propagated (grounded : search.Grounded base) :
    Along (Entailed base) search.propagated.workspace.trail.toList := by
  refine grounded.synced.derives_propagated.along_entailed grounded.synced.aligned_enter
    grounded.toFaithful.enter.implied ?_
  rw [grounded.synced.trail_enter]
  exact grounded.entailed

/-! ## Failed nodes -/

theorem Grounded.refutes_of_analyse (grounded : search.Grounded base) {unit : Int}
    (scanned : search.propagated.workspace.scan = .conflict unit) {policy : LearningPolicy}
    {analysed : Workspace} {signal : Signal}
    (result : search.propagated.workspace.analyse policy unit.natAbs = (analysed, signal)) :
    signal.Refutes base analysed.trail.toList := by
  have aligned := grounded.synced.aligned_propagated
  have propagated := grounded.toConsistent.propagated
  have entailed := grounded.entailed_propagated
  have proper := propagated.proper_contents
  rcases Workspace.analyse_cases result with
    ⟨rfl, journal, rfl⟩ | ⟨last, target, journal, _, position, found, rfl, rfl⟩
  · intro assignment model decided
    exact aligned.not_follows_of_conflict proper scanned (propagated.implied assignment model)
      (follows_of_decisions entailed model decided)
  · obtain ⟨earlier, decision, later, taken, isDecision, sameVar, closed⟩ :=
      Trail.openDecisionUpTo?_eq_some found
    let entries := search.propagated.workspace.trail.toList
    refine ⟨earlier, decision, later ++ entries.drop (last + 1), ?_, isDecision, sameVar, ?_⟩
    · have whole := List.take_append_drop (last + 1) entries
      rw [taken, List.append_assoc, List.cons_append] at whole
      exact whole.symm
    · intro assignment model decided
      have initial := entailed.of_isPrefix (List.take_prefix (last + 1) entries)
      apply aligned.not_follows_take proper scanned position (propagated.implied assignment model)
      apply follows_of_decisions initial model
      have noneLater : later.filter Literal.isOpenDecision = [] :=
        List.filter_eq_nil_iff.mpr fun entry member => by simp [closed entry member]
      rw [taken, ← List.singleton_append, ← List.append_assoc, List.filter_append, noneLater,
        List.append_nil]
      exact decided

/-- Where propagation settles and a clause is not satisfied, a variable of the order is
open: the order covers every stored clause, so all of them would be satisfied. -/
theorem Grounded.next?_ne_none (grounded : search.Grounded base)
    (settled : search.enter.workspace.propagate.2 = .settled)
    (unsatisfied : search.propagated.workspace.database.allSatisfied = false) :
    search.order.next? search.propagated.workspace.trail ≠ none := by
  intro finished
  have ended := search.enter.workspace.propagate_outcome
  rw [settled] at ended
  have satisfied := grounded.synced.aligned_propagated.allSatisfied_of_assigns ended
    fun var mentioned =>
      grounded.covered.assigns finished (grounded.toConsistent.propagated.mentioned var mentioned)
  rw [unsatisfied] at satisfied
  cases satisfied

theorem Grounded.refutes (grounded : search.Grounded base) {visited : Search} {signal : Signal}
    (visits : search.Visits visited (.failed signal)) :
    signal.Refutes base visited.workspace.trail.toList := by
  have aligned := grounded.synced.aligned_propagated
  have propagated := grounded.toConsistent.propagated
  have entailed := grounded.entailed_propagated
  have ended := search.enter.workspace.propagate_outcome
  cases visits with
  | stuck settled unsatisfied finished =>
    exact absurd finished (grounded.next?_ne_none settled unsatisfied)
  | conflicting conflict analysed =>
    obtain ⟨unit, scanned, sameVar⟩ := scan_of_conflict conflict
    rw [sameVar] at analysed
    exact grounded.refutes_of_analyse scanned analysed
  | falsified falsified =>
    rw [falsified] at ended
    intro assignment model decided
    exact aligned.not_follows_of_falsified ended (propagated.implied assignment model)
      (follows_of_decisions entailed model decided)

/-! ## Unwinding -/

/-- The first branch of the frame that takes its second branch is refuted. -/
theorem Consistent.not_follows_first_branch (consistent : search.Consistent base)
    {signal : Signal} (refutes : signal.Refutes base search.workspace.trail.toList)
    {dropped rest : List Frame} {frame : Frame} (parts : search.frames = dropped ++ frame :: rest)
    (passed : ∀ other ∈ dropped, PassedBy search.workspace.trail.toList signal other)
    (there : search.workspace.trail.toList[frame.position]? = some (.decision frame.var false))
    (flips : signal.flips frame.var = true) {assignment : Assignment}
    (model : assignment.SatisfiesAll base) :
    ¬assignment.Follows ((search.workspace.trail.toList.take (frame.position + 1)).filter
      Literal.isOpenDecision) := by
  cases signal with
  | abort =>
    have whole := List.take_append_drop (frame.position + 1) search.workspace.trail.toList
    have refuted := refutes assignment model
    rw [← whole, List.filter_append, consistent.framed.closed_behind parts passed,
      List.append_nil] at refuted
    exact refuted
  | backjump target =>
    obtain ⟨earlier, decision, later, equality, _, sameVar, refuted⟩ := refutes
    -- The target is on the trail once, so it is the entry of the frame.
    have isTarget : target = frame.var := by simpa [Signal.flips] using flips
    have decisionPlace := (consistent.synced.trail target earlier.length).mpr
      ⟨decision, by rw [equality]; simp, sameVar⟩
    have framePlace := (consistent.synced.trail target frame.position).mpr
      ⟨_, there, isTarget.symm⟩
    rw [decisionPlace, Option.some.injEq] at framePlace
    have taken : search.workspace.trail.toList.take (frame.position + 1) =
        earlier ++ [decision] := by
      rw [equality, ← framePlace, ← List.singleton_append, ← List.append_assoc]
      exact List.take_left' (by simp)
    rw [taken]
    exact refuted assignment model

theorem Consistent.entailed_second_branch (consistent : search.Consistent base)
    {signal : Signal} (refutes : signal.Refutes base search.workspace.trail.toList)
    {dropped rest : List Frame} {frame : Frame} (parts : search.frames = dropped ++ frame :: rest)
    (passed : ∀ other ∈ dropped, PassedBy search.workspace.trail.toList signal other)
    (there : search.workspace.trail.toList[frame.position]? = some (.decision frame.var false))
    (flips : signal.flips frame.var = true) :
    Entailed base (search.workspace.trail.toList.take frame.position)
      (.secondBranch frame.var true) := by
  intro _ assignment model decided
  by_contra isFalse
  apply consistent.not_follows_first_branch refutes parts passed there flips model
  rw [List.take_add_one, there, Option.toList_some, List.filter_append, Assignment.follows_append]
  refine ⟨decided, ?_⟩
  intro other isOther
  obtain rfl := List.mem_singleton.mp (List.mem_filter.mp isOther).1
  exact Bool.eq_false_iff.mpr isFalse

/-- A signal that no frame takes finds no open decision to drop. -/
theorem Framed.not_isOpenDecision_of_passedBy (framed : search.Framed) {signal : Signal}
    (refutes : signal.Refutes base search.workspace.trail.toList)
    (passed : ∀ frame ∈ search.frames, PassedBy search.workspace.trail.toList signal frame)
    {place : Nat} {decision : Literal}
    (there : search.workspace.trail.toList[place]? = some decision) :
    decision.isOpenDecision = false := by
  rw [Bool.eq_false_iff]
  intro isDecision
  cases signal with
  | abort =>
    have isFrame := framed.mem_frames_of_isOpenDecision there isDecision
    exact not_passedBy there isDecision rfl (passed _ isFrame)
  | backjump target =>
    obtain ⟨earlier, aim, later, equality, isAim, rfl, _⟩ := refutes
    have aimThere : search.workspace.trail.toList[earlier.length]? = some aim := by
      rw [equality]
      simp
    have isFrame := framed.mem_frames_of_isOpenDecision aimThere isAim
    apply not_passedBy aimThere isAim _ (passed _ isFrame)
    simp [Signal.flips]

theorem Consistent.not_satisfiesAll_of_exhausted (consistent : search.Consistent base)
    {signal : Signal} (refutes : signal.Refutes base search.workspace.trail.toList)
    (passed : ∀ frame ∈ search.frames, PassedBy search.workspace.trail.toList signal frame)
    (assignment : Assignment) : ¬assignment.SatisfiesAll base := by
  intro model
  have closed : ∀ entry ∈ search.workspace.trail.toList, entry.isOpenDecision = false := by
    intro entry member
    obtain ⟨place, there⟩ := List.getElem?_of_mem member
    exact consistent.framed.not_isOpenDecision_of_passedBy refutes passed there
  cases signal with
  | abort =>
    apply refutes assignment model
    intro decision member
    obtain ⟨isEntry, isDecision⟩ := List.mem_filter.mp member
    rw [closed decision isEntry] at isDecision
    cases isDecision
  | backjump target =>
    obtain ⟨earlier, decision, later, equality, isDecision, _⟩ := refutes
    have isEntry : decision ∈ search.workspace.trail.toList := by
      rw [equality]
      exact List.mem_append_cons_self
    rw [closed decision isEntry] at isDecision
    cases isDecision

/-! ## Whole runs -/

theorem grounded_of_aligned (aligned : search.workspace.Aligned)
    (contents : search.workspace.database.contents = base) (proper : ProperClauses base)
    (frames : search.frames = []) (trail : search.workspace.trail.toList = [])
    (covered : search.order.Covers base) : search.Grounded base where
  toConsistent := consistent_of_aligned aligned contents proper frames trail
  entailed := by
    rw [trail]
    exact along_nil
  covered := covered

theorem Grounded.next? (grounded : search.Grounded base) {next : Search}
    (goesOn : search.next? = some next) : next.Grounded base := by
  have sameOrder := order_eq_of_parameters (parameters_next? goesOn)
  refine ⟨grounded.toConsistent.next? goesOn, ?_, sameOrder ▸ grounded.covered⟩
  rcases grounded.framed.toList_next? goesOn with
    ⟨var, _, decided⟩ |
    ⟨visited, signal, dropped, frame, rest, visits, parts, passed, there, flips, flipped⟩
  · rw [decided, along_concat]
    refine ⟨grounded.entailed_propagated, ?_⟩
    intro notDecision
    cases notDecision
  · have entailed := grounded.entailed_propagated
    rw [← visits.trail_of_failed] at entailed
    rw [flipped, along_concat]
    refine ⟨entailed.of_isPrefix (List.take_prefix _ _), ?_⟩
    exact (grounded.toConsistent.visits visits).entailed_second_branch (grounded.refutes visits)
      parts passed there flips

theorem Grounded.node? (grounded : search.Grounded base) {count : Nat} {reached : Search}
    (isNode : search.node? count = some reached) : reached.Grounded base :=
  node?_induction (Grounded base) grounded (fun _ _ before goesOn => before.next? goesOn) isNode

/-- A search that ends without a model started from clauses that have none. -/
theorem Grounded.not_satisfiesAll_of_solve (grounded : search.Grounded base) {ended : Search}
    (result : search.solve = .ok (ended, .unsatisfiable)) (assignment : Assignment) :
    ¬assignment.SatisfiesAll base := by
  obtain ⟨count, last, final, isNode, ends, _⟩ := solve_ends result
  have lastGrounded := grounded.node? isNode
  cases ends with
  | exhausted stepped unwound =>
    have visits := visits_of_step stepped
    rcases unwindFrames_cases rfl unwound with ⟨impossible, _⟩ | ⟨_, passed, _⟩
    · cases impossible
    · exact (lastGrounded.toConsistent.visits visits).not_satisfiesAll_of_exhausted
        (lastGrounded.refutes visits) passed assignment

end Search

end CnfSolver

import CnfSolver.Proofs.Entailment

/-!
# The clause learned from a conflict

Where two clauses force complementary literals, the candidate clause holds in
every model of the stored clauses, and every literal of it is false on the trail
up to the last position among its variables. So no model follows the trail that
far, and with an entailed trail none follows the open decisions that far.
-/

namespace CnfSolver

namespace Trail

/-- The decision to go back to is an open one, with no other open decision
between it and the given position. -/
theorem openDecisionUpTo?_eq_some {trail : Trail} {last target : Nat}
    (found : trail.openDecisionUpTo? last = some target) :
    ∃ earlier decision later,
      trail.toList.take (last + 1) = earlier ++ decision :: later ∧
      decision.isOpenDecision = true ∧ decision.var = target ∧
      ∀ entry ∈ later, entry.isOpenDecision = false := by
  unfold openDecisionUpTo? at found
  obtain ⟨decision, search, rfl⟩ := Option.map_eq_some_iff.mp found
  obtain ⟨isDecision, later, earlier, reversed, passed⟩ := List.find?_eq_some_iff_append.mp search
  refine ⟨earlier.reverse, decision, later.reverse, ?_, isDecision, rfl, ?_⟩
  · have straight := congrArg List.reverse reversed
    simpa using straight
  · intro entry member
    simpa using passed entry (List.mem_reverse.mp member)

end Trail

namespace Workspace

/-! ## Outcomes of the analysis -/

/-- The policy lets the candidate for a conflict on `var` in. -/
structure Admits (workspace : Workspace) (policy : LearningPolicy) (var : Nat) : Prop where
  length : policy.admitsLength (normalise (workspace.candidate var).literals).length = true
  unknown : normalise (workspace.candidate var).literals ∉ workspace.database.known
  uncapped : policy.isCapped workspace.database.learned = false

/-- The analysis gives up and only the journal changes, or it stores a candidate that
the policy lets in and names a decision to go back to. -/
theorem analyse_cases {workspace after : Workspace} {policy : LearningPolicy} {var : Nat}
    {signal : Signal} (result : workspace.analyse policy var = (after, signal)) :
    (signal = .abort ∧ ∃ journal, after = { workspace with journal := journal }) ∨
    ∃ last target journal,
      workspace.Admits policy var ∧
      (workspace.candidate var).lastPosition = some last ∧
      workspace.trail.openDecisionUpTo? last = some target ∧
      signal = .backjump target ∧
      after =
        { workspace with
          journal := journal
          database := workspace.database.learn
            (.learnedOfList (workspace.candidate var).literals) workspace.trail } := by
  have clause : (Clause.learnedOfList (workspace.candidate var).literals).literals =
      normalise (workspace.candidate var).literals := Clause.literals_ofList _
  have length : (Clause.learnedOfList (workspace.candidate var).literals).length =
      (normalise (workspace.candidate var).literals).length := by
    rw [← clause, Clause.literals, List.length_map, Clause.length]
  unfold analyse at result
  dsimp only at result
  split at result
  next disabled =>
    cases result
    exact .inl ⟨rfl, workspace.journal, rfl⟩
  next enabled =>
    split at result
    next otherLength =>
      cases result
      exact .inl ⟨rfl, _, rfl⟩
    next admitted =>
      split at result
      next known =>
        cases result
        exact .inl ⟨rfl, _, rfl⟩
      next unknown =>
        split at result
        next capped =>
          cases result
          exact .inl ⟨rfl, workspace.journal, rfl⟩
        next uncapped =>
          split at result
          next unplaced =>
            cases result
            exact .inl ⟨rfl, workspace.journal, rfl⟩
          next target found =>
            cases result
            obtain ⟨last, position, decision⟩ := Option.bind_eq_some_iff.mp found
            refine .inr ⟨last, target, _, ⟨?_, ?_, ?_⟩, position, decision, rfl, rfl⟩
            · simpa [length] using admitted
            · simpa [Database.contains, clause] using unknown
            · simpa using uncapped

theorem Aligned.analyse {workspace after : Workspace} (aligned : workspace.Aligned)
    {policy : LearningPolicy} {var : Nat} {signal : Signal}
    (result : workspace.analyse policy var = (after, signal)) : after.Aligned := by
  rcases analyse_cases result with ⟨_, journal, rfl⟩ | ⟨_, _, journal, _, _, _, _, rfl⟩
  · exact ⟨aligned.database, aligned.trail, aligned.states⟩
  · have learned := aligned.learn (workspace.candidate var).literals
    exact ⟨learned.database, learned.trail, learned.states⟩

/-! ## The candidate -/

theorem mem_reasonVars {workspace : Workspace} {var other : Nat} :
    other ∈ workspace.reasonVars var ↔
      (∃ clause ∈ workspace.database.clauses,
        (∃ unit, clause.unit? = some unit ∧ unit.natAbs = var) ∧
          ∃ literal ∈ clause.literals, literal.natAbs = other) ∧
      workspace.trail.assigns other = true := by
  simp [reasonVars, reasons, List.mem_eraseDups, Clause.vars, Clause.literals, Slot.var,
    Option.any_eq_true, and_assoc]

theorem mem_literals_candidate {workspace : Workspace} {var : Nat} {literal : Int} :
    literal ∈ (workspace.candidate var).literals ↔
      ∃ other ∈ workspace.reasonVars var, ∃ entry,
        workspace.trail.get? other = some entry ∧ entry.negated.toSigned = literal := by
  simp only [candidate, List.mem_map, List.mem_filterMap]
  constructor
  · rintro ⟨entry, ⟨other, member, found⟩, equality⟩
    exact ⟨other, member, entry, found, equality⟩
  · rintro ⟨other, member, entry, found, equality⟩
    exact ⟨entry, ⟨other, member, found⟩, equality⟩

theorem mentions_of_mem_reasonVars {workspace : Workspace} {var other : Nat}
    (member : other ∈ workspace.reasonVars var) : Mentions workspace.database.contents other := by
  obtain ⟨⟨clause, clauseMember, _, literal, literalMember, sameVar⟩, _⟩ := mem_reasonVars.mp member
  exact ⟨clause.literals, Database.mem_contents clauseMember, literal, literalMember, sameVar⟩

theorem proper_of_mem_reasonVars {workspace : Workspace}
    (proper : ProperClauses workspace.database.contents) {var other : Nat}
    (member : other ∈ workspace.reasonVars var) : 0 < other ∧ other < words32 / 2 :=
  properClauses_iff.mp proper other (mentions_of_mem_reasonVars member)

/-- The candidate holds for each of its variables the literal that says the
opposite of the trail. -/
theorem Aligned.toSigned_negated {workspace : Workspace} (aligned : workspace.Aligned)
    (proper : ProperClauses workspace.database.contents) {var other : Nat}
    (member : other ∈ workspace.reasonVars var) {entry : Literal}
    (found : workspace.trail.get? other = some entry) :
    entry.negated.toSigned.natAbs = other ∧ polarity entry.negated.toSigned = !entry.value := by
  obtain ⟨positive, small⟩ := proper_of_mem_reasonVars proper member
  have sameVar : entry.negated.var = other := (aligned.trail.get?_eq_some_iff.mp found).2
  rw [← sameVar] at positive small
  exact ⟨(Literal.natAbs_toSigned small).trans sameVar, Literal.polarity_toSigned positive small⟩

theorem Aligned.holds_negated_iff {workspace : Workspace} (aligned : workspace.Aligned)
    (proper : ProperClauses workspace.database.contents) {var other : Nat}
    (member : other ∈ workspace.reasonVars var) {entry : Literal}
    (found : workspace.trail.get? other = some entry) {assignment : Assignment} :
    assignment.Holds entry.negated.toSigned ↔ assignment other = !entry.value := by
  obtain ⟨sameVar, sign⟩ := aligned.toSigned_negated proper member found
  rw [Assignment.Holds, sameVar, sign]

theorem Aligned.mentions_candidate {workspace : Workspace} (aligned : workspace.Aligned)
    (proper : ProperClauses workspace.database.contents) {var : Nat} {literal : Int}
    (member : literal ∈ (workspace.candidate var).literals) :
    Mentions workspace.database.contents literal.natAbs := by
  obtain ⟨other, isReason, entry, found, rfl⟩ := mem_literals_candidate.mp member
  rw [(aligned.toSigned_negated proper isReason found).1]
  exact mentions_of_mem_reasonVars isReason

/-- An assignment under which the candidate is false agrees with the trail on the
variables of the candidate. -/
theorem Aligned.eq_of_not_satisfies_candidate {workspace : Workspace}
    (aligned : workspace.Aligned) (proper : ProperClauses workspace.database.contents)
    {var other : Nat} (member : other ∈ workspace.reasonVars var) {assignment : Assignment}
    (fails : ¬assignment.Satisfies (workspace.candidate var).literals) {value : Bool}
    (assigned : workspace.trail.value? other = some value) : assignment other = value := by
  obtain ⟨entry, found, rfl⟩ := Option.map_eq_some_iff.mp assigned
  have isFalse : ¬assignment.Holds entry.negated.toSigned := fun holds =>
    fails ⟨_, mem_literals_candidate.mpr ⟨other, member, entry, found, rfl⟩, holds⟩
  rw [aligned.holds_negated_iff proper member found] at isFalse
  simpa using isFalse

theorem Forces.proper {workspace : Workspace} {unit : Int} (forces : workspace.Forces unit)
    (proper : ProperClauses workspace.database.contents) : ProperLiteral unit := by
  obtain ⟨clause, member, unitMember, _⟩ := forces
  exact proper clause.literals (Database.mem_contents member) unit unitMember

/-- An assignment under which the candidate is false makes every literal true that
is forced on its variable. -/
theorem Aligned.holds_unit_of_not_satisfies_candidate {workspace : Workspace}
    (aligned : workspace.Aligned) (proper : ProperClauses workspace.database.contents)
    {clause : Clause} (member : clause ∈ workspace.database.clauses) {unit : Int}
    (isUnit : clause.unit? = some unit) {assignment : Assignment}
    (model : assignment.SatisfiesAll workspace.database.contents)
    (fails : ¬assignment.Satisfies (workspace.candidate unit.natAbs).literals) :
    assignment.Holds unit := by
  have underTrail := isUnit
  rw [← aligned.clause_under member] at underTrail
  obtain ⟨_, _, othersFalse⟩ := Clause.unit?_under underTrail
  obtain ⟨literal, literalMember, holds⟩ := model clause.literals (Database.mem_contents member)
  by_cases same : literal = unit
  · exact same ▸ holds
  · have assigned := othersFalse literal literalMember same
    have onTrail : workspace.trail.assigns literal.natAbs = true := by
      obtain ⟨entry, entryMember, sameVar, _⟩ := aligned.trail.value?_eq_some_iff.mp assigned
      exact aligned.trail.assigns_iff.mpr ⟨entry, entryMember, sameVar⟩
    have reason : literal.natAbs ∈ workspace.reasonVars unit.natAbs :=
      mem_reasonVars.mpr
        ⟨⟨clause, member, ⟨unit, isUnit, rfl⟩, literal, literalMember, rfl⟩, onTrail⟩
    have isFalse := aligned.eq_of_not_satisfies_candidate proper reason fails assigned
    exact absurd holds (Assignment.not_holds_iff.mpr isFalse)

/-- Where complementary literals are forced, the candidate holds in every model of
the stored clauses. -/
theorem Aligned.satisfies_candidate {workspace : Workspace} (aligned : workspace.Aligned)
    (proper : ProperClauses workspace.database.contents) {unit : Int}
    (conflict : workspace.scan = .conflict unit) {assignment : Assignment}
    (model : assignment.SatisfiesAll workspace.database.contents) :
    assignment.Satisfies (workspace.candidate unit.natAbs).literals := by
  obtain ⟨first, firstMember, firstUnit, second, secondMember, secondUnit⟩ :=
    units_of_conflict conflict
  by_contra fails
  have holds := aligned.holds_unit_of_not_satisfies_candidate proper firstMember firstUnit model
    fails
  have opposite := aligned.holds_unit_of_not_satisfies_candidate proper secondMember secondUnit
    model (by rwa [Int.natAbs_neg])
  have nonzero := ((aligned.forces_of_unit? firstMember firstUnit).proper proper).1
  exact (Assignment.holds_neg_iff nonzero).mp opposite holds

theorem Aligned.not_satisfies_candidate {workspace : Workspace} (aligned : workspace.Aligned)
    (proper : ProperClauses workspace.database.contents) {var last : Nat}
    (position : (workspace.candidate var).lastPosition = some last) {assignment : Assignment}
    (follows : assignment.Follows (workspace.trail.toList.take (last + 1))) :
    ¬assignment.Satisfies (workspace.candidate var).literals := by
  rintro ⟨literal, member, holds⟩
  obtain ⟨other, isReason, entry, found, rfl⟩ := mem_literals_candidate.mp member
  rw [aligned.holds_negated_iff proper isReason found] at holds
  obtain ⟨place, placed, there⟩ := Option.bind_eq_some_iff.mp found
  have early : place ≤ last :=
    (List.max?_eq_some_iff.mp position).2 place (List.mem_filterMap.mpr ⟨other, isReason, placed⟩)
  have within : entry ∈ workspace.trail.toList.take (last + 1) := by
    apply List.mem_of_getElem? (i := place)
    rw [List.getElem?_take, if_pos (by omega), Trail.toList, Array.getElem?_toList]
    exact there
  have sameVar := (aligned.trail.get?_eq_some_iff.mp found).2
  have agrees := follows entry within
  rw [sameVar, holds] at agrees
  simp at agrees

end Workspace

end CnfSolver

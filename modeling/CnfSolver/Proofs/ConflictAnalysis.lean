import CnfSolver.Proofs.FrequencyOrder
import CnfSolver.Proofs.PropagationClosure

/-!
# What the analysis of a conflict blocks

The candidate for a conflict has one literal for each of its variables, the opposite
of what the trail says, and the variable of the conflict is not among them. It holds
in every model of the stored clauses, so it excludes what the trail did. The analysis
stores it, as one more clause behind all others, if the policy admits it and there is
an open decision to go back to. Otherwise it stores nothing.
-/

namespace CnfSolver

namespace Trail

/-- The entry at `place` is the last open decision at or before position `last`. -/
structure LastDecision (trail : Trail) (last place : Nat) (decision : Literal) : Prop where
  before : place ≤ last
  there : trail.toList[place]? = some decision
  isDecision : decision.isOpenDecision = true
  closed : ∀ other entry, place < other → other ≤ last → trail.toList[other]? = some entry →
    entry.isOpenDecision = false

variable {trail : Trail} {last place : Nat} {decision : Literal}

theorem lastDecision_of_openDecisionUpTo? {target : Nat}
    (found : trail.openDecisionUpTo? last = some target) :
    ∃ place decision, trail.LastDecision last place decision ∧ decision.var = target := by
  obtain ⟨earlier, decision, later, taken, isDecision, sameVar, closed⟩ :=
    openDecisionUpTo?_eq_some found
  have within : ∀ other, other ≤ last →
      trail.toList[other]? = (earlier ++ decision :: later)[other]? := by
    intro other inside
    rw [← taken, List.getElem?_take, if_pos (by omega)]
  have short : earlier.length ≤ last := by
    have bound := congrArg List.length taken
    simp only [List.length_take, List.length_append, List.length_cons] at bound
    omega
  refine ⟨earlier.length, decision, ⟨short, ?_, isDecision, ?_⟩, sameVar⟩
  · rw [within _ short]
    simp
  · intro other entry behind inside there
    apply closed
    rw [within other inside, List.getElem?_append_right (by omega),
      show other - earlier.length = other - earlier.length - 1 + 1 by omega,
      List.getElem?_cons_succ] at there
    exact List.mem_of_getElem? there

theorem LastDecision.openDecisionUpTo? (isLast : trail.LastDecision last place decision) :
    ∃ target, trail.openDecisionUpTo? last = some target := by
  apply Option.isSome_iff_exists.mp
  unfold Trail.openDecisionUpTo?
  rw [Option.isSome_map, List.find?_isSome]
  refine ⟨decision, ?_, isLast.isDecision⟩
  rw [List.mem_reverse]
  apply List.mem_of_getElem? (i := place)
  have before := isLast.before
  rw [List.getElem?_take, if_pos (by omega)]
  exact isLast.there

end Trail

/-- The candidate has one literal for each of its variables, none on `var`, all false
on the trail. Not all of them are false in a model of the stored clauses. The last
position is the largest one among its variables. -/
structure Candidate.Blocks (workspace : Workspace) (var : Nat) (candidate : Candidate) :
    Prop where
  distinct : (candidate.literals.map Int.natAbs).Nodup
  apart : ∀ literal ∈ candidate.literals, literal.natAbs ≠ var
  isFalse : ∀ literal ∈ candidate.literals,
    workspace.trail.value? literal.natAbs = some (!polarity literal)
  entailed : ∀ assignment : Assignment,
    assignment.SatisfiesAll workspace.database.contents → assignment.Satisfies candidate.literals
  last : ∀ place, candidate.lastPosition = some place ↔
    (∃ literal ∈ candidate.literals, workspace.trail.position? literal.natAbs = some place) ∧
    ∀ literal ∈ candidate.literals, ∀ other,
      workspace.trail.position? literal.natAbs = some other → other ≤ place
  nowhere : candidate.lastPosition = none ↔ candidate.literals = []

namespace Workspace

variable {workspace before after : Workspace} {policy : LearningPolicy} {var : Nat}

/-! ## The candidate -/

theorem Aligned.exists_entry (aligned : workspace.Aligned) {other : Nat}
    (assigned : workspace.trail.assigns other = true) :
    ∃ entry, workspace.trail.get? other = some entry := by
  obtain ⟨entry, member, sameVar⟩ := aligned.trail.assigns_iff.mp assigned
  exact ⟨entry, aligned.trail.get?_eq_some_iff.mpr ⟨member, sameVar⟩⟩

/-- The variables of the candidate are the assigned variables of its reasons, in the
same order. -/
theorem Aligned.map_natAbs_candidate (aligned : workspace.Aligned)
    (proper : ProperClauses workspace.database.contents) (var : Nat) :
    (workspace.candidate var).literals.map Int.natAbs = workspace.reasonVars var := by
  have back : ∀ other ∈ workspace.reasonVars var,
      (workspace.trail.get? other).map (fun entry => entry.negated.toSigned.natAbs) =
        some other := by
    intro other isReason
    obtain ⟨entry, found⟩ := aligned.exists_entry (mem_reasonVars.mp isReason).2
    rw [found, Option.map_some, (aligned.toSigned_negated proper isReason found).1]
  simp only [candidate, List.map_filterMap, Option.map_map, Function.comp_def]
  rw [List.filterMap_congr back, List.filterMap_some]

theorem Aligned.value?_of_mem_candidate (aligned : workspace.Aligned)
    (proper : ProperClauses workspace.database.contents) {literal : Int}
    (member : literal ∈ (workspace.candidate var).literals) :
    workspace.trail.value? literal.natAbs = some (!polarity literal) := by
  obtain ⟨other, isReason, entry, found, rfl⟩ := mem_literals_candidate.mp member
  obtain ⟨sameVar, sign⟩ := aligned.toSigned_negated proper isReason found
  rw [sameVar, sign, Trail.value?, found]
  simp

/-- The variable of a conflict is open. -/
theorem Aligned.not_mem_reasonVars (aligned : workspace.Aligned) {unit : Int}
    (scanned : workspace.scan = .conflict unit) :
    unit.natAbs ∉ workspace.reasonVars unit.natAbs := by
  intro isReason
  obtain ⟨first, isFirst, firstUnit, _⟩ := units_of_conflict scanned
  obtain ⟨_, _, _, isOpen, _⟩ := aligned.forces_of_unit? isFirst firstUnit
  obtain ⟨entry, member, sameVar⟩ := aligned.trail.assigns_iff.mp (mem_reasonVars.mp isReason).2
  exact aligned.trail.value?_eq_none_iff.mp isOpen entry member sameVar

theorem Aligned.lastPosition_eq (aligned : workspace.Aligned)
    (proper : ProperClauses workspace.database.contents) (var : Nat) :
    (workspace.candidate var).lastPosition = ((workspace.candidate var).literals.filterMap
      fun literal => workspace.trail.position? literal.natAbs).max? := by
  have sameVars := aligned.map_natAbs_candidate proper var
  have positions : (workspace.candidate var).lastPosition =
      ((workspace.reasonVars var).filterMap workspace.trail.position?).max? := rfl
  rw [positions, ← sameVars, List.filterMap_map]
  rfl

theorem Aligned.blocks (aligned : workspace.Aligned)
    (proper : ProperClauses workspace.database.contents) {unit : Int}
    (scanned : workspace.scan = .conflict unit) :
    (workspace.candidate unit.natAbs).Blocks workspace unit.natAbs := by
  have vars := aligned.map_natAbs_candidate proper unit.natAbs
  have position := aligned.lastPosition_eq proper unit.natAbs
  have placed : ∀ literal ∈ (workspace.candidate unit.natAbs).literals,
      ∃ place, workspace.trail.position? literal.natAbs = some place := by
    intro literal member
    have isReason : literal.natAbs ∈ workspace.reasonVars unit.natAbs :=
      vars ▸ List.mem_map_of_mem member
    exact Option.isSome_iff_exists.mp (mem_reasonVars.mp isReason).2
  refine ⟨?_, ?_, ?_, ?_, ?_, ?_⟩
  · rw [vars]
    exact nodup_eraseDups _
  · intro literal member sameVar
    have isReason : literal.natAbs ∈ workspace.reasonVars unit.natAbs :=
      vars ▸ List.mem_map_of_mem member
    exact aligned.not_mem_reasonVars scanned (sameVar ▸ isReason)
  · exact fun literal member => aligned.value?_of_mem_candidate proper member
  · exact fun assignment model => aligned.satisfies_candidate proper scanned model
  · intro place
    rw [position, List.max?_eq_some_iff]
    simp only [List.mem_filterMap]
    constructor
    · rintro ⟨isPlace, largest⟩
      exact ⟨isPlace, fun literal member other there => largest other ⟨literal, member, there⟩⟩
    · rintro ⟨isPlace, largest⟩
      exact ⟨isPlace, fun other ⟨literal, member, there⟩ => largest literal member other there⟩
  · rw [position, List.max?_eq_none_iff, List.filterMap_eq_nil_iff,
      List.eq_nil_iff_forall_not_mem]
    constructor
    · intro unplaced literal member
      obtain ⟨place, there⟩ := placed literal member
      rw [unplaced literal member] at there
      cases there
    · exact fun none literal member => absurd member (none literal)

/-! ## The analysis -/

/-- The policy is on and lets the candidate in, and an open decision lies at or before
the last position of the candidate. -/
def Learnable (workspace : Workspace) (policy : LearningPolicy) (var : Nat) : Prop :=
  policy.enabled = true ∧ workspace.Admits policy var ∧
    ∃ last place decision, (workspace.candidate var).lastPosition = some last ∧
      workspace.trail.LastDecision last place decision

/-- The candidate is stored behind all other clauses, which stay as they are. It is in
canonical form, marked as learned and falsified, and the search is to go back to the
last open decision at or before its last position. -/
structure Stores (workspace after : Workspace) (var target : Nat) : Prop where
  decision : ∃ last place decision, (workspace.candidate var).lastPosition = some last ∧
    workspace.trail.LastDecision last place decision ∧ decision.var = target
  clause : ∃ clause : Clause, after.database = workspace.database.push clause ∧
    clause.literals = normalise (workspace.candidate var).literals ∧
    clause.learned = true ∧ clause.isFalsified = true

theorem Learnable.analyse (learnable : workspace.Learnable policy var) :
    ∃ target, (workspace.analyse policy var).2 = .backjump target := by
  obtain ⟨enabled, admits, last, place, decision, position, isLast⟩ := learnable
  obtain ⟨target, found⟩ := isLast.openDecisionUpTo?
  have literals : (Clause.learnedOfList (workspace.candidate var).literals).literals =
      normalise (workspace.candidate var).literals := Clause.literals_ofList _
  have length : (Clause.learnedOfList (workspace.candidate var).literals).length =
      (normalise (workspace.candidate var).literals).length := by
    rw [← literals, Clause.literals, List.length_map, Clause.length]
  have unknown : workspace.database.contains
      (.learnedOfList (workspace.candidate var).literals) = false := by
    simpa [Database.contains, literals] using admits.unknown
  refine ⟨target, ?_⟩
  simp [Workspace.analyse, enabled, length, admits.length, unknown, admits.uncapped, position,
    found]

theorem learnable_of_analyse {target : Nat}
    (result : (workspace.analyse policy var).2 = .backjump target) :
    workspace.Learnable policy var := by
  cases enabled : policy.enabled with
  | false =>
    simp [Workspace.analyse, enabled] at result
  | true =>
    obtain ⟨⟨analysed, signal⟩, analysis⟩ :
        ∃ pair, workspace.analyse policy var = pair := ⟨_, rfl⟩
    rw [analysis] at result
    rcases analyse_cases analysis with
      ⟨rfl, _⟩ | ⟨last, _, _, admits, position, found, _⟩
    · cases result
    · obtain ⟨place, decision, isLast, _⟩ := Trail.lastDecision_of_openDecisionUpTo? found
      exact ⟨enabled, admits, last, place, decision, position, isLast⟩

theorem Aligned.stores_of_learn (aligned : workspace.Aligned)
    (proper : ProperClauses workspace.database.contents) {last target : Nat}
    (position : (workspace.candidate var).lastPosition = some last)
    (found : workspace.trail.openDecisionUpTo? last = some target)
    (database : after.database = workspace.database.learn
      (.learnedOfList (workspace.candidate var).literals) workspace.trail) :
    workspace.Stores after var target := by
  let clause := Clause.learnedOfList (workspace.candidate var).literals
  have literals : clause.literals = normalise (workspace.candidate var).literals :=
    Clause.literals_ofList _
  obtain ⟨place, decision, isLast, sameVar⟩ := Trail.lastDecision_of_openDecisionUpTo? found
  refine ⟨⟨last, place, decision, position, isLast, sameVar⟩,
    clause.under workspace.trail.value?, ?_, ?_, rfl, ?_⟩
  · rw [database, Database.learn_eq_under aligned.trail aligned.states, Database.push_under,
      aligned.states]
  · rw [Clause.literals_under, literals]
  · apply Clause.isFalsified_under.mpr
    intro literal member
    rw [literals, mem_normalise] at member
    exact aligned.value?_of_mem_candidate proper member

/-- The analysis stores the candidate, or leaves the database as it is. -/
theorem Aligned.analyse_stores_or_aborts (aligned : workspace.Aligned)
    (proper : ProperClauses workspace.database.contents) (policy : LearningPolicy) (var : Nat) :
    ∃ analysed signal, workspace.analyse policy var = (analysed, signal) ∧
      analysed.trail = workspace.trail ∧
      ((signal = .abort ∧ analysed.database = workspace.database ∧
          ¬workspace.Learnable policy var) ∨
        ∃ target, signal = .backjump target ∧ workspace.Stores analysed var target ∧
          workspace.Learnable policy var) := by
  obtain ⟨⟨analysed, signal⟩, analysis⟩ :
      ∃ pair, workspace.analyse policy var = pair := ⟨_, rfl⟩
  refine ⟨analysed, signal, analysis, ?_⟩
  rcases analyse_cases analysis with
    ⟨rfl, journal, rfl⟩ | ⟨last, target, journal, _, position, found, rfl, rfl⟩
  · refine ⟨rfl, .inl ⟨rfl, rfl, fun learnable => ?_⟩⟩
    obtain ⟨target, jumps⟩ := learnable.analyse
    rw [analysis] at jumps
    cases jumps
  · refine ⟨rfl, .inr ⟨target, rfl, ?_, learnable_of_analyse (congrArg Prod.snd analysis)⟩⟩
    exact aligned.stores_of_learn proper position found rfl

/-- Where propagation ends in a conflict, the candidate excludes what the trail did. The
analysis stores it and names the decision to go back to, or it leaves the database as
it is; which of the two depends on the policy and on there being a decision. -/
theorem conflict_analysis_blocks (replayed : before.Replayed)
    (proper : ProperClauses before.database.contents) {literal : Literal}
    (result : before.propagate = (after, .conflict literal)) :
    (after.candidate literal.var).Blocks after literal.var ∧
    ∀ policy : LearningPolicy, ∃ analysed signal,
      after.analyse policy literal.var = (analysed, signal) ∧ analysed.trail = after.trail ∧
      ((signal = .abort ∧ analysed.database = after.database ∧
          ¬after.Learnable policy literal.var) ∨
        ∃ target, signal = .backjump target ∧ after.Stores analysed literal.var target ∧
          after.Learnable policy literal.var) := by
  have propagated : before.propagate.1 = after := congrArg Prod.fst result
  have derives : before.Derives after := propagated ▸ replayed.aligned.derives_propagate
  have aligned := derives.aligned replayed.aligned
  have ended := before.propagate_outcome
  rw [result] at ended
  obtain ⟨unit, scanned, rfl⟩ := ended
  rw [← derives.contents replayed.aligned] at proper
  exact ⟨aligned.blocks proper scanned, fun policy =>
    aligned.analyse_stores_or_aborts proper policy unit.natAbs⟩

/-- The conflict rests on both decisions and on what the second one forced. The learned
clause has all three variables, and the search goes back to the second decision. -/
theorem conflict_analysis_blocks_three :
    let workspace := ((ofFormula (.ofClauses 5 [[2, -3], [1, 3, 5], [2, 3, -5]])).assign
      (.decision 1 false)).assign (.decision 2 false)
    ∃ after analysed, workspace.propagate = (after, .conflict (.forced 5 false)) ∧
      after.candidate 5 = ⟨[1, 3, 2], some 2⟩ ∧ (after.candidate 5).Blocks after 5 ∧
      after.analyse {} 5 = (analysed, .backjump 2) ∧ after.Stores analysed 5 2 := by
  intro workspace
  have replayed : workspace.Replayed := by
    apply (((aligned_ofFormula _).assign _).assign _).replayed
    decide +kernel
  have outcome : workspace.propagate.2 = .conflict (.forced 5 false) := by decide +kernel
  have conflict : workspace.propagate = (workspace.propagate.1, .conflict (.forced 5 false)) :=
    Prod.ext_iff.mpr ⟨rfl, outcome⟩
  have candidate : workspace.propagate.1.candidate 5 = ⟨[1, 3, 2], some 2⟩ := by decide +kernel
  have jumps : (workspace.propagate.1.analyse {} 5).2 = .backjump 2 := by decide +kernel
  obtain ⟨blocks, analyses⟩ := conflict_analysis_blocks replayed (by decide +kernel) conflict
  obtain ⟨analysed, signal, result, _, ⟨rfl, _⟩ | ⟨target, rfl, stores, _⟩⟩ := analyses {}
  · rw [show (Literal.forced 5 false).var = 5 from rfl] at result
    rw [result] at jumps
    cases jumps
  · rw [show (Literal.forced 5 false).var = 5 from rfl] at result
    rw [result] at jumps
    cases jumps
    exact ⟨_, analysed, conflict, candidate, blocks, result, stores⟩

end Workspace

end CnfSolver

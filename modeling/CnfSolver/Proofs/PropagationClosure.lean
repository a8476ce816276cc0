import CnfSolver.Proofs.Termination

/-!
# Propagation computes a closure

The values that follow from a trail by unit propagation are a least set: it holds the
values on the trail, and with the opposites of all other literals of a clause it
holds the literal that is left. Propagation assigns whole rounds of literals at once,
yet everything it forces lies in this set. Where it settles, the trail is closed, so
that it holds the whole set. Where it fails, the clauses that it fails on put both
values of a variable into the set.
-/

namespace CnfSolver

/-- The values that follow from the entries of a trail by unit propagation. -/
inductive UnitClosure (clauses : List (List Int)) (entries : List Literal) :
    Nat → Bool → Prop where
  | given {entry : Literal} :
      entry ∈ entries → UnitClosure clauses entries entry.var entry.value
  | forced {clause : List Int} {literal : Int} :
      clause ∈ clauses → literal ∈ clause →
      (∀ other ∈ clause, other ≠ literal →
        UnitClosure clauses entries other.natAbs (!polarity other)) →
      UnitClosure clauses entries literal.natAbs (polarity literal)

/-- Some variable gets both values. -/
def UnitClosure.Clashes (clauses : List (List Int)) (entries : List Literal) : Prop :=
  ∃ var, UnitClosure clauses entries var true ∧ UnitClosure clauses entries var false

theorem UnitClosure.clashes {clauses : List (List Int)} {entries : List Literal} {var : Nat}
    {value : Bool} (one : UnitClosure clauses entries var value)
    (other : UnitClosure clauses entries var (!value)) :
    UnitClosure.Clashes clauses entries := by
  cases value with
  | true => exact ⟨var, one, other⟩
  | false => exact ⟨var, other, one⟩

namespace Literal

theorem toSigned_forcedOfSigned {signed : Int} (proper : ProperLiteral signed) :
    (forcedOfSigned signed).toSigned = signed := by
  have expanded := @toSigned_eq (forcedOfSigned signed) proper.2
  simp only [forcedOfSigned, forced, polarity, decide_eq_true_eq] at expanded ⊢
  rw [expanded]
  split <;> omega

theorem toSigned_negated_forcedOfSigned {signed : Int} (proper : ProperLiteral signed) :
    (forcedOfSigned signed).negated.toSigned = -signed := by
  have expanded := @toSigned_eq (forcedOfSigned signed).negated proper.2
  have nonzero := proper.1
  simp only [forcedOfSigned, forced, negated, decision, polarity, Bool.not_eq_true',
    decide_eq_false_iff_not] at expanded ⊢
  rw [expanded]
  split <;> omega

end Literal

namespace Propagation

/-- What an outcome says of the workspace that propagation leaves. -/
def Outcome.Reports (after : Workspace) : Outcome → Prop
  | .settled =>
      ∀ clause ∈ after.database.clauses, clause.unit? = none ∧ clause.isFalsified = false
  | .conflict literal =>
      literal.origin = .forced ∧
      (∃ clause ∈ after.database.clauses, clause.unit? = some literal.toSigned) ∧
      ∃ clause ∈ after.database.clauses, clause.unit? = some literal.negated.toSigned
  | .falsified index =>
      ∃ clause, after.database.clauses[index]? = some clause ∧
        ∀ literal ∈ clause.literals,
          after.trail.value? literal.natAbs = some (!polarity literal)
  | .stalled => False

end Propagation

namespace Workspace

variable {workspace before after : Workspace}

/-- The clauses are canonical, the index and the position table are exact, and the
states of the clauses are those that a replay of the trail gives. -/
structure Replayed (workspace : Workspace) : Prop where
  database : workspace.database.WellFormed
  canonical : ∀ clause ∈ workspace.database.clauses, clause.Canonical
  trail : workspace.trail.Exact
  states : workspace.database.replay workspace.trail = workspace.database

theorem Replayed.aligned (replayed : workspace.Replayed) : workspace.Aligned :=
  ⟨replayed.database, replayed.trail,
    (database_replay replayed.database replayed.trail).symm.trans replayed.states⟩

theorem Aligned.replayed (aligned : workspace.Aligned)
    (canonical : ∀ clause ∈ workspace.database.clauses, clause.Canonical) :
    workspace.Replayed :=
  ⟨aligned.database, canonical, aligned.trail,
    (database_replay aligned.database aligned.trail).trans aligned.states⟩

/-! ## Forced literals lie in the closure -/

theorem Forces.unitClosure {unit : Int} (forces : workspace.Forces unit)
    (aligned : workspace.Aligned) {entries : List Literal}
    (within : ∀ entry ∈ workspace.trail.toList,
      UnitClosure workspace.database.contents entries entry.var entry.value) :
    UnitClosure workspace.database.contents entries unit.natAbs (polarity unit) := by
  obtain ⟨clause, member, unitMember, _, othersFalse⟩ := forces
  apply UnitClosure.forced (Database.mem_contents member) unitMember
  intro other otherMember different
  obtain ⟨entry, isEntry, sameVar, sameValue⟩ :=
    aligned.trail.value?_eq_some_iff.mp (othersFalse other otherMember different)
  exact sameVar ▸ sameValue ▸ within entry isEntry

theorem Derives.unitClosure (derives : before.Derives after) (aligned : before.Aligned) :
    ∀ entry ∈ after.trail.toList,
      UnitClosure before.database.contents before.trail.toList entry.var entry.value := by
  induction derives with
  | refl => exact fun entry member => .given member
  | @force middle unit derives forces ih =>
    have middleAligned := derives.aligned aligned
    have contents := derives.contents aligned
    intro entry member
    rw [forces.toList_force middleAligned] at member
    rcases List.mem_append.mp member with earlier | last
    · exact ih entry earlier
    · rw [← contents] at ih ⊢
      obtain rfl := List.mem_singleton.mp last
      exact forces.unitClosure middleAligned ih

/-- Every forced literal is counted and is one more entry. -/
theorem Derives.propagations (derives : before.Derives after) (aligned : before.Aligned) :
    after.propagations + before.trail.toList.length =
      before.propagations + after.trail.toList.length := by
  induction derives with
  | refl => rfl
  | @force middle unit derives forces ih =>
    have counted : (middle.force unit).propagations = middle.propagations + 1 := rfl
    rw [forces.toList_force (derives.aligned aligned), counted, List.length_append,
      List.length_singleton]
    omega

theorem Derives.replayed (derives : before.Derives after) (replayed : before.Replayed) :
    after.Replayed := by
  apply (derives.aligned replayed.aligned).replayed
  intro clause member
  rw [derives.database replayed.aligned] at member
  obtain ⟨source, isSource, rfl⟩ := Array.mem_map.mp member
  have literals := source.literals_under after.trail.value?
  exact Clause.canonical_of_literals_eq_normalise
    (literals.trans (replayed.canonical source isSource).symm)

theorem Derives.database_eq_replay (derives : before.Derives after)
    (replayed : before.Replayed) : after.database = before.database.replay after.trail := by
  have aligned := replayed.aligned
  rw [derives.database aligned]
  exact (@database_replay { before with trail := after.trail } replayed.database
    (derives.aligned aligned).trail).symm

/-! ## A settled trail is closed -/

/-- Where a scan finds nothing, a literal is true as soon as the other literals of a
stored clause are false. -/
theorem Replayed.holds_of_others_false (replayed : workspace.Replayed)
    (scanned : workspace.scan = .units []) {clause : Clause}
    (member : clause ∈ workspace.database.clauses) {literal : Int}
    (isLiteral : literal ∈ clause.literals)
    (othersFalse : ∀ other ∈ clause.literals, other ≠ literal →
      workspace.trail.value? other.natAbs = some (!polarity other)) :
    workspace.trail.value? literal.natAbs = some (polarity literal) := by
  obtain ⟨unfalsified, units, _⟩ := found_of_scan scanned
  have stored := Array.mem_toList_iff.mpr member
  have state := replayed.aligned.clause_under member
  by_contra differs
  by_cases isOpen : workspace.trail.value? literal.natAbs = none
  · have isUnit := (replayed.canonical clause member).unit?_under isLiteral isOpen othersFalse
    rw [state] at isUnit
    exact absurd ((units literal).mpr (.inr ⟨clause, stored, isUnit⟩)) List.not_mem_nil
  · have falsified : (clause.under workspace.trail.value?).isFalsified = true := by
      apply Clause.isFalsified_under.mpr
      intro other isOther
      by_cases same : other = literal
      · exact same ▸ Clause.eq_some_not_of_ne isOpen differs
      · exact othersFalse other isOther same
    rw [state, unfalsified clause stored] at falsified
    cases falsified

theorem Replayed.value?_of_unitClosure (replayed : workspace.Replayed)
    (scanned : workspace.scan = .units []) {entries : List Literal}
    (initial : entries ⊆ workspace.trail.toList) {var : Nat} {value : Bool}
    (derived : UnitClosure workspace.database.contents entries var value) :
    workspace.trail.value? var = some value := by
  induction derived with
  | given member => exact replayed.trail.value?_of_mem (initial member)
  | forced member isLiteral _ ih =>
    obtain ⟨clause, isStored, rfl⟩ := List.mem_map.mp member
    exact replayed.holds_of_others_false scanned (Array.mem_toList_iff.mp isStored) isLiteral ih

/-! ## Outcomes -/

theorem Replayed.reports_propagate (replayed : workspace.Replayed)
    (proper : ProperClauses workspace.database.contents) :
    workspace.propagate.2.Reports workspace.propagate.1 := by
  have derives := replayed.aligned.derives_propagate
  have aligned := derives.aligned replayed.aligned
  have progress := replayed.aligned.propagate_ne_stalled
  have ended := workspace.propagate_outcome
  cases outcome : workspace.propagate.2 with
  | settled =>
    rw [outcome] at ended
    obtain ⟨unfalsified, units, _⟩ := found_of_scan ended
    intro clause member
    have stored := Array.mem_toList_iff.mpr member
    refine ⟨?_, unfalsified clause stored⟩
    apply Option.eq_none_iff_forall_ne_some.mpr
    intro unit isUnit
    exact absurd ((units unit).mpr (.inr ⟨clause, stored, isUnit⟩)) List.not_mem_nil
  | conflict literal =>
    rw [outcome] at ended
    obtain ⟨unit, scanned, rfl⟩ := ended
    obtain ⟨first, isFirst, firstUnit, second, isSecond, secondUnit⟩ := units_of_conflict scanned
    have unitProper : ProperLiteral unit :=
      (aligned.forces_of_unit? isFirst firstUnit).proper
        (derives.contents replayed.aligned ▸ proper)
    refine ⟨rfl, ⟨first, isFirst, ?_⟩, second, isSecond, ?_⟩
    · rw [Literal.toSigned_forcedOfSigned unitProper]
      exact firstUnit
    · rw [Literal.toSigned_negated_forcedOfSigned unitProper]
      exact secondUnit
  | falsified index =>
    rw [outcome] at ended
    obtain ⟨offset, clause, place, there, falsified⟩ := found_of_scan ended
    rw [Nat.zero_add] at place
    have found : workspace.propagate.1.database.clauses[index]? = some clause := by
      rw [place, ← Array.getElem?_toList]
      exact there
    refine ⟨clause, found, ?_⟩
    rw [← aligned.clause_under (Array.mem_of_getElem? found)] at falsified
    exact Clause.isFalsified_under.mp falsified
  | stalled => exact absurd outcome progress

/-- A clause all of whose literals are false puts both values of a variable into the
closure, unless it is empty. -/
theorem Derives.clashes_of_falsified (derives : before.Derives after) (aligned : before.Aligned)
    {clause : Clause} (member : clause ∈ after.database.clauses)
    (isFalse : ∀ literal ∈ clause.literals,
      after.trail.value? literal.natAbs = some (!polarity literal))
    (nonempty : clause.literals ≠ []) :
    UnitClosure.Clashes before.database.contents before.trail.toList := by
  have opposite : ∀ literal ∈ clause.literals,
      UnitClosure before.database.contents before.trail.toList literal.natAbs
        (!polarity literal) := by
    intro literal isLiteral
    obtain ⟨entry, isEntry, sameVar, sameValue⟩ :=
      (derives.aligned aligned).trail.value?_eq_some_iff.mp (isFalse literal isLiteral)
    exact sameVar ▸ sameValue ▸ derives.unitClosure aligned entry isEntry
  have stored : clause.literals ∈ before.database.contents :=
    derives.contents aligned ▸ Database.mem_contents member
  obtain ⟨literal, isLiteral⟩ := List.exists_mem_of_ne_nil _ nonempty
  apply UnitClosure.clashes _ (opposite literal isLiteral)
  exact .forced stored isLiteral fun other isOther _ => opposite other isOther

/-- Two clauses that force complementary literals put both values of their variable
into the closure. -/
theorem Derives.clashes_of_conflict (derives : before.Derives after) (aligned : before.Aligned)
    (proper : ProperClauses before.database.contents) {unit : Int}
    (scanned : after.scan = .conflict unit) :
    UnitClosure.Clashes before.database.contents before.trail.toList := by
  have afterAligned := derives.aligned aligned
  have contents := derives.contents aligned
  have within := derives.unitClosure aligned
  obtain ⟨first, isFirst, firstUnit, second, isSecond, secondUnit⟩ := units_of_conflict scanned
  have forces := afterAligned.forces_of_unit? isFirst firstUnit
  have opposite := afterAligned.forces_of_unit? isSecond secondUnit
  rw [← contents] at proper within ⊢
  have nonzero := (forces.proper proper).1
  apply (forces.unitClosure afterAligned within).clashes
  simpa only [Int.natAbs_neg, polarity_neg nonzero] using opposite.unitClosure afterAligned within

/-- Propagation settles if and only if no clause is empty and the closure gives no
variable both values. -/
theorem Replayed.settled_iff (replayed : workspace.Replayed)
    (proper : ProperClauses workspace.database.contents) :
    workspace.propagate.2 = .settled ↔ [] ∉ workspace.database.contents ∧
      ¬UnitClosure.Clashes workspace.database.contents workspace.trail.toList := by
  have aligned := replayed.aligned
  have derives := aligned.derives_propagate
  have ended := workspace.propagate_outcome
  have reports := replayed.reports_propagate proper
  constructor
  · intro settled
    rw [settled] at ended reports
    have afterReplayed := derives.replayed replayed
    have contents := derives.contents aligned
    constructor
    · intro hasEmpty
      rw [← contents] at hasEmpty
      obtain ⟨clause, isStored, noLiterals⟩ := List.mem_map.mp hasEmpty
      have member := Array.mem_toList_iff.mp isStored
      have falsified : (clause.under workspace.propagate.1.trail.value?).isFalsified = true := by
        apply Clause.isFalsified_under.mpr
        simp [noLiterals]
      rw [afterReplayed.aligned.clause_under member, (reports clause member).2] at falsified
      cases falsified
    · rintro ⟨var, isTrue, isFalse⟩
      obtain ⟨forced, toList, _⟩ := derives.toList aligned
      have initial : workspace.trail.toList ⊆ workspace.propagate.1.trail.toList := by
        rw [toList]
        exact List.subset_append_left _ _
      rw [← contents] at isTrue isFalse
      have given := afterReplayed.value?_of_unitClosure ended initial isTrue
      rw [afterReplayed.value?_of_unitClosure ended initial isFalse] at given
      cases given
  · rintro ⟨noneEmpty, noClash⟩
    cases outcome : workspace.propagate.2 with
    | settled => rfl
    | conflict literal =>
      rw [outcome] at ended
      obtain ⟨unit, scanned, _⟩ := ended
      exact absurd (derives.clashes_of_conflict aligned proper scanned) noClash
    | falsified index =>
      rw [outcome] at reports
      obtain ⟨clause, found, isFalse⟩ := reports
      have member := Array.mem_of_getElem? found
      refine absurd (derives.clashes_of_falsified aligned member isFalse ?_) noClash
      intro noLiterals
      apply noneEmpty
      rw [← noLiterals, ← derives.contents aligned]
      exact Database.mem_contents member
    | stalled => exact absurd outcome aligned.propagate_ne_stalled

/-! ## Whole propagations -/

/-- The trail has grown by forced literals of the closure on variables that were open,
each of them counted, and the clauses follow the trail. -/
structure Extends (before after : Workspace) (forced : List Literal) : Prop where
  entries : after.trail.toList = before.trail.toList ++ forced
  distinct : (forced.map Literal.var).Nodup
  fresh : ∀ entry ∈ forced, before.trail.assigns entry.var = false
  tagged : ∀ entry ∈ forced, entry.origin = .forced
  within : ∀ entry ∈ forced,
    UnitClosure before.database.contents before.trail.toList entry.var entry.value
  counted : after.propagations = before.propagations + forced.length
  database : after.database = before.database.replay after.trail

theorem Derives.exists_extends (derives : before.Derives after) (replayed : before.Replayed) :
    ∃ forced, before.Extends after forced := by
  have aligned := replayed.aligned
  have propagations := derives.propagations aligned
  have distinct := (derives.aligned aligned).trail.nodup_vars
  obtain ⟨forced, entries, tagged⟩ := derives.toList aligned
  rw [entries, List.map_append, List.nodup_append] at distinct
  refine ⟨forced, entries, distinct.2.1, ?_, tagged, ?_, ?_, derives.database_eq_replay replayed⟩
  · intro entry member
    apply Bool.eq_false_iff.mpr
    intro assigned
    obtain ⟨other, isOther, sameVar⟩ := replayed.trail.assigns_iff.mp assigned
    exact distinct.2.2 other.var (List.mem_map_of_mem isOther) entry.var
      (List.mem_map_of_mem member) sameVar
  · intro entry member
    apply derives.unitClosure aligned
    rw [entries]
    exact List.mem_append_right _ member
  · rw [entries, List.length_append] at propagations
    omega

/-- Propagation extends the trail within its closure. It settles if and only if no
clause is empty and the closure gives no variable both values, and then the trail
holds the whole closure. -/
theorem propagate_computes_closure (replayed : workspace.Replayed)
    (proper : ProperClauses workspace.database.contents) :
    ∃ after outcome forced, workspace.propagate = (after, outcome) ∧
      (outcome = .settled ↔ [] ∉ workspace.database.contents ∧
        ¬UnitClosure.Clashes workspace.database.contents workspace.trail.toList) ∧
      (outcome = .settled → ∀ var value,
        (∃ entry ∈ after.trail.toList, entry.var = var ∧ entry.value = value) ↔
          UnitClosure workspace.database.contents workspace.trail.toList var value) ∧
      outcome.Reports after ∧ workspace.Extends after forced ∧ after.Replayed := by
  have aligned := replayed.aligned
  have derives := aligned.derives_propagate
  have afterReplayed := derives.replayed replayed
  obtain ⟨forced, extended⟩ := derives.exists_extends replayed
  refine ⟨_, _, forced, rfl, replayed.settled_iff proper, ?_, replayed.reports_propagate proper,
    extended, afterReplayed⟩
  intro settled var value
  have ended := workspace.propagate_outcome
  rw [settled] at ended
  constructor
  · rintro ⟨entry, member, rfl, rfl⟩
    exact derives.unitClosure aligned entry member
  · intro derived
    rw [← derives.contents aligned] at derived
    apply afterReplayed.trail.value?_eq_some_iff.mp
    apply afterReplayed.value?_of_unitClosure ended _ derived
    rw [extended.entries]
    exact List.subset_append_left _ _

/-- From the decision against the first variable, two rounds force two more values. -/
theorem propagate_computes_closure_two_rounds :
    let workspace := (ofFormula (.ofClauses 6 [[2, 1, 1], [3, -2, 1], [4, -4], [-3, 5, 6]])).assign
      (.decision 1 false)
    workspace.Replayed ∧ workspace.propagate.2 = .settled ∧
      ∀ var value,
        UnitClosure [[1, 2], [1, -2, 3], [-4, 4], [-3, 5, 6]] [.decision 1 false] var value ↔
          (var, value) ∈ [(1, false), (2, true), (3, true)] := by
  intro workspace
  have replayed : workspace.Replayed := by
    apply ((aligned_ofFormula _).assign _).replayed
    decide +kernel
  have settled : workspace.propagate.2 = .settled := by decide +kernel
  have entries : workspace.propagate.1.trail.toList.map (fun entry => (entry.var, entry.value)) =
      [(1, false), (2, true), (3, true)] := by
    decide +kernel
  have contents : workspace.database.contents = [[1, 2], [1, -2, 3], [-4, 4], [-3, 5, 6]] := by
    decide +kernel
  have trail : workspace.trail.toList = [.decision 1 false] := by decide +kernel
  obtain ⟨after, outcome, forced, result, _, closure, _⟩ :=
    propagate_computes_closure replayed (by rw [contents]; decide)
  rw [result] at settled entries
  refine ⟨replayed, by rw [result]; exact settled, fun var value => ?_⟩
  rw [← contents, ← trail, ← closure settled, ← entries]
  simp

end Workspace

end CnfSolver

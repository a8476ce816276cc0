import CnfSolver.Proofs.Alignment

/-!
# What unit propagation does

Propagation forces one literal after another. At the moment it is forced, each
literal is open and the other literals of some stored clause are all false, so
that the clause leaves no other choice. Literals of one round do not get in each
other's way, since a round collects every variable at most once. Propagation
ends with a scan that finds no unit, two complementary units, or a falsified
clause.
-/

namespace CnfSolver

namespace Propagation

/-! ## One scan -/

/-- What the result of a scan says about the clauses from place `index` on. -/
def Found (index : Nat) (collected : List Int) (clauses : List Clause) : Scan → Prop
  | .units units =>
      (∀ clause ∈ clauses, clause.isFalsified = false) ∧
      (∀ unit, unit ∈ units ↔
        unit ∈ collected ∨ ∃ clause ∈ clauses, clause.unit? = some unit) ∧
      (collected.Pairwise (fun first second => first.natAbs ≠ second.natAbs) →
        units.Pairwise fun first second => first.natAbs ≠ second.natAbs)
  | .conflict unit =>
      (∃ clause ∈ clauses, clause.unit? = some unit) ∧
      (-unit ∈ collected ∨ ∃ clause ∈ clauses, clause.unit? = some (-unit))
  | .falsified place =>
      ∃ offset clause, place = index + offset ∧ clauses[offset]? = some clause ∧
        clause.isFalsified = true

/-- A scan goes on behind a clause that is not falsified, with its unit among the
collected ones. -/
theorem Found.cons {index : Nat} {collected extended : List Int} {head : Clause}
    {tail : List Clause} {result : Scan} (found : Found (index + 1) extended tail result)
    (holds : head.isFalsified = false)
    (noted : ∀ unit, unit ∈ extended ↔ unit ∈ collected ∨ head.unit? = some unit)
    (distinct : collected.Pairwise (fun first second => first.natAbs ≠ second.natAbs) →
      extended.Pairwise fun first second => first.natAbs ≠ second.natAbs) :
    Found index collected (head :: tail) result := by
  cases result with
  | units units =>
    obtain ⟨tailHolds, members, tailDistinct⟩ := found
    refine ⟨List.forall_mem_cons.mpr ⟨holds, tailHolds⟩, ?_, fun start =>
      tailDistinct (distinct start)⟩
    intro unit
    rw [members, noted]
    simp [or_assoc]
  | conflict unit =>
    obtain ⟨⟨clause, member, isUnit⟩, opposite⟩ := found
    refine ⟨⟨clause, List.mem_cons_of_mem _ member, isUnit⟩, ?_⟩
    rw [noted] at opposite
    simpa [or_assoc] using opposite
  | falsified place =>
    obtain ⟨offset, clause, equality, there, isFalse⟩ := found
    exact ⟨offset + 1, clause, by omega, by simpa using there, isFalse⟩

theorem scan_found (index : Nat) (collected : List Int) (clauses : List Clause) :
    Found index collected clauses (scan index collected clauses) := by
  fun_induction scan index collected clauses with
  | case1 index collected =>
    exact ⟨by simp, by simp, id⟩
  | case2 index collected clause rest isFalse =>
    exact ⟨0, clause, rfl, rfl, isFalse⟩
  | case3 index collected clause rest holds noUnit ih =>
    exact ih.cons (by simpa using holds) (by simp [noUnit]) id
  | case4 index collected clause rest holds unit isUnit opposite =>
    exact ⟨⟨clause, List.mem_cons_self, isUnit⟩, .inl (by simpa using opposite)⟩
  | case5 index collected clause rest holds unit isUnit fresh known ih =>
    refine ih.cons (by simpa using holds) ?_ id
    intro other
    rw [isUnit, Option.some.injEq]
    refine ⟨.inl, ?_⟩
    rintro (member | rfl)
    · exact member
    · simpa using known
  | case6 index collected clause rest holds unit isUnit fresh unknown ih =>
    refine ih.cons (by simpa using holds) ?_ ?_
    · intro other
      simp [isUnit, eq_comm]
    · intro distinct
      refine List.pairwise_append.mpr ⟨distinct, List.pairwise_singleton _ _, ?_⟩
      intro earlier member last isLast same
      rw [List.mem_singleton.mp isLast] at same
      rcases Int.natAbs_eq_natAbs_iff.mp same with rfl | rfl
      · exact unknown (by simpa using member)
      · exact fresh (by simpa using member)

end Propagation

namespace Workspace

theorem found_of_scan {workspace : Workspace} {result : Propagation.Scan}
    (scanned : workspace.scan = result) :
    Propagation.Found 0 [] workspace.database.clauses.toList result := by
  rw [← scanned]
  exact Propagation.scan_found 0 [] workspace.database.clauses.toList

/-- Every literal that a scan collects is forced by a stored clause. -/
theorem exists_clause_of_units {workspace : Workspace} {units : List Int}
    (scanned : workspace.scan = .units units) {unit : Int} (member : unit ∈ units) :
    ∃ clause ∈ workspace.database.clauses, clause.unit? = some unit := by
  obtain ⟨_, members, _⟩ := found_of_scan scanned
  rcases (members unit).mp member with impossible | ⟨clause, inClauses, isUnit⟩
  · cases impossible
  · exact ⟨clause, Array.mem_toList_iff.mp inClauses, isUnit⟩

/-- A conflict is between two stored clauses that force complementary literals. -/
theorem units_of_conflict {workspace : Workspace} {unit : Int}
    (scanned : workspace.scan = .conflict unit) :
    ∃ first ∈ workspace.database.clauses, first.unit? = some unit ∧
      ∃ second ∈ workspace.database.clauses, second.unit? = some (-unit) := by
  obtain ⟨⟨first, firstMember, firstUnit⟩, impossible | ⟨second, secondMember, secondUnit⟩⟩ :=
    found_of_scan scanned
  · cases impossible
  · exact ⟨first, Array.mem_toList_iff.mp firstMember, firstUnit,
      second, Array.mem_toList_iff.mp secondMember, secondUnit⟩

theorem Aligned.clause_under {workspace : Workspace} (aligned : workspace.Aligned)
    {clause : Clause} (member : clause ∈ workspace.database.clauses) :
    clause.under workspace.trail.value? = clause := by
  obtain ⟨place, there⟩ := Array.getElem?_of_mem member
  have states := congrArg (fun database => database.clauses[place]?) aligned.states
  simpa [Database.under, there] using states

/-! ## One forced literal -/

/-- The literal is open, and every other literal of some stored clause is false. -/
def Forces (workspace : Workspace) (unit : Int) : Prop :=
  ∃ clause ∈ workspace.database.clauses, unit ∈ clause.literals ∧
    workspace.trail.value? unit.natAbs = none ∧
    ∀ literal ∈ clause.literals, literal ≠ unit →
      workspace.trail.value? literal.natAbs = some (!polarity literal)

theorem Aligned.forces_of_unit? {workspace : Workspace} (aligned : workspace.Aligned)
    {clause : Clause} (member : clause ∈ workspace.database.clauses) {unit : Int}
    (found : clause.unit? = some unit) : workspace.Forces unit := by
  rw [← aligned.clause_under member] at found
  exact ⟨clause, member, Clause.unit?_under found⟩

theorem Aligned.force {workspace : Workspace} (aligned : workspace.Aligned) (unit : Int) :
    (workspace.force unit).Aligned := by
  have assigned := (aligned.log (.propagated (.forcedOfSigned unit))).assign (.forcedOfSigned unit)
  exact ⟨assigned.database, assigned.trail, assigned.states⟩

theorem Aligned.database_force {workspace : Workspace} (aligned : workspace.Aligned) (unit : Int) :
    (workspace.force unit).database =
      workspace.database.under (workspace.force unit).trail.value? :=
  aligned.database_assign (.forcedOfSigned unit)

theorem Forces.toList_force {workspace : Workspace} {unit : Int} (forces : workspace.Forces unit)
    (aligned : workspace.Aligned) :
    (workspace.force unit).trail.toList =
      workspace.trail.toList ++ [.forcedOfSigned unit] := by
  obtain ⟨_, _, _, isOpen, _⟩ := forces
  apply Trail.toList_push_of_not_assigns
  rw [Bool.eq_false_iff]
  intro assigned
  obtain ⟨entry, member, same⟩ := aligned.trail.assigns_iff.mp assigned
  exact aligned.trail.value?_eq_none_iff.mp isOpen entry member same

/-- Forcing a literal on another variable leaves a forced literal forced. -/
theorem Forces.force {workspace : Workspace} {unit other : Int} (forces : workspace.Forces unit)
    (aligned : workspace.Aligned) (different : other.natAbs ≠ unit.natAbs) :
    (workspace.force other).Forces unit := by
  obtain ⟨clause, member, unitMember, isOpen, othersFalse⟩ := forces
  have values : (workspace.force other).trail.value? =
      Valuation.extend workspace.trail.value? (.forcedOfSigned other) :=
    aligned.trail.value?_push _
  refine ⟨clause.under (workspace.force other).trail.value?, ?_, ?_, ?_, ?_⟩
  · rw [aligned.database_force]
    exact Array.mem_map_of_mem member
  · simpa using unitMember
  · rw [values, Valuation.extend, if_neg, isOpen]
    exact fun same => different same.symm
  · intro literal literalMember literalDiffers
    rw [Clause.literals_under] at literalMember
    rw [values, Valuation.extend, othersFalse literal literalMember literalDiffers]
    simp

/-! ## Whole propagations -/

/-- The second workspace results from the first by forcing literals one after
another, each by a stored clause that leaves no other choice. -/
inductive Derives : Workspace → Workspace → Prop where
  | refl (workspace : Workspace) : Derives workspace workspace
  | force {before after : Workspace} {unit : Int} :
      Derives before after → after.Forces unit → Derives before (after.force unit)

theorem Derives.trans {first second third : Workspace} (earlier : first.Derives second)
    (later : second.Derives third) : first.Derives third := by
  induction later with
  | refl => exact earlier
  | force _ forces ih => exact ih.force forces

theorem Derives.aligned {before after : Workspace} (derives : before.Derives after)
    (aligned : before.Aligned) : after.Aligned := by
  induction derives with
  | refl => exact aligned
  | force _ _ ih => exact ih.force _

theorem Derives.database {before after : Workspace} (derives : before.Derives after)
    (aligned : before.Aligned) :
    after.database = before.database.under after.trail.value? := by
  induction derives with
  | refl => exact aligned.states.symm
  | force derives _ ih =>
    rw [(derives.aligned aligned).database_force, ih, Database.under_under]

theorem Derives.toList {before after : Workspace} (derives : before.Derives after)
    (aligned : before.Aligned) :
    ∃ forced, after.trail.toList = before.trail.toList ++ forced ∧
      ∀ entry ∈ forced, entry.origin = .forced := by
  induction derives with
  | refl => exact ⟨[], by simp, by simp⟩
  | @force middle unit derives forces ih =>
    obtain ⟨forced, equality, tags⟩ := ih
    refine ⟨forced ++ [.forcedOfSigned unit], ?_, ?_⟩
    · rw [forces.toList_force (derives.aligned aligned), equality, List.append_assoc]
    · intro entry member
      rcases List.mem_append.mp member with earlier | last
      · exact tags entry earlier
      · rw [List.mem_singleton.mp last]
        rfl

theorem derives_foldl_force {workspace : Workspace} (aligned : workspace.Aligned)
    {units : List Int} (forces : ∀ unit ∈ units, workspace.Forces unit)
    (distinct : units.Pairwise fun first second => first.natAbs ≠ second.natAbs) :
    workspace.Derives (units.foldl Workspace.force workspace) := by
  induction units generalizing workspace with
  | nil => exact .refl workspace
  | cons head tail ih =>
    have parts := List.pairwise_cons.mp distinct
    have first : workspace.Derives (workspace.force head) :=
      (Derives.refl workspace).force (forces head List.mem_cons_self)
    refine first.trans (ih (aligned.force head) ?_ parts.2)
    intro unit member
    exact (forces unit (List.mem_cons_of_mem _ member)).force aligned (parts.1 unit member)

theorem Aligned.forces_round {workspace : Workspace} (aligned : workspace.Aligned)
    {units : List Int} (result : workspace.scan = .units units) :
    (∀ unit ∈ units, workspace.Forces unit) ∧
      units.Pairwise fun first second => first.natAbs ≠ second.natAbs := by
  obtain ⟨_, _, distinct⟩ := found_of_scan result
  refine ⟨?_, distinct .nil⟩
  intro unit member
  obtain ⟨clause, isClause, isUnit⟩ := exists_clause_of_units result member
  exact aligned.forces_of_unit? isClause isUnit

theorem Aligned.derives_round {workspace : Workspace} (aligned : workspace.Aligned)
    {units : List Int} (result : workspace.scan = .units units) :
    workspace.Derives (units.foldl Workspace.force workspace) := by
  obtain ⟨forces, distinct⟩ := aligned.forces_round result
  exact derives_foldl_force aligned forces distinct

theorem Aligned.derives_propagate {workspace : Workspace} (aligned : workspace.Aligned) :
    workspace.Derives workspace.propagate.1 := by
  fun_induction propagate workspace with
  | case1 => exact .refl _
  | case2 => exact .refl _
  | case3 => exact .refl _
  | case4 workspace units _ result next smaller ih =>
    have round := aligned.derives_round result
    exact round.trans (ih (round.aligned aligned))
  | case5 workspace units _ result next stuck => exact aligned.derives_round result

/-- How the last scan of a propagation relates to its outcome. -/
theorem propagate_outcome (workspace : Workspace) :
    match workspace.propagate.2 with
    | .settled => workspace.propagate.1.scan = .units []
    | .conflict literal =>
        ∃ unit, workspace.propagate.1.scan = .conflict unit ∧ literal = .forcedOfSigned unit
    | .falsified index => workspace.propagate.1.scan = .falsified index
    | .stalled => True := by
  fun_induction propagate workspace with
  | case1 workspace index result => exact result
  | case2 workspace unit result => exact ⟨unit, result, rfl⟩
  | case3 workspace result => exact result
  | case4 workspace units _ result next smaller ih => exact ih
  | case5 => trivial

end Workspace

end CnfSolver

import CnfSolver.Proofs.Entailment

/-!
# Incremental maintenance is replay

The clauses follow the trail as it changes: a literal is assigned in the clauses that
mention it, an entry that is cut off is retracted, and a learned clause takes in the
trail that is there. However these changes follow each other, the clauses are in the
states that replaying the trail would put them in. A literal whose variable is on the
trail already changes neither the trail nor a clause, whatever its value.
-/

namespace CnfSolver

/-- A change that the clauses follow at once. -/
inductive Change where
  | push (literal : Literal)
  /-- Cut the trail back to a number of entries. -/
  | cut (length : Nat)
  /-- Store a learned clause. -/
  | learn (literals : List Int)
  deriving DecidableEq, Repr

/-- The clause that a change adds, in canonical form. -/
def Change.added? : Change → Option (List Int)
  | push _ => none
  | cut _ => none
  | learn literals => some (normalise literals)

/-- The state of a clause is what the values on the trail make of it. -/
structure Clause.Reflects (trail : Trail) (clause : Clause) : Prop where
  values : ∀ slot ∈ clause.slots, slot.value = trail.value? slot.var
  satisfied : clause.satisfied = true ↔
    ∃ literal ∈ clause.literals, trail.value? literal.natAbs = some (polarity literal)
  unassigned : clause.unassigned =
    clause.literals.countP fun literal => (trail.value? literal.natAbs).isNone
  falsified : clause.isFalsified = true ↔
    ∀ literal ∈ clause.literals, trail.value? literal.natAbs = some (!polarity literal)

theorem Clause.reflects_of_under {clause : Clause} {trail : Trail}
    (same : clause.under trail.value? = clause) : clause.Reflects trail := by
  rw [← same]
  refine ⟨?_, ?_, ?_, ?_⟩
  · intro slot member
    obtain ⟨source, _, rfl⟩ := List.mem_map.mp member
    rfl
  · rw [literals_under]
    exact satisfied_under
  · rw [literals_under]
    exact unassigned_under clause _
  · rw [literals_under]
    exact isFalsified_under

namespace Workspace

def apply (workspace : Workspace) : Change → Workspace
  | .push literal => workspace.assign literal
  | .cut length => workspace.backtrack length
  | .learn literals =>
      { workspace with
        database := workspace.database.learn (.learnedOfList literals) workspace.trail }

def applyAll (workspace : Workspace) (changes : List Change) : Workspace :=
  changes.foldl apply workspace

/-- The given clauses with an empty trail. -/
def started (numVars size : Nat) (clauses : List Clause) : Workspace :=
  ⟨.ofClauses numVars clauses, .empty size, 0, #[]⟩

/-- Replaying the trail changes no clause, and every clause reflects the trail. -/
structure InStep (workspace : Workspace) : Prop where
  replayed : workspace.database.replay workspace.trail = workspace.database
  reflects : ∀ clause ∈ workspace.database.clauses, clause.Reflects workspace.trail

theorem Aligned.inStep {workspace : Workspace} (aligned : workspace.Aligned) :
    workspace.InStep where
  replayed := (database_replay aligned.database aligned.trail).trans aligned.states
  reflects := fun _ member => Clause.reflects_of_under (aligned.clause_under member)

theorem Aligned.apply {workspace : Workspace} (aligned : workspace.Aligned) (change : Change) :
    (workspace.apply change).Aligned := by
  cases change with
  | push literal => exact aligned.assign literal
  | cut length => exact aligned.backtrack length
  | learn literals => exact aligned.learn literals

theorem Aligned.contents_apply {workspace : Workspace} (aligned : workspace.Aligned)
    (change : Change) :
    (workspace.apply change).database.contents =
      workspace.database.contents ++ change.added?.toList := by
  cases change with
  | push literal =>
    have assigned : (workspace.apply (.push literal)).database = _ :=
      aligned.database_assign literal
    rw [assigned, Database.contents_under]
    exact (List.append_nil _).symm
  | cut length =>
    have backtracked : (workspace.apply (.cut length)).database = _ :=
      aligned.database_backtrack length
    rw [backtracked, Database.contents_under]
    exact (List.append_nil _).symm
  | learn literals => exact Database.contents_learn aligned.trail aligned.states literals

theorem Aligned.applyAll {workspace : Workspace} (aligned : workspace.Aligned)
    (changes : List Change) : (workspace.applyAll changes).Aligned := by
  induction changes generalizing workspace with
  | nil => exact aligned
  | cons change rest ih => exact ih (aligned.apply change)

theorem Aligned.contents_applyAll {workspace : Workspace} (aligned : workspace.Aligned)
    (changes : List Change) :
    (workspace.applyAll changes).database.contents =
      workspace.database.contents ++ changes.filterMap Change.added? := by
  induction changes generalizing workspace with
  | nil => exact (List.append_nil _).symm
  | cons change rest ih =>
    have later := ih (aligned.apply change)
    rw [aligned.contents_apply, List.append_assoc] at later
    refine later.trans (congrArg _ ?_)
    rw [List.filterMap_cons]
    cases change.added? <;> rfl

/-- After any changes the clauses, the given ones and those learned since, are in the
states that replaying the trail puts them in. -/
theorem incremental_eq_replay {clauses : List Clause}
    (fresh : ∀ clause ∈ clauses, ∃ literals, clause = .ofList literals ∨
      clause = .learnedOfList literals)
    (numVars size : Nat) (changes : List Change) :
    ((started numVars size clauses).applyAll changes).InStep ∧
    ((started numVars size clauses).applyAll changes).database.contents =
      clauses.map Clause.literals ++ changes.filterMap Change.added? := by
  have freshClauses : ∀ clause ∈ clauses, clause.Fresh := by
    intro clause member
    obtain ⟨literals, rfl | rfl⟩ := fresh clause member
    · exact Clause.fresh_ofList literals
    · exact ⟨Clause.ordered_learnedOfList literals, Clause.learnedOfList_under_blank literals⟩
  have aligned : (started numVars size clauses).Aligned := aligned_of_fresh freshClauses rfl rfl
  refine ⟨(aligned.applyAll changes).inStep, ?_⟩
  rw [aligned.contents_applyAll]
  exact congrArg (· ++ _) (Database.contents_ofClauses numVars clauses)

/-- A clause with both literals of a variable, a variable that is pushed again with the
other value, and a clause that is learned between two cuts. -/
theorem incremental_eq_replay_both_signs :
    ((started 3 3 [.ofList [1, -1, 2], .learnedOfList [-2, 3]]).applyAll
      [.push (.decision 1 false), .push (.forced 2 true), .push (.secondBranch 1 true), .cut 1,
        .learn [1, -1, 4], .push (.decision 3 false), .cut 0, .push (.forced 4 false)]).InStep ∧
    ((started 3 3 [.ofList [1, -1, 2], .learnedOfList [-2, 3]]).applyAll
      [.push (.decision 1 false), .push (.forced 2 true), .push (.secondBranch 1 true), .cut 1,
        .learn [1, -1, 4]]).database.clauses.toList.map
          (fun clause => (clause.literals, clause.satisfied, clause.unassigned)) =
      [([-1, 1, 2], true, 1), ([-2, 3], false, 2), ([-1, 1, 4], true, 1)] := by
  refine ⟨(incremental_eq_replay ?_ 3 3 _).1, by decide⟩
  intro clause member
  simp only [List.mem_cons, List.not_mem_nil, or_false] at member
  rcases member with rfl | rfl
  · exact ⟨_, .inl rfl⟩
  · exact ⟨_, .inr rfl⟩

end Workspace

end CnfSolver

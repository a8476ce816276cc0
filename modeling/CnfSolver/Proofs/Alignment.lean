import CnfSolver.Search
import CnfSolver.Proofs.OccurrenceIndex
import CnfSolver.Proofs.TrailTable

/-!
# Clause states in line with the trail

A workspace is aligned if the state of every clause is the one that the values
on the trail put it in. Assigning, backtracking, replaying and learning keep a
workspace aligned. At the level of the search, entering a node makes the
workspace aligned in either replay mode, and the node that is entered does not
depend on the mode.
-/

namespace CnfSolver

namespace Workspace

/-- The index and the position table are exact, and every clause is in the state
that the trail puts it in. -/
structure Aligned (workspace : Workspace) : Prop where
  database : workspace.database.WellFormed
  trail : workspace.trail.Exact
  states : workspace.database.under workspace.trail.value? = workspace.database

theorem aligned_of_fresh {workspace : Workspace} {numVars size : Nat} {clauses : List Clause}
    (fresh : ∀ clause ∈ clauses, clause.Fresh)
    (database : workspace.database = .ofClauses numVars clauses)
    (trail : workspace.trail = .empty size) : workspace.Aligned := by
  refine ⟨?_, ?_, ?_⟩
  · rw [database]
    exact Database.wellFormed_ofClauses numVars fun clause member => (fresh clause member).ordered
  · rw [trail]
    exact Trail.exact_empty size
  · rw [database, trail, Trail.value?_empty]
    exact Database.under_blank_ofClauses numVars fresh

theorem aligned_ofFormula (formula : Formula) : (ofFormula formula).Aligned := by
  refine aligned_of_fresh ?_ rfl rfl
  intro clause member
  obtain ⟨literals, _, rfl⟩ := List.mem_map.mp member
  exact Clause.fresh_ofList literals

theorem Aligned.log {workspace : Workspace} (aligned : workspace.Aligned) (event : Event) :
    (workspace.log event).Aligned := ⟨aligned.database, aligned.trail, aligned.states⟩

theorem Aligned.database_assign {workspace : Workspace} (aligned : workspace.Aligned)
    (literal : Literal) :
    workspace.database.assign literal =
      workspace.database.under (workspace.trail.push literal).value? := by
  rw [aligned.trail.value?_push, ← aligned.database.assign_under, aligned.states]

theorem Aligned.assign {workspace : Workspace} (aligned : workspace.Aligned) (literal : Literal) :
    (workspace.assign literal).Aligned := by
  have database := aligned.database_assign literal
  refine ⟨?_, aligned.trail.push literal, ?_⟩
  · simp only [Workspace.assign, database]
    exact aligned.database.under _
  · simp only [Workspace.assign, database, Database.under_under]

theorem Aligned.database_backtrack {workspace : Workspace} (aligned : workspace.Aligned)
    (length : Nat) :
    (workspace.backtrack length).database =
      workspace.database.under (workspace.trail.truncate length).value? := by
  have folded := aligned.database.foldl_retract_under workspace.trail.value?
    (workspace.trail.suffixFrom length)
  rw [aligned.states, aligned.trail.foldl_forget_suffixFrom] at folded
  exact folded

theorem Aligned.backtrack {workspace : Workspace} (aligned : workspace.Aligned) (length : Nat) :
    (workspace.backtrack length).Aligned := by
  have database := aligned.database_backtrack length
  refine ⟨?_, aligned.trail.truncate length, ?_⟩
  · rw [database]
    exact aligned.database.under _
  · rw [database, Database.under_under]
    rfl

theorem database_replay {workspace : Workspace} (wellFormed : workspace.database.WellFormed)
    (exact : workspace.trail.Exact) :
    workspace.database.replay workspace.trail =
      workspace.database.under workspace.trail.value? := by
  unfold Database.replay
  rw [Database.reset_eq_under, wellFormed.foldl_assign_under, exact.foldl_extend]

end Workspace

/-! ## Learning -/

theorem Clause.foldl_assign_under {clause : Clause} (ordered : clause.Ordered) (values : Valuation)
    (literals : List Literal) :
    literals.foldl assign (clause.under values) =
      clause.under (literals.foldl Valuation.extend values) := by
  induction literals generalizing values with
  | nil => rfl
  | cons head tail ih => rw [List.foldl_cons, assign_under ordered, ih, List.foldl_cons]

namespace Database

theorem clauses_update_push (database : Database) (clause : Clause) (change : Clause → Clause) :
    ((database.push clause).update #[database.length] change).clauses =
      database.clauses.push (change clause) := by
  have single : ((database.push clause).update #[database.length] change).clauses =
      (database.clauses.push clause).modify database.clauses.size change := rfl
  rw [single]
  refine Array.ext_getElem? fun place => ?_
  rw [Array.getElem?_modify, Array.getElem?_push, Array.getElem?_push]
  by_cases last : place = database.clauses.size
  · simp [last]
  · simp [last, Ne.symm last]

/-- A learned clause enters in the state that the trail puts it in. -/
theorem learn_eq_under {database : Database} {trail : Trail} (exact : trail.Exact)
    (states : database.under trail.value? = database) (literals : List Int) :
    database.learn (.learnedOfList literals) trail =
      (database.push (.learnedOfList literals)).under trail.value? := by
  have added : trail.toList.foldl Clause.assign (.learnedOfList literals) =
      (Clause.learnedOfList literals).under trail.value? := by
    rw [← exact.foldl_extend, ← Clause.foldl_assign_under (Clause.ordered_learnedOfList literals),
      Clause.learnedOfList_under_blank]
  have old : database.clauses.map (fun clause => clause.under trail.value?) = database.clauses :=
    congrArg Database.clauses states
  have clauses : (database.learn (.learnedOfList literals) trail).clauses =
      ((database.push (.learnedOfList literals)).under trail.value?).clauses := by
    rw [learn, clauses_update_push, added]
    simp only [under, push, Array.map_push, old]
  unfold learn under at *
  simp only [update] at *
  rw [Database.mk.injEq]
  exact ⟨clauses, rfl, rfl, rfl⟩

end Database

namespace Workspace

theorem Aligned.learn {workspace : Workspace} (aligned : workspace.Aligned) (literals : List Int) :
    ({ workspace with
        database := workspace.database.learn (.learnedOfList literals) workspace.trail } :
      Workspace).Aligned := by
  have database := Database.learn_eq_under aligned.trail aligned.states literals
  refine ⟨?_, aligned.trail, ?_⟩
  · rw [database]
    exact (aligned.database.push (Clause.ordered_learnedOfList literals)).under _
  · rw [database, Database.under_under]

end Workspace

/-! ## Entering a node -/

namespace Search

/-- The index and the position table are exact, and with incremental replay every
clause is in the state that the trail puts it in. -/
structure Synced (search : Search) : Prop where
  database : search.workspace.database.WellFormed
  trail : search.workspace.trail.Exact
  states : search.settings.replay = .incremental →
    search.workspace.database.under search.workspace.trail.value? = search.workspace.database

theorem Synced.of_aligned {search : Search} (aligned : search.workspace.Aligned) :
    search.Synced :=
  ⟨aligned.database, aligned.trail, fun _ => aligned.states⟩

theorem Synced.aligned_of_incremental {search : Search} (synced : search.Synced)
    (mode : search.settings.replay = .incremental) : search.workspace.Aligned :=
  ⟨synced.database, synced.trail, synced.states mode⟩

/-- In either replay mode, entering a node brings every clause in the state that
the trail puts it in and changes nothing else. -/
theorem Synced.enter_eq {search : Search} (synced : search.Synced) :
    search.enter =
      { search with
        workspace.database := search.workspace.database.under search.workspace.trail.value? } := by
  unfold enter
  cases mode : search.settings.replay with
  | full =>
    simp only [Workspace.replay, Workspace.database_replay synced.database synced.trail]
  | incremental => simp only [synced.states mode]

theorem Synced.aligned_enter {search : Search} (synced : search.Synced) :
    search.enter.workspace.Aligned := by
  rw [synced.enter_eq]
  exact ⟨synced.database.under _, synced.trail, by simp⟩

theorem enter_eq_of_aligned {search : Search} (aligned : search.workspace.Aligned) :
    search.enter = search := by
  rw [(Synced.of_aligned aligned).enter_eq, aligned.states]

theorem Synced.push {search : Search} (synced : search.Synced) (literal : Literal) :
    (search.push literal).Synced := by
  unfold Search.push
  cases mode : search.settings.replay with
  | full =>
    refine ⟨synced.database, synced.trail.push literal, ?_⟩
    intro incremental
    rw [mode] at incremental
    cases incremental
  | incremental => exact .of_aligned ((synced.aligned_of_incremental mode).assign literal)

/-- Pushing a literal and then entering is entering and then assigning it. -/
theorem Synced.enter_push {search : Search} (synced : search.Synced) (literal : Literal) :
    (search.push literal).enter =
      { search.enter with workspace := search.enter.workspace.assign literal } := by
  rw [(synced.push literal).enter_eq, synced.enter_eq]
  unfold Search.push
  cases mode : search.settings.replay with
  | full =>
    simp only [Workspace.assign, synced.database.assign_under, synced.trail.value?_push]
  | incremental =>
    have aligned := synced.aligned_of_incremental mode
    simp only [Workspace.assign, aligned.database_assign, Database.under_under, aligned.states]

theorem Synced.truncate {search : Search} (synced : search.Synced) (length : Nat) :
    (search.truncate length).Synced := by
  unfold Search.truncate
  cases mode : search.settings.replay with
  | full =>
    refine ⟨synced.database, synced.trail.truncate length, ?_⟩
    intro incremental
    rw [mode] at incremental
    cases incremental
  | incremental => exact .of_aligned ((synced.aligned_of_incremental mode).backtrack length)

/-- Truncating and then entering is entering and then backtracking. -/
theorem Synced.enter_truncate {search : Search} (synced : search.Synced) (length : Nat) :
    (search.truncate length).enter =
      { search.enter with workspace := search.enter.workspace.backtrack length } := by
  have entered := synced.aligned_enter
  have backtracked := entered.database_backtrack length
  rw [(synced.truncate length).enter_eq]
  rw [synced.enter_eq] at backtracked ⊢
  unfold Search.truncate
  cases mode : search.settings.replay with
  | full =>
    simp only [Database.under_under] at backtracked
    simp only [Workspace.backtrack] at backtracked ⊢
    rw [backtracked]
  | incremental =>
    have aligned := synced.aligned_of_incremental mode
    simp only [aligned.states, (aligned.backtrack length).states]

end Search

end CnfSolver

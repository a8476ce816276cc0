import CnfSolver.Solver
import CnfSolver.Proofs.SearchRun

/-!
# What the search starts from

A solver hands a fresh database to its search: the clauses of the formula, or
what strengthening made of them. The trail is empty, so the workspace is
aligned.
-/

namespace CnfSolver

namespace Strengthening

/-- A pass hands on clauses in canonical form, with every position open. -/
theorem lists_of_pass {numVars : Nat} {settings : Settings} {statistics : Statistics}
    {input clauses : List Clause} {finished : Pass}
    (result : pass numVars settings statistics input = .ok finished)
    (handed : finished.result = .clauses clauses) :
    ∃ lists : List (List Int), clauses = lists.map Clause.ofList := by
  rcases passOver_cases result with ⟨_, rfl⟩ | ⟨_, progress, refuted, _, rfl⟩
  · cases handed
  · cases refuted with
    | true => cases handed
    | false =>
      cases handed
      have kept : survivors input progress.replaced =
          (((members input).filter fun entry => !progress.replaced.contains entry.index).map
            fun entry => entry.clause.literals).map Clause.ofList := by
        rw [survivors, List.map_map]
        rfl
      rw [additions, kept, ← List.map_append]
      exact ⟨_, rfl⟩

variable {numVars : Nat} {settings other : Settings}

theorem visit_congr
    (same : ∀ bucket progress, searchGroup numVars other bucket progress =
      searchGroup numVars settings bucket progress)
    (progress : Progress) (buckets : List Bucket) :
    visit numVars other progress buckets = visit numVars settings progress buckets := by
  induction buckets generalizing progress with
  | nil => rfl
  | cons bucket rest ih =>
    unfold visit refuteGroup
    simp only [same, ih]

/-- The settings matter to a pass through the searches of buckets only. -/
theorem pass_congr
    (same : ∀ bucket progress, searchGroup numVars other bucket progress =
      searchGroup numVars settings bucket progress)
    (statistics : Statistics) (clauses : List Clause) :
    pass numVars other statistics clauses = pass numVars settings statistics clauses := by
  unfold pass passOver
  rw [visit_congr same]

end Strengthening

namespace Branching

/-- The same solver with changed settings. -/
def mapSettings (solver : Branching) (change : Settings → Settings) : Branching :=
  { solver with search.settings := change solver.search.settings }

/-- Preparation passes on a change of the settings that the searches of buckets do
not notice. -/
theorem prepare_mapSettings (solver : Branching) (change : Settings → Settings)
    (preprocessing : ∀ settings, (change settings).preprocessing = settings.preprocessing)
    (same : ∀ numVars settings bucket progress,
      Strengthening.searchGroup numVars (change settings) bucket progress =
        Strengthening.searchGroup numVars settings bucket progress) :
    (solver.mapSettings change).prepare =
      solver.prepare.map fun prepared => (prepared.1.mapSettings change, prepared.2) := by
  have settings : (solver.mapSettings change).search.settings = change solver.search.settings := rfl
  have sameClauses : (solver.mapSettings change).search.workspace = solver.search.workspace := rfl
  have sameVars : (solver.mapSettings change).search.numVars = solver.search.numVars := rfl
  unfold prepare
  rw [settings, preprocessing]
  split
  next asked =>
    unfold strengthen
    dsimp only
    rw [settings, sameClauses, sameVars, Strengthening.pass_congr (same _ _)]
    cases Strengthening.pass solver.search.numVars solver.search.settings {}
        solver.search.workspace.database.clauses.toList with
    | error fault => rfl
    | ok pass =>
      dsimp only
      cases pass.result with
      | refuted => rfl
      | clauses clauses => rfl
  next unasked => rfl

/-- Preparation refutes the formula by a pass of strengthening, or starts the
search from the clauses of the formula or from those that a pass hands on. -/
theorem prepare_cases {formula : Formula} {settings : Settings} {order : BranchOrder}
    {prepared : Branching} {refuted : Bool}
    (result : (withOrder formula settings order).prepare = .ok (prepared, refuted)) :
    (refuted = true ∧ ∃ pass journal,
      prepared.search =
        { Search.start formula settings order with workspace.journal := journal } ∧
      Strengthening.pass formula.numVars settings {} (formula.clauses.map Clause.ofList) =
        .ok pass ∧
      pass.result = .refuted) ∨
    (refuted = false ∧ ∃ clauses journal,
      prepared.search =
        { Search.start formula settings order with
          workspace.journal := journal
          workspace.database := .ofClauses formula.numVars clauses } ∧
      (clauses = formula.clauses.map Clause.ofList ∨
        ∃ pass,
          Strengthening.pass formula.numVars settings {} (formula.clauses.map Clause.ofList) =
            .ok pass ∧
          pass.result = .clauses clauses)) := by
  unfold prepare at result
  split at result
  next asked =>
    have clauses : (withOrder formula settings order).search.workspace.database.clauses.toList =
        formula.clauses.map Clause.ofList := Database.toList_clauses_ofClauses _ _
    unfold strengthen at result
    dsimp only at result
    rw [clauses] at result
    split at result
    next failed => cases result
    next pass passed =>
      split at result
      next isRefuted =>
        cases result
        exact .inl ⟨rfl, pass, _, rfl, passed, isRefuted⟩
      next handed isHanded =>
        cases result
        exact .inr ⟨rfl, handed, _, rfl, .inr ⟨pass, passed, isHanded⟩⟩
  next unasked =>
    cases result
    exact .inr ⟨rfl, _, _, rfl, .inl rfl⟩

/-- Whatever comes of preparation, the search is at its start, with a database of
clauses in canonical form. -/
theorem started_prepare {formula : Formula} {settings : Settings} {order : BranchOrder}
    {prepared : Branching} {refuted : Bool}
    (result : (withOrder formula settings order).prepare = .ok (prepared, refuted)) :
    ∃ (lists : List (List Int)) (journal : Journal), prepared.search =
      { Search.start formula settings order with
        workspace.journal := journal
        workspace.database := .ofClauses formula.numVars (lists.map Clause.ofList) } := by
  rcases prepare_cases result with
    ⟨_, _, journal, started, _⟩ | ⟨_, clauses, journal, started, origin⟩
  · exact ⟨formula.clauses, journal, started⟩
  · rcases origin with rfl | ⟨pass, passed, handed⟩
    · exact ⟨formula.clauses, journal, started⟩
    · obtain ⟨lists, rfl⟩ := Strengthening.lists_of_pass passed handed
      exact ⟨lists, journal, started⟩

theorem settings_prepare {formula : Formula} {settings : Settings} {order : BranchOrder}
    {prepared : Branching} {refuted : Bool}
    (result : (withOrder formula settings order).prepare = .ok (prepared, refuted)) :
    prepared.search.settings = settings := by
  obtain ⟨lists, journal, started⟩ := started_prepare result
  rw [started]
  rfl

theorem aligned_prepare {formula : Formula} {settings : Settings} {order : BranchOrder}
    {prepared : Branching} {refuted : Bool}
    (result : (withOrder formula settings order).prepare = .ok (prepared, refuted)) :
    prepared.search.workspace.Aligned := by
  obtain ⟨lists, journal, started⟩ := started_prepare result
  have fresh : ∀ clause ∈ lists.map Clause.ofList, clause.Fresh := by
    intro clause member
    obtain ⟨literals, _, rfl⟩ := List.mem_map.mp member
    exact Clause.fresh_ofList literals
  rw [started]
  exact Workspace.aligned_of_fresh fresh rfl rfl

/-- The states that a solver goes through once its clauses are prepared. -/
def Passes (solver : Branching) (state : Search) : Prop :=
  ∃ prepared, solver.prepare = .ok (prepared, false) ∧ prepared.search.Passes state

/-- A node of the search that follows preparation fails with the signal. -/
def Fails (solver : Branching) (visited : Search) (signal : Signal) : Prop :=
  ∃ prepared, solver.prepare = .ok (prepared, false) ∧ prepared.search.Fails visited signal

/-- A failed node that shows `seen`, found by running the search. -/
theorem exists_fails {formula : Formula} {settings : Settings} {order : BranchOrder}
    (unprepared : settings.preprocessing = false) {View : Type} (view : Search → View)
    {seen : View} {signal : Signal} {count : Nat}
    (answer : ((Search.start formula settings order).failure? count).map
      (fun failure => (view failure.1, failure.2)) = some (seen, signal)) :
    ∃ visited, (withOrder formula settings order).Fails visited signal ∧ view visited = seen := by
  obtain ⟨⟨visited, found⟩, failed, shows⟩ := Option.map_eq_some_iff.mp answer
  cases shows
  refine ⟨visited, ⟨withOrder formula settings order, ?_, Search.fails_of_failure? failed⟩, rfl⟩
  exact if_neg (Bool.eq_false_iff.mp unprepared)

end Branching

end CnfSolver

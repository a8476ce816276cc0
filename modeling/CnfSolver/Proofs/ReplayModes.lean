import CnfSolver.Solver
import CnfSolver.Proofs.ConflictClause
import CnfSolver.Proofs.LearnedClauses
import CnfSolver.Proofs.Preparation
import CnfSolver.Proofs.SearchRun

/-!
# The two replay modes search alike

Two searches agree if entering their nodes gives the same state, the replay mode
apart. Searches that agree take steps with the same outcome to searches that
agree, so that two solvers which differ in the replay mode only go through the
same nodes and end with the same verdict, counters, trail, learned clauses and
journal. The replay of the sub-searches of strengthening is covered as well.
-/

namespace CnfSolver

namespace Search

/-- The same search in the given replay mode. -/
def withReplay (search : Search) (mode : ReplayMode) : Search :=
  { search with settings.replay := mode }

/-- Entering the nodes of the two searches gives the same state, the replay mode
apart. -/
structure Agrees (first second : Search) : Prop where
  left : first.Synced
  right : second.Synced
  entered : first.enter.withReplay .full = second.enter.withReplay .full

theorem Agrees.of_aligned {search : Search} (aligned : search.workspace.Aligned)
    (mode : ReplayMode) : search.Agrees (search.withReplay mode) := by
  have other : (search.withReplay mode).workspace.Aligned := aligned
  refine ⟨.of_aligned aligned, .of_aligned other, ?_⟩
  rw [enter_eq_of_aligned aligned, enter_eq_of_aligned other]
  rfl

theorem Agrees.exists_withReplay {first second : Search} (agrees : first.Agrees second) :
    ∃ mode, second.enter = first.enter.withReplay mode := by
  refine ⟨second.enter.settings.replay, ?_⟩
  have back := congrArg (fun node => node.withReplay second.enter.settings.replay) agrees.entered
  exact back.symm

/-- The parts of a search that the replay mode has no influence on. -/
structure SameParts (first second : Search) : Prop where
  numVars : first.numVars = second.numVars
  order : first.order = second.order
  trail : first.workspace.trail = second.workspace.trail
  database : first.workspace.database.under first.workspace.trail.value? =
    second.workspace.database.under second.workspace.trail.value?
  propagations : first.workspace.propagations = second.workspace.propagations
  journal : first.workspace.journal = second.workspace.journal
  frames : first.frames = second.frames
  decisions : first.decisions = second.decisions
  conflicts : first.conflicts = second.conflicts

theorem Agrees.parts {first second : Search} (agrees : first.Agrees second) :
    first.SameParts second := by
  have same := agrees.entered
  rw [agrees.left.enter_eq, agrees.right.enter_eq] at same
  simp only [withReplay, Search.mk.injEq, Workspace.mk.injEq] at same
  obtain ⟨numVars, _, order, ⟨database, trail, propagations, journal⟩, frames, decisions,
    conflicts⟩ := same
  exact ⟨numVars, order, trail, database, propagations, journal, frames, decisions, conflicts⟩

/-! ## Changes that keep searches in agreement -/

theorem Agrees.push {first second : Search} (agrees : first.Agrees second) (literal : Literal) :
    (first.push literal).Agrees (second.push literal) where
  left := agrees.left.push literal
  right := agrees.right.push literal
  entered := by
    rw [agrees.left.enter_push, agrees.right.enter_push]
    exact congrArg (fun node => { node with workspace := node.workspace.assign literal })
      agrees.entered

theorem Agrees.truncate {first second : Search} (agrees : first.Agrees second) (length : Nat) :
    (first.truncate length).Agrees (second.truncate length) where
  left := agrees.left.truncate length
  right := agrees.right.truncate length
  entered := by
    rw [agrees.left.enter_truncate, agrees.right.enter_truncate]
    exact congrArg (fun node => { node with workspace := node.workspace.backtrack length })
      agrees.entered

/-- A change that neither looks at the replay mode nor at the clause states. -/
theorem Agrees.update {first second : Search} (agrees : first.Agrees second)
    (change : Search → Search) (synced : ∀ search : Search, search.Synced → (change search).Synced)
    (commutes : ∀ search, (change search).enter = change search.enter)
    (blind : ∀ search : Search, (change search).withReplay .full =
      change (search.withReplay .full)) :
    (change first).Agrees (change second) where
  left := synced first agrees.left
  right := synced second agrees.right
  entered := by
    rw [commutes, commutes, blind, blind, agrees.entered]

theorem Agrees.log {first second : Search} (agrees : first.Agrees second) (event : Event) :
    (first.log event).Agrees (second.log event) := by
  refine agrees.update (fun search => search.log event) ?_ ?_ fun _ => rfl
  · exact fun search synced => ⟨synced.database, synced.trail, synced.states⟩
  · intro search
    simp only [Search.log, enter]
    cases search.settings.replay <;> rfl

theorem Agrees.frames {first second : Search} (agrees : first.Agrees second)
    (frames : List Frame) :
    ({ first with frames := frames } : Search).Agrees { second with frames := frames } := by
  refine agrees.update (fun search => { search with frames := frames }) ?_ ?_ fun _ => rfl
  · exact fun search synced => ⟨synced.database, synced.trail, synced.states⟩
  · intro search
    simp only [enter]
    cases search.settings.replay <;> rfl

theorem Agrees.decideVar {search : Search} (aligned : search.workspace.Aligned)
    (mode : ReplayMode) (var : Nat) :
    (search.decideVar var).Agrees ((search.withReplay mode).decideVar var) := by
  refine Agrees.push ?_ (.decision var false)
  exact .of_aligned (aligned.log (.decided var search.frames.length)) mode

theorem Agrees.flip {first second : Search} (agrees : first.Agrees second) (frame : Frame) :
    (first.flip frame).Agrees (second.flip frame) :=
  (agrees.truncate frame.position).push (.secondBranch frame.var true)

theorem Agrees.dropFrame {first second : Search} (agrees : first.Agrees second) (signal : Signal)
    (frame : Frame) (rest : List Frame) :
    (first.dropFrame signal frame rest).Agrees (second.dropFrame signal frame rest) := by
  cases signal with
  | abort => exact agrees.frames rest
  | backjump target => exact (agrees.log (.skipped frame.var target)).frames rest

theorem Agrees.exhaust {first second : Search} (agrees : first.Agrees second) :
    first.exhaust.Agrees second.exhaust :=
  ((agrees.log .exhausted).truncate 0).frames []

/-! ## Steps with the same outcome -/

/-- Both computations fail alike, or give the same outcome and searches that
agree. -/
def Alike {Outcome : Type} :
    Except Fault (Search × Outcome) → Except Fault (Search × Outcome) → Prop
  | .ok (first, outcome), .ok (second, other) => first.Agrees second ∧ outcome = other
  | .error fault, .error other => fault = other
  | _, _ => False

theorem Alike.cases {Outcome : Type} {left right : Except Fault (Search × Outcome)}
    (alike : Alike left right) :
    (∃ fault, left = .error fault ∧ right = .error fault) ∨
    ∃ first second outcome, left = .ok (first, outcome) ∧ right = .ok (second, outcome) ∧
      first.Agrees second := by
  match left, right, alike with
  | .error fault, .error other, same =>
    cases (show fault = other from same)
    exact .inl ⟨fault, rfl, rfl⟩
  | .ok (first, outcome), .ok (second, other), ⟨agrees, same⟩ =>
    cases same
    exact .inr ⟨first, second, outcome, rfl, rfl, agrees⟩

theorem branch_alike {search : Search} (aligned : search.workspace.Aligned) (mode : ReplayMode) :
    Alike (.ok search.branch) (.ok (search.withReplay mode).branch) := by
  have same : search.Agrees (search.withReplay mode) := .of_aligned aligned mode
  have workspace : (search.withReplay mode).workspace = search.workspace := rfl
  have order : (search.withReplay mode).order = search.order := rfl
  have limit : (search.withReplay mode).limit? = search.limit? := rfl
  unfold branch
  rw [workspace, order, limit]
  split
  next satisfied => exact ⟨same, rfl⟩
  next unsatisfied =>
    split
    next complete => exact ⟨same, rfl⟩
    next picked =>
      split
      next reached => exact ⟨same, rfl⟩
      next free => exact ⟨.decideVar aligned mode _, rfl⟩

theorem step_withReplay_alike {search : Search} (aligned : search.workspace.Aligned)
    (mode : ReplayMode) : Alike search.step (search.withReplay mode).step := by
  have other : (search.withReplay mode).workspace.Aligned := aligned
  have derived := aligned.derives_propagate.aligned aligned
  have workspace : (search.withReplay mode).workspace = search.workspace := rfl
  unfold step
  rw [enter_eq_of_aligned aligned, enter_eq_of_aligned other]
  dsimp only
  rw [workspace]
  split
  next settled =>
    have propagated : ({ search with workspace := search.workspace.propagate.1 } :
      Search).workspace.Aligned := derived
    exact branch_alike propagated mode
  next literal conflict =>
    obtain ⟨⟨analysed, signal⟩, result⟩ :
        ∃ pair, search.workspace.propagate.1.analyse search.settings.learning literal.var = pair :=
      ⟨_, rfl⟩
    have sameResult : search.workspace.propagate.1.analyse
        (search.withReplay mode).settings.learning literal.var = (analysed, signal) := result
    have analysedAligned : ({ search with
        workspace := analysed, conflicts := search.conflicts + 1 } : Search).workspace.Aligned :=
      derived.analyse result
    rw [result, sameResult]
    exact ⟨.of_aligned analysedAligned mode, rfl⟩
  next index falsified =>
    have logged : ({ ({ search with workspace := search.workspace.propagate.1 } : Search).log
        (.falsified index) with conflicts := search.conflicts + 1 } : Search).workspace.Aligned :=
      derived.log (.falsified index)
    exact ⟨.of_aligned logged mode, rfl⟩
  next stalled => exact rfl

theorem Synced.step_eq_step_enter {search : Search} (synced : search.Synced) :
    search.step = search.enter.step := by
  have conflicts : search.enter.conflicts = search.conflicts := by
    unfold enter
    split <;> rfl
  have settings := settings_eq_of_parameters search.parameters_enter
  unfold step
  rw [enter_eq_of_aligned synced.aligned_enter, settings, conflicts]

theorem Agrees.step_alike {first second : Search} (agrees : first.Agrees second) :
    Alike first.step second.step := by
  obtain ⟨mode, entered⟩ := agrees.exists_withReplay
  rw [agrees.left.step_eq_step_enter, agrees.right.step_eq_step_enter, entered]
  exact step_withReplay_alike agrees.left.aligned_enter mode

theorem Agrees.unwindFrames_alike {first second : Search} (agrees : first.Agrees second)
    (signal : Signal) (frames : List Frame) :
    Alike (first.unwindFrames signal frames) (second.unwindFrames signal frames) := by
  induction frames generalizing first second with
  | nil => exact ⟨agrees.exhaust, rfl⟩
  | cons frame rest ih =>
    unfold unwindFrames
    rw [agrees.parts.trail]
    split
    next missing => exact rfl
    next found =>
      split
      next flips => exact ⟨agrees.flip frame, rfl⟩
      next passes => exact ih (agrees.dropFrame signal frame rest)

theorem Agrees.unwind_alike {first second : Search} (agrees : first.Agrees second)
    (signal : Signal) : Alike (first.unwind signal) (second.unwind signal) := by
  unfold unwind
  rw [agrees.parts.frames]
  exact agrees.unwindFrames_alike signal second.frames

theorem Agrees.model_eq {first second : Search} (agrees : first.Agrees second) :
    first.model = second.model := by
  unfold model
  rw [agrees.parts.trail, agrees.parts.numVars]

/-! ## Runs in lock step -/

theorem Agrees.next? {first second : Search} (agrees : first.Agrees second) :
    Option.Rel Agrees first.next? second.next? := by
  unfold Search.next?
  rcases agrees.step_alike.cases with ⟨fault, left, right⟩ | ⟨visited, other, outcome, left, right,
    visitedAgrees⟩
  · rw [left, right]
    exact .none
  · rw [left, right]
    cases outcome with
    | satisfied => exact .none
    | stopped limit => exact .none
    | descended => exact .some visitedAgrees
    | failed signal =>
      dsimp only
      rcases (visitedAgrees.unwind_alike signal).cases with ⟨fault, left, right⟩ |
        ⟨unwound, another, flipped, left, right, unwoundAgrees⟩
      · rw [left, right]
        exact .none
      · rw [left, right]
        cases flipped with
        | true => exact .some unwoundAgrees
        | false => exact .none

theorem Agrees.node? {first second : Search} (agrees : first.Agrees second) (count : Nat) :
    Option.Rel Agrees (first.node? count) (second.node? count) := by
  induction count with
  | zero => exact .some agrees
  | succ count ih =>
    unfold Search.node?
    generalize first.node? count = left at ih ⊢
    generalize second.node? count = right at ih ⊢
    cases ih with
    | none => exact .none
    | some nodesAgree => exact nodesAgree.next?

theorem enter_eq_self {search : Search} (incremental : search.settings.replay = .incremental) :
    search.enter = search := by
  unfold enter
  rw [incremental]

theorem Agrees.enter_eq {first second : Search} (agrees : first.Agrees second)
    (full : first.settings.replay = .full) (incremental : second.settings.replay = .incremental) :
    first.enter = second.withReplay .full := by
  have mode : first.enter.settings.replay = .full := by
    rw [settings_eq_of_parameters first.parameters_enter, full]
  have same := agrees.entered
  rw [enter_eq_self incremental, ← mode] at same
  rw [← mode]
  exact same

/-- Runs of searches that agree end alike. -/
theorem Agrees.run_alike {first second : Search} (agrees : first.Agrees second) (fuel : Nat) :
    Alike (run fuel first) (run fuel second) := by
  induction fuel generalizing first second with
  | zero => exact rfl
  | succ fuel ih =>
    unfold run
    rcases agrees.step_alike.cases with ⟨fault, left, right⟩ |
      ⟨visited, other, outcome, left, right, visitedAgrees⟩
    · rw [left, right]
      exact rfl
    · rw [left, right]
      cases outcome with
      | satisfied => exact ⟨visitedAgrees, by rw [visitedAgrees.model_eq]⟩
      | stopped limit => exact ⟨visitedAgrees, rfl⟩
      | descended => exact ih visitedAgrees
      | failed signal =>
        dsimp only
        rcases (visitedAgrees.unwind_alike signal).cases with ⟨fault, left, right⟩ |
          ⟨unwound, another, flipped, left, right, unwoundAgrees⟩
        · rw [left, right]
          exact rfl
        · rw [left, right]
          cases flipped with
          | true => exact ih unwoundAgrees
          | false => exact ⟨unwoundAgrees, rfl⟩

theorem Agrees.conclude {first second : Search} (agrees : first.Agrees second)
    (verdict : Verdict) : (first.conclude verdict).Agrees (second.conclude verdict) := by
  unfold Search.conclude
  rw [agrees.parts.decisions]
  cases verdict with
  | satisfiable model => exact agrees.log _
  | unsatisfiable => exact agrees.log _
  | stopped limit => exact agrees.log _

theorem Agrees.solve_alike {first second : Search} (agrees : first.Agrees second) :
    Alike first.solve second.solve := by
  have bound : first.nodeBound = second.nodeBound := by
    unfold nodeBound
    rw [agrees.parts.order]
  unfold solve
  rw [bound]
  rcases (agrees.run_alike second.nodeBound).cases with ⟨fault, left, right⟩ |
    ⟨ended, other, verdict, left, right, endedAgrees⟩
  · rw [left, right]
    exact rfl
  · rw [left, right]
    exact ⟨endedAgrees.conclude verdict, rfl⟩

theorem start_agrees (formula : Formula) (settings : Settings) (order : BranchOrder)
    (mode : ReplayMode) :
    (start formula settings order).Agrees
      (start formula { settings with replay := mode } order) := by
  have aligned : (start formula settings order).workspace.Aligned :=
    Workspace.aligned_ofFormula formula
  exact .of_aligned aligned mode

end Search

/-! ## Strengthening -/

namespace Strengthening

variable (numVars : Nat) (settings : Settings) (mode : ReplayMode)

theorem searchGroup_replay (bucket : Bucket) (progress : Progress) :
    searchGroup numVars { settings with replay := mode } bucket progress =
      searchGroup numVars settings bucket progress := by
  have alike := (Search.start_agrees
    (.ofClauses numVars (bucket.members.map fun entry => entry.clause.literals))
    { settings with preprocessing := false, maxDecisions := none } (.ofVars bucket.vars)
    mode).solve_alike
  dsimp only at alike
  unfold searchGroup
  dsimp only
  rcases alike.cases with ⟨fault, left, right⟩ | ⟨ended, other, verdict, left, right, agrees⟩
  · rw [left, right]
  · rw [left, right]
    dsimp only
    rw [agrees.parts.journal]

end Strengthening

namespace Branching

/-- The same solver in the given replay mode. -/
def withReplay (solver : Branching) (mode : ReplayMode) : Branching :=
  { solver with search := solver.search.withReplay mode }

theorem prepare_withReplay (solver : Branching) (mode : ReplayMode) :
    (solver.withReplay mode).prepare =
      solver.prepare.map fun prepared => (prepared.1.withReplay mode, prepared.2) :=
  solver.prepare_mapSettings (fun settings => { settings with replay := mode }) (fun _ => rfl)
    fun numVars settings => Strengthening.searchGroup_replay numVars settings mode

/-- The search at node number `count` of the run that follows preparation. -/
def node? (solver : Branching) (count : Nat) : Option Search :=
  match solver.prepare with
  | .ok (prepared, false) => prepared.search.node? count
  | _ => none

/-- What a finished solver shows: its verdict, its counters, its trail, the
learned clauses in the order they were learned, and its journal. -/
structure Outcome where
  verdict : Verdict
  statistics : Statistics
  trail : Trail
  learned : List (List Int)
  journal : Journal
  deriving DecidableEq

def outcome (finished : Branching × Verdict) : Outcome :=
  { verdict := finished.2
    statistics := (Solver.branching finished.1).statistics
    trail := finished.1.search.workspace.trail
    learned := finished.1.search.workspace.database.learnedClauses.map Clause.literals
    journal := finished.1.search.workspace.journal }

/-- Searches that agree show the same. -/
theorem outcome_eq_of_agrees {first second : Branching} {verdict : Verdict}
    (agrees : first.search.Agrees second.search) (removed : first.removed = second.removed)
    (added : first.added = second.added) :
    outcome (first, verdict) = outcome (second, verdict) := by
  have parts := agrees.parts
  have learned : first.search.workspace.database.learnedClauses.map Clause.literals =
      second.search.workspace.database.learnedClauses.map Clause.literals := by
    have same := congrArg Database.learnedContents parts.database
    rw [Database.learnedContents_under, Database.learnedContents_under] at same
    exact same
  have count := congrArg Database.learned parts.database
  simp only [Database.under] at count
  simp only [outcome, Solver.statistics, parts.decisions, parts.conflicts, parts.propagations,
    parts.trail, parts.journal, learned, count, removed, added]

theorem conclude_outcome_withReplay {solver : Branching}
    (aligned : solver.search.workspace.Aligned) (mode : ReplayMode) :
    solver.conclude.map outcome = (solver.withReplay mode).conclude.map outcome := by
  have alike := (Search.Agrees.of_aligned aligned mode).solve_alike
  have search : (solver.withReplay mode).search = solver.search.withReplay mode := rfl
  unfold conclude
  rw [search]
  rcases alike.cases with ⟨fault, left, right⟩ | ⟨ended, other, verdict, left, right, agrees⟩
  · rw [left, right]
  · rw [left, right]
    exact congrArg Except.ok (outcome_eq_of_agrees agrees rfl rfl)

theorem solve_outcome_withReplay (formula : Formula) (settings : Settings) (order : BranchOrder)
    (mode : ReplayMode) :
    (withOrder formula settings order).solve.map outcome =
      ((withOrder formula settings order).withReplay mode).solve.map outcome := by
  have unsolved : (withOrder formula settings order).verdict? = none := rfl
  have alsoUnsolved : ((withOrder formula settings order).withReplay mode).verdict? = none := rfl
  unfold solve
  rw [unsolved, alsoUnsolved, prepare_withReplay]
  dsimp only
  match prepared : (withOrder formula settings order).prepare with
  | .error fault => rfl
  | .ok (ready, true) =>
    have agrees := (Search.Agrees.of_aligned (aligned_prepare prepared) mode).conclude
      .unsatisfiable
    exact congrArg Except.ok (outcome_eq_of_agrees agrees rfl rfl)
  | .ok (ready, false) => exact conclude_outcome_withReplay (aligned_prepare prepared) mode

/-- The state in which the nodes of a solver with full replay are entered is the
one in which a solver with incremental replay stands there. -/
theorem node?_enter_eq {formula : Formula} {settings : Settings} {order : BranchOrder}
    (full : settings.replay = .full) (count : Nat) :
    ((withOrder formula settings order).node? count).map Search.enter =
      (((withOrder formula settings order).withReplay .incremental).node? count).map
        fun node => node.withReplay .full := by
  unfold node?
  rw [prepare_withReplay]
  match prepared : (withOrder formula settings order).prepare with
  | .error fault => rfl
  | .ok (ready, true) => rfl
  | .ok (ready, false) =>
    have agrees := (Search.Agrees.of_aligned (aligned_prepare prepared) .incremental).node? count
    have readyFull : ready.search.settings.replay = .full := by
      rcases prepare_cases prepared with ⟨impossible, _⟩ | ⟨_, _, _, started, _⟩
      · cases impossible
      · rw [started]
        exact full
    change (ready.search.node? count).map Search.enter =
      ((ready.search.withReplay .incremental).node? count).map fun node => node.withReplay .full
    match left : ready.search.node? count,
        right : (ready.search.withReplay .incremental).node? count, agrees with
    | none, none, _ => rfl
    | some first, some second, .some nodesAgree =>
      have firstSettings := Search.settings_eq_of_parameters (Search.parameters_node? left)
      have secondSettings := Search.settings_eq_of_parameters (Search.parameters_node? right)
      have entered := nodesAgree.enter_eq (by rw [firstSettings, readyFull])
        (by rw [secondSettings]; rfl)
      exact congrArg some entered

/-- The two replay modes go through the same nodes and show the same at the
end. -/
theorem replay_modes_in_lock_step (formula : Formula) (settings : Settings)
    (order : BranchOrder) :
    (∀ count,
      ((withOrder formula { settings with replay := .full } order).node? count).map
          Search.enter =
        ((withOrder formula { settings with replay := .incremental } order).node? count).map
          fun node => node.withReplay .full) ∧
    (withOrder formula { settings with replay := .full } order).solve.map outcome =
      (withOrder formula { settings with replay := .incremental } order).solve.map outcome :=
  ⟨node?_enter_eq rfl, solve_outcome_withReplay formula _ order .incremental⟩

end Branching

end CnfSolver

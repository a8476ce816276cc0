import CnfSolver.Proofs.Alignment

/-!
# Runs of the search

A run visits one node after another. `Visits` says what the visit of a node can
come to, `unwindFrames_cases` what handing a signal to the frames can come to.
The node number `count` of a run is `node? count`, so that a property of all
nodes is one that holds at the start and passes from each node to the next. An
`Invariant` is kept by each operation and so holds at all states in between as
well. A verdict comes from the node that the run ends at.
-/

namespace CnfSolver

namespace Search

/-! ## One node -/

/-- The search after propagation at the node it enters. -/
def propagated (search : Search) : Search :=
  { search.enter with workspace := search.enter.workspace.propagate.1 }

/-- What the visit of a node comes to. -/
inductive Visits (search : Search) : Search → Step → Prop where
  | satisfied :
      search.enter.workspace.propagate.2 = .settled →
      search.propagated.workspace.database.allSatisfied = true →
      Visits search search.propagated .satisfied
  | stuck :
      search.enter.workspace.propagate.2 = .settled →
      search.propagated.workspace.database.allSatisfied = false →
      search.order.next? search.propagated.workspace.trail = none →
      Visits search search.propagated (.failed .abort)
  | stopped {var limit : Nat} :
      search.enter.workspace.propagate.2 = .settled →
      search.propagated.workspace.database.allSatisfied = false →
      search.order.next? search.propagated.workspace.trail = some var →
      search.limit? = some limit →
      Visits search search.propagated (.stopped limit)
  | decided {var : Nat} :
      search.enter.workspace.propagate.2 = .settled →
      search.propagated.workspace.database.allSatisfied = false →
      search.order.next? search.propagated.workspace.trail = some var →
      search.limit? = none →
      Visits search (search.propagated.decideVar var) .descended
  | conflicting {literal : Literal} {analysed : Workspace} {signal : Signal} :
      search.enter.workspace.propagate.2 = .conflict literal →
      search.propagated.workspace.analyse search.settings.learning literal.var =
        (analysed, signal) →
      Visits search
        { search.propagated with workspace := analysed, conflicts := search.conflicts + 1 }
        (.failed signal)
  | falsified {index : Nat} :
      search.enter.workspace.propagate.2 = .falsified index →
      Visits search
        { search.propagated.log (.falsified index) with conflicts := search.conflicts + 1 }
        (.failed .abort)

/-! ## Fixed parameters -/

/-- What a search never changes. -/
def parameters (search : Search) : Nat × Settings × BranchOrder :=
  (search.numVars, search.settings, search.order)

theorem parameters_enter (search : Search) : search.enter.parameters = search.parameters := by
  unfold enter
  split <;> rfl

theorem parameters_push (search : Search) (literal : Literal) :
    (search.push literal).parameters = search.parameters := by
  unfold push
  split <;> rfl

theorem parameters_truncate (search : Search) (length : Nat) :
    (search.truncate length).parameters = search.parameters := by
  unfold truncate
  split <;> rfl

theorem parameters_flip (search : Search) (frame : Frame) :
    (search.flip frame).parameters = search.parameters := by
  unfold flip
  rw [parameters_push, parameters_truncate]

theorem parameters_propagated (search : Search) :
    search.propagated.parameters = search.parameters := search.parameters_enter

theorem settings_eq_of_parameters {first second : Search}
    (same : first.parameters = second.parameters) : first.settings = second.settings :=
  congrArg (fun parameters => parameters.2.1) same

theorem order_eq_of_parameters {first second : Search}
    (same : first.parameters = second.parameters) : first.order = second.order :=
  congrArg (fun parameters => parameters.2.2) same

theorem decisions_enter (search : Search) : search.enter.decisions = search.decisions := by
  unfold enter
  split <;> rfl

theorem limit?_propagated (search : Search) : search.propagated.limit? = search.limit? := by
  have settings := settings_eq_of_parameters search.parameters_propagated
  have decisions : search.propagated.decisions = search.decisions := search.decisions_enter
  unfold limit?
  rw [settings, decisions]

theorem visits_of_branch {search visited : Search} {outcome : Step}
    (settled : search.enter.workspace.propagate.2 = .settled)
    (result : search.propagated.branch = (visited, outcome)) : search.Visits visited outcome := by
  have sameOrder := order_eq_of_parameters search.parameters_propagated
  unfold branch at result
  rw [sameOrder, limit?_propagated] at result
  split at result
  next satisfied =>
    cases result
    exact .satisfied settled satisfied
  next unsatisfied =>
    rw [Bool.not_eq_true] at unsatisfied
    split at result
    next none =>
      cases result
      exact .stuck settled unsatisfied none
    next var picked =>
      split at result
      next limit reached =>
        cases result
        exact .stopped settled unsatisfied picked reached
      next free =>
        cases result
        exact .decided settled unsatisfied picked free

theorem visits_of_step {search visited : Search} {outcome : Step}
    (result : search.step = .ok (visited, outcome)) : search.Visits visited outcome := by
  unfold step at result
  dsimp only at result
  split at result
  next settled => exact visits_of_branch settled (Except.ok.inj result)
  next literal conflict =>
    cases result
    exact .conflicting conflict rfl
  next index falsified =>
    cases result
    exact .falsified falsified
  next stalled => cases result

/-- Only a limit stops a visit. -/
theorem not_visits_stopped {search visited : Search} {limit : Nat}
    (unlimited : search.settings.maxDecisions = none) :
    ¬search.Visits visited (.stopped limit) := by
  intro visits
  cases visits with
  | stopped _ _ _ reached =>
    rw [limit?, unlimited] at reached
    cases reached

theorem Visits.step {search visited : Search} {outcome : Step}
    (visits : search.Visits visited outcome) : search.step = .ok (visited, outcome) := by
  have sameOrder := order_eq_of_parameters search.parameters_propagated
  have sameLimit := search.limit?_propagated
  have settles : ∀ {after : Search} {ending : Step},
      search.enter.workspace.propagate.2 = .settled → search.propagated.branch = (after, ending) →
      search.step = .ok (after, ending) := by
    intro after ending settled branches
    rw [← branches]
    unfold Search.step
    dsimp only
    rw [settled]
    rfl
  cases visits with
  | satisfied settled satisfied =>
    apply settles settled
    rw [branch, if_pos satisfied]
  | stuck settled unsatisfied none =>
    apply settles settled
    rw [branch, if_neg (Bool.eq_false_iff.mp unsatisfied), sameOrder, none]
  | stopped settled unsatisfied picked reached =>
    apply settles settled
    rw [branch, if_neg (Bool.eq_false_iff.mp unsatisfied), sameOrder, picked, sameLimit, reached]
  | decided settled unsatisfied picked free =>
    apply settles settled
    rw [branch, if_neg (Bool.eq_false_iff.mp unsatisfied), sameOrder, picked, sameLimit, free]
  | conflicting conflict analysed =>
    unfold Search.step
    dsimp only
    rw [conflict]
    dsimp only
    rw [show search.enter.workspace.propagate.1 = search.propagated.workspace from rfl, analysed]
    rfl
  | falsified falsified =>
    unfold Search.step
    dsimp only
    rw [falsified]
    rfl

theorem Visits.parameters {search visited : Search} {outcome : Step}
    (visits : search.Visits visited outcome) : visited.parameters = search.parameters := by
  have same := search.parameters_propagated
  cases visits with
  | satisfied => exact same
  | stuck => exact same
  | stopped => exact same
  | decided =>
    unfold decideVar
    rw [parameters_push]
    exact same
  | conflicting => exact same
  | falsified => exact same

/-! ## Unwinding -/

/-- A frame that a signal passes by: it is on its second branch, or the signal is
meant for another decision. -/
def PassedBy (entries : List Literal) (signal : Signal) (frame : Frame) : Prop :=
  ∃ entry, entries[frame.position]? = some entry ∧
    (entry.isSecondBranch = true ∨ signal.flips frame.var = false)

/-- Unwinding drops the frames that the signal passes by. It ends with the second
branch of the frame behind them, or with no frame at all. -/
theorem unwindFrames_cases {frames : List Frame} {search result : Search} {signal : Signal}
    {flipped : Bool} (same : search.frames = frames)
    (unwound : search.unwindFrames signal frames = .ok (result, flipped)) :
    (flipped = true ∧ ∃ dropped frame rest entry journal,
      frames = dropped ++ frame :: rest ∧
      (∀ other ∈ dropped, PassedBy search.workspace.trail.toList signal other) ∧
      search.workspace.trail.toList[frame.position]? = some entry ∧
      entry.isSecondBranch = false ∧ signal.flips frame.var = true ∧
      result =
        ({ search with workspace.journal := journal, frames := frame :: rest } : Search).flip
          frame) ∨
    (flipped = false ∧
      (∀ other ∈ frames, PassedBy search.workspace.trail.toList signal other) ∧
      ∃ journal, result =
        ({ search with workspace.journal := journal, frames := [] } : Search).exhaust) := by
  induction frames generalizing search with
  | nil =>
    cases unwound
    refine .inr ⟨rfl, by simp, search.workspace.journal, ?_⟩
    rw [← same]
  | cons frame rest ih =>
    unfold unwindFrames at unwound
    split at unwound
    next missing => cases unwound
    next entry found =>
      have there : search.workspace.trail.toList[frame.position]? = some entry := by
        rw [Trail.toList, Array.getElem?_toList]
        exact found
      split at unwound
      next flips =>
        simp only [Bool.and_eq_true, Bool.not_eq_true'] at flips
        cases unwound
        refine .inl ⟨rfl, [], frame, rest, entry, search.workspace.journal, rfl, by simp, there,
          flips.1, flips.2, ?_⟩
        rw [← same]
      next passes =>
        have passed : PassedBy search.workspace.trail.toList signal frame := by
          refine ⟨entry, there, ?_⟩
          cases second : entry.isSecondBranch with
          | true => exact .inl rfl
          | false => exact .inr (by simpa [second] using passes)
        obtain ⟨journal, dropping⟩ : ∃ journal, search.dropFrame signal frame rest =
            { search with workspace.journal := journal, frames := rest } := by
          unfold dropFrame
          cases signal with
          | abort => exact ⟨search.workspace.journal, rfl⟩
          | backjump target => exact ⟨_, rfl⟩
        rw [dropping] at unwound
        rcases ih rfl unwound with
          ⟨isFlipped, dropped, other, others, second, later, parts, skipped, placed, isFirst,
            flips, equality⟩ | ⟨isExhausted, skipped, later, equality⟩
        · refine .inl ⟨isFlipped, frame :: dropped, other, others, second, later, ?_, ?_, placed,
            isFirst, flips, equality⟩
          · rw [parts, List.cons_append]
          · exact List.forall_mem_cons.mpr ⟨passed, skipped⟩
        · exact .inr ⟨isExhausted, List.forall_mem_cons.mpr ⟨passed, skipped⟩, later, equality⟩

/-! ## Whole runs -/

/-- The search at the next node, if the search goes on after this one. -/
def next? (search : Search) : Option Search :=
  match search.step with
  | .ok (visited, .descended) => some visited
  | .ok (visited, .failed signal) =>
      match visited.unwind signal with
      | .ok (unwound, true) => some unwound
      | _ => none
  | _ => none

/-- The search at its node number `count`, the first node being number zero. -/
def node? (search : Search) : Nat → Option Search
  | 0 => some search
  | count + 1 => (search.node? count).bind next?

/-- What the visit of the last node comes to. -/
inductive Ends (search : Search) : Search → Verdict → Prop where
  | satisfied {visited : Search} :
      search.step = .ok (visited, .satisfied) →
      Ends search visited (.satisfiable visited.model)
  | stopped {visited : Search} {limit : Nat} :
      search.step = .ok (visited, .stopped limit) → Ends search visited (.stopped limit)
  | exhausted {visited unwound : Search} {signal : Signal} :
      search.step = .ok (visited, .failed signal) →
      visited.unwind signal = .ok (unwound, false) → Ends search unwound .unsatisfiable

theorem node?_succ (search : Search) (count : Nat) :
    search.node? (count + 1) = search.next?.bind fun next => next.node? count := by
  induction count with
  | zero => simp [node?]
  | succ count ih =>
    rw [node?, ih]
    cases search.next? <;> rfl

theorem next?_cases {search next : Search} (goesOn : search.next? = some next) :
    search.step = .ok (next, .descended) ∨
    ∃ visited signal, search.step = .ok (visited, .failed signal) ∧
      visited.unwind signal = .ok (next, true) := by
  unfold next? at goesOn
  split at goesOn
  next visited stepped =>
    cases goesOn
    exact .inl stepped
  next visited signal stepped =>
    split at goesOn
    next unwound flipped =>
      cases goesOn
      exact .inr ⟨visited, signal, stepped, flipped⟩
    next stays => cases goesOn
  next ends => cases goesOn

/-- A property of the first node that passes from each node to the next holds at
every node. -/
theorem node?_induction (holds : Search → Prop) {search : Search} (start : holds search)
    (passes : ∀ before after, holds before → before.next? = some after → holds after)
    {count : Nat} {reached : Search} (isNode : search.node? count = some reached) :
    holds reached := by
  induction count generalizing reached with
  | zero =>
    cases isNode
    exact start
  | succ count ih =>
    obtain ⟨before, isBefore, goesOn⟩ := Option.bind_eq_some_iff.mp isNode
    exact passes before reached (ih isBefore) goesOn

/-! ## The states of a run -/

/-- A node of the run fails, and the search that its visit leaves hands the signal
to its frames. -/
def Fails (search visited : Search) (signal : Signal) : Prop :=
  ∃ count node, search.node? count = some node ∧ node.step = .ok (visited, .failed signal)

/-- What the visit of node number `count` leaves and its signal, if that node fails. -/
def failure? (search : Search) (count : Nat) : Option (Search × Signal) :=
  (search.node? count).bind fun node =>
    match node.step with
    | .ok (visited, .failed signal) => some (visited, signal)
    | _ => none

theorem fails_of_failure? {search visited : Search} {signal : Signal} {count : Nat}
    (failed : search.failure? count = some (visited, signal)) : search.Fails visited signal := by
  obtain ⟨node, isNode, result⟩ := Option.bind_eq_some_iff.mp failed
  split at result
  next stepped =>
    cases result
    exact ⟨count, node, isNode, stepped⟩
  next goesOn => cases result

/-- The states that a run goes through: its nodes, and the search as each of them is
entered, propagated, visited and unwound. -/
inductive Passes (search : Search) : Search → Prop where
  | node {count : Nat} {node : Search} :
      search.node? count = some node → Passes search node
  | entered {count : Nat} {node : Search} :
      search.node? count = some node → Passes search node.enter
  | propagated {count : Nat} {node : Search} :
      search.node? count = some node → Passes search node.propagated
  | visited {count : Nat} {node visited : Search} {outcome : Step} :
      search.node? count = some node → node.step = .ok (visited, outcome) →
      Passes search visited
  | unwound {visited unwound : Search} {signal : Signal} {flipped : Bool} :
      search.Fails visited signal → visited.unwind signal = .ok (unwound, flipped) →
      Passes search unwound

theorem Passes.start (search : Search) : search.Passes search :=
  @Passes.node search 0 search rfl

/-- A property of the search that every operation of a run keeps. -/
structure Invariant (holds : Search → Prop) : Prop where
  enter : ∀ {search}, holds search → holds search.enter
  propagated : ∀ {search}, holds search → holds search.propagated
  visits : ∀ {search visited outcome}, holds search → search.Visits visited outcome →
    holds visited
  unwind : ∀ {search signal unwound flipped}, holds search →
    search.unwind signal = .ok (unwound, flipped) → holds unwound

namespace Invariant

variable {holds : Search → Prop} (invariant : Invariant holds) {search : Search}
  (start : holds search)

include invariant start

theorem next? {next : Search} (goesOn : search.next? = some next) : holds next := by
  rcases next?_cases goesOn with stepped | ⟨visited, signal, stepped, unwound⟩
  · exact invariant.visits start (visits_of_step stepped)
  · exact invariant.unwind (invariant.visits start (visits_of_step stepped)) unwound

theorem node? {count : Nat} {reached : Search} (isNode : search.node? count = some reached) :
    holds reached :=
  node?_induction holds start (fun _ _ before goesOn => invariant.next? before goesOn) isNode

theorem fails {visited : Search} {signal : Signal} (fails : search.Fails visited signal) :
    holds visited := by
  obtain ⟨count, node, isNode, stepped⟩ := fails
  exact invariant.visits (invariant.node? start isNode) (visits_of_step stepped)

theorem passes {state : Search} (passes : search.Passes state) : holds state := by
  cases passes with
  | node isNode => exact invariant.node? start isNode
  | entered isNode => exact invariant.enter (invariant.node? start isNode)
  | propagated isNode => exact invariant.propagated (invariant.node? start isNode)
  | visited isNode stepped =>
    exact invariant.visits (invariant.node? start isNode) (visits_of_step stepped)
  | unwound fails result => exact invariant.unwind (invariant.fails start fails) result

end Invariant

theorem parameters_unwind {search unwound : Search} {signal : Signal} {flipped : Bool}
    (result : search.unwind signal = .ok (unwound, flipped)) :
    unwound.parameters = search.parameters := by
  rcases unwindFrames_cases rfl result with
    ⟨_, _, _, _, _, _, _, _, _, _, _, rfl⟩ | ⟨_, _, _, rfl⟩
  · exact parameters_flip _ _
  · exact parameters_truncate _ _

theorem invariant_parameters (parameters : Nat × Settings × BranchOrder) :
    Invariant fun search => search.parameters = parameters where
  enter := fun same => (parameters_enter _).trans same
  propagated := fun same => (parameters_propagated _).trans same
  visits := fun same visits => visits.parameters.trans same
  unwind := fun same result => (parameters_unwind result).trans same

theorem parameters_next? {search next : Search} (goesOn : search.next? = some next) :
    next.parameters = search.parameters :=
  (invariant_parameters search.parameters).next? rfl goesOn

theorem parameters_node? {search reached : Search} {count : Nat}
    (isNode : search.node? count = some reached) : reached.parameters = search.parameters :=
  (invariant_parameters search.parameters).node? rfl isNode

/-! ## Verdicts -/

/-- A verdict is noted in the journal only. -/
theorem conclude_eq (search : Search) (verdict : Verdict) :
    ∃ journal, search.conclude verdict = { search with workspace.journal := journal } := by
  cases verdict with
  | satisfiable _ => exact ⟨_, rfl⟩
  | unsatisfiable => exact ⟨_, rfl⟩
  | stopped _ => exact ⟨_, rfl⟩

/-- A run that has a verdict ends at its first node or goes on from the next one. -/
theorem run_cases {fuel : Nat} {search ended : Search} {verdict : Verdict}
    (result : run (fuel + 1) search = .ok (ended, verdict)) :
    search.Ends ended verdict ∨
    ∃ next, search.next? = some next ∧ run fuel next = .ok (ended, verdict) := by
  unfold run at result
  split at result
  next failed => cases result
  next visited stepped =>
    cases result
    exact .inl (.satisfied stepped)
  next visited limit stepped =>
    cases result
    exact .inl (.stopped stepped)
  next visited stepped => exact .inr ⟨visited, by simp [next?, stepped], result⟩
  next visited signal stepped =>
    split at result
    next failed => cases result
    next unwound flipped => exact .inr ⟨unwound, by simp [next?, stepped, flipped], result⟩
    next unwound exhausted =>
      cases result
      exact .inl (.exhausted stepped exhausted)

/-- A verdict comes from a node that the run ends at. -/
theorem run_ends {fuel : Nat} {search ended : Search} {verdict : Verdict}
    (result : run fuel search = .ok (ended, verdict)) :
    ∃ count last, search.node? count = some last ∧ last.Ends ended verdict := by
  induction fuel generalizing search with
  | zero => cases result
  | succ fuel ih =>
    rcases run_cases result with ends | ⟨next, goesOn, rest⟩
    · exact ⟨0, search, rfl, ends⟩
    · obtain ⟨count, last, isNode, ends⟩ := ih rest
      exact ⟨count + 1, last, by rw [node?_succ, goesOn]; exact isNode, ends⟩

theorem ran_of_solve {search ended : Search} {verdict : Verdict}
    (result : search.solve = .ok (ended, verdict)) :
    ∃ final, run search.nodeBound search = .ok (final, verdict) ∧
      ended = final.conclude verdict := by
  unfold solve at result
  split at result
  next failed => cases result
  next final reached ran =>
    cases result
    exact ⟨final, ran, rfl⟩

theorem solve_ends {search ended : Search} {verdict : Verdict}
    (result : search.solve = .ok (ended, verdict)) :
    ∃ count last final, search.node? count = some last ∧ last.Ends final verdict ∧
      ended = final.conclude verdict := by
  obtain ⟨final, ran, rfl⟩ := ran_of_solve result
  obtain ⟨count, last, isNode, ends⟩ := run_ends ran
  exact ⟨count, last, final, isNode, ends, rfl⟩

end Search

end CnfSolver

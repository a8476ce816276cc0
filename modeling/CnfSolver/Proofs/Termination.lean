import CnfSolver.Proofs.PreparedSearch
import CnfSolver.Proofs.PropagationRounds

/-!
# The search ends

Every round of propagation closes a position, so propagation ends. The decisions on
the way to a node are a path in a full binary tree over the variables of the order,
and from node to node the search either takes one decision more or turns one to its
second branch. A turn passes the whole first branch, so the decisions taken never
outnumber those of the tree that lie before the path, and every node but the first
comes from a decision or from its turn. So the search stops within its bound, and
with it the searches that strengthening starts.
-/

namespace CnfSolver

theorem Workspace.Aligned.propagate_ne_stalled {workspace : Workspace}
    (aligned : workspace.Aligned) : workspace.propagate.2 ≠ .stalled := by
  obtain ⟨_, ends⟩ := endsAfter_propagate aligned.database
  exact ends.ne_stalled

/-! ## The tree of decisions -/

/-- In a full binary tree of the given depth, the number of decisions that a search
has taken when it stands at the end of a path. A decision on its second branch has
its whole first branch behind it. -/
def decisionsBehind : Nat → List Literal → Nat
  | _, [] => 0
  | depth, entry :: rest =>
      (if entry.isSecondBranch then 2 ^ (depth - 1) else 1) + decisionsBehind (depth - 1) rest

theorem decisionsBehind_append (depth : Nat) (first second : List Literal) :
    decisionsBehind depth (first ++ second) =
      decisionsBehind depth first + decisionsBehind (depth - first.length) second := by
  induction first generalizing depth with
  | nil => simp [decisionsBehind]
  | cons entry rest ih =>
    have deeper : depth - (rest.length + 1) = depth - 1 - rest.length := by omega
    rw [List.cons_append, decisionsBehind, decisionsBehind, ih, List.length_cons, deeper,
      Nat.add_assoc]

theorem decisionsBehind_lt {depth : Nat} {path : List Literal} (fits : path.length ≤ depth) :
    decisionsBehind depth path < 2 ^ depth := by
  induction path generalizing depth with
  | nil => exact Nat.two_pow_pos depth
  | cons entry rest ih =>
    cases depth with
    | zero => cases fits
    | succ below =>
      have rest := ih (Nat.le_of_succ_le_succ fits)
      have here : (if entry.isSecondBranch then 2 ^ below else 1) ≤ 2 ^ below := by
        split
        · exact Nat.le_refl _
        · exact Nat.two_pow_pos below
      rw [decisionsBehind, Nat.add_sub_cancel, Nat.pow_succ]
      omega

/-- Taking the second branch of a decision passes every decision of its first. -/
theorem decisionsBehind_turn {depth var : Nat} {earlier later : List Literal}
    (fits : (earlier ++ .decision var false :: later).length ≤ depth) :
    decisionsBehind depth (earlier ++ .decision var false :: later) ≤
      decisionsBehind depth (earlier ++ [.secondBranch var true]) := by
  rw [List.length_append, List.length_cons] at fits
  have behind : decisionsBehind (depth - earlier.length - 1) later <
      2 ^ (depth - earlier.length - 1) := decisionsBehind_lt (by omega)
  have first : (Literal.decision var false).isSecondBranch = false := rfl
  have second : (Literal.secondBranch var true).isSecondBranch = true := rfl
  simp only [decisionsBehind_append, decisionsBehind, first, second]
  simp only [Bool.false_eq_true, if_false, if_true]
  omega

/-- A path over the given variables, reached at node number `count` after the given
number of decisions. Every node but the first comes from a decision or from the
turn of an open one. -/
structure Tally (vars : List Nat) (count decisions : Nat) (path : List Literal) : Prop where
  listed : ∀ entry ∈ path, entry.var ∈ vars
  decided : decisions ≤ decisionsBehind vars.toFinset.card path
  visited : count + path.countP (fun entry => !entry.isSecondBranch) ≤ 2 * decisions

namespace Tally

variable {vars : List Nat} {count decisions var : Nat} {path earlier later : List Literal}

theorem start (vars : List Nat) : Tally vars 0 0 [] := by
  refine ⟨?_, Nat.zero_le _, Nat.le_refl _⟩
  intro entry member
  cases member

theorem descend (tally : Tally vars count decisions path) (isListed : var ∈ vars) :
    Tally vars (count + 1) (decisions + 1) (path ++ [.decision var false]) := by
  refine ⟨?_, ?_, ?_⟩
  · intro entry member
    rcases List.mem_append.mp member with old | new
    · exact tally.listed entry old
    · rw [List.mem_singleton.mp new]
      exact isListed
  · rw [decisionsBehind_append]
    exact Nat.add_le_add_right tally.decided 1
  · have visited := tally.visited
    rw [List.countP_append]
    change count + 1 + (_ + 1) ≤ 2 * (decisions + 1)
    omega

theorem turn (tally : Tally vars count decisions (earlier ++ .decision var false :: later))
    (fits : (earlier ++ .decision var false :: later).length ≤ vars.toFinset.card) :
    Tally vars (count + 1) decisions (earlier ++ [.secondBranch var true]) := by
  refine ⟨?_, tally.decided.trans (decisionsBehind_turn fits), ?_⟩
  · intro entry member
    rcases List.mem_append.mp member with old | new
    · exact tally.listed entry (List.mem_append_left _ old)
    · rw [List.mem_singleton.mp new]
      exact tally.listed (.decision var false) List.mem_append_cons_self
  · have visited := tally.visited
    rw [List.countP_append, List.countP_cons_of_pos rfl] at visited
    rw [List.countP_append]
    change count + 1 + (_ + 0) ≤ 2 * decisions
    omega

end Tally

namespace Search

/-! ## Paths -/

variable {search : Search}

/-- The decisions on the way to a node: the entries that were not forced. -/
def path (search : Search) : List Literal :=
  search.workspace.trail.toList.filter fun entry => entry.origin != .forced

theorem Synced.path_propagated (synced : search.Synced) : search.propagated.path = search.path := by
  obtain ⟨forced, toList, tags⟩ := synced.toList_propagated
  have dropped : forced.filter (fun entry => entry.origin != .forced) = [] := by
    rw [List.filter_eq_nil_iff]
    intro entry member
    simp [tags entry member]
  rw [path, toList, List.filter_append, dropped, List.append_nil, path]

theorem decisions_push (search : Search) (literal : Literal) :
    (search.push literal).decisions = search.decisions := by
  unfold push
  split <;> rfl

theorem decisions_truncate (search : Search) (length : Nat) :
    (search.truncate length).decisions = search.decisions := by
  unfold truncate
  split <;> rfl

theorem Visits.decisions {visited : Search} {outcome : Step}
    (visits : search.Visits visited outcome) :
    visited.decisions = search.decisions + if outcome = .descended then 1 else 0 := by
  have same : search.propagated.decisions = search.decisions := search.decisions_enter
  cases visits with
  | satisfied => exact same
  | stuck => exact same
  | stopped => exact same
  | decided =>
    rw [decideVar, decisions_push, if_pos rfl, ← same]
    rfl
  | conflicting => exact same
  | falsified => exact same

theorem decisions_unwind {unwound : Search} {signal : Signal} {flipped : Bool}
    (result : search.unwind signal = .ok (unwound, flipped)) :
    unwound.decisions = search.decisions := by
  rcases unwindFrames_cases rfl result with
    ⟨_, _, _, _, _, _, _, _, _, _, _, rfl⟩ | ⟨_, _, _, rfl⟩
  · rw [Search.flip, decisions_push, decisions_truncate]
  · exact decisions_truncate _ _

/-- The path to the next node: one decision more, or a decision that takes its
second branch. -/
theorem Framed.path_next? (framed : search.Framed) {next : Search}
    (goesOn : search.next? = some next) :
    (next.decisions = search.decisions + 1 ∧
      ∃ var ∈ search.order.vars, next.path = search.path ++ [.decision var false]) ∨
    (next.decisions = search.decisions ∧
      ∃ earlier var later, search.path = earlier ++ .decision var false :: later ∧
        next.path = earlier ++ [.secondBranch var true]) := by
  have propagated := framed.synced.path_propagated
  rcases next?_cases goesOn with stepped | ⟨visited, signal, stepped, unwound⟩
  · have visits := visits_of_step stepped
    rcases visits.trail_cases with ⟨impossible, _⟩ | ⟨var, _, picked, toList⟩
    · exact absurd rfl impossible
    · refine .inl ⟨visits.decisions, var, List.mem_of_find?_eq_some picked, ?_⟩
      rw [path, toList, List.filter_append, ← propagated]
      rfl
  · have visits := visits_of_step stepped
    rcases (framed.visits visits).unwind_cases unwound with
      ⟨_, _, frame, _, _, _, there, _, _, toList⟩ | ⟨impossible, _⟩
    · refine .inr ⟨(decisions_unwind unwound).trans visits.decisions, ?_⟩
      rw [visits.trail_of_failed] at there toList
      obtain ⟨inside, isDecision⟩ := List.getElem?_eq_some_iff.mp there
      have parts := List.take_append_drop frame.position search.propagated.workspace.trail.toList
      rw [List.drop_eq_getElem_cons inside, isDecision] at parts
      refine ⟨(search.propagated.workspace.trail.toList.take frame.position).filter
          fun entry => entry.origin != .forced, frame.var,
        (search.propagated.workspace.trail.toList.drop (frame.position + 1)).filter
          fun entry => entry.origin != .forced, ?_, ?_⟩
      · have filtered := congrArg (List.filter fun entry => entry.origin != .forced) parts
        rw [List.filter_append] at filtered
        exact propagated.symm.trans filtered.symm
      · rw [path, toList, List.filter_append]
        rfl
    · cases impossible

/-- The path has at most one decision for each variable of the order. -/
theorem length_path_le (exact : search.workspace.trail.Exact)
    (listed : ∀ entry ∈ search.path, entry.var ∈ search.order.vars) :
    search.path.length ≤ search.order.vars.toFinset.card := by
  have distinct : (search.path.map Literal.var).Nodup :=
    exact.nodup_vars.sublist (List.filter_sublist.map Literal.var)
  rw [← List.length_map Literal.var, ← List.toFinset_card_of_nodup distinct]
  apply Finset.card_le_card
  intro var member
  rw [List.mem_toFinset, List.mem_map] at member
  obtain ⟨entry, isEntry, rfl⟩ := member
  exact List.mem_toFinset.mpr (listed entry isEntry)

/-! ## Counting along a run -/

/-- Node number `count` of a run is in the tree of decisions over the variables of
the order. -/
structure Tallied (count : Nat) (search : Search) : Prop extends Framed search where
  tally : Tally search.order.vars count search.decisions search.path

variable {count : Nat}

theorem Tallied.length_path_le (tallied : search.Tallied count) :
    search.path.length ≤ search.order.vars.toFinset.card :=
  Search.length_path_le tallied.synced.trail tallied.tally.listed

theorem tallied_of_aligned (aligned : search.workspace.Aligned) (frames : search.frames = [])
    (trail : search.workspace.trail.toList = []) (decisions : search.decisions = 0) :
    search.Tallied 0 := by
  refine ⟨framed_of_aligned aligned frames trail, ?_⟩
  rw [decisions, path, trail]
  exact .start _

theorem Tallied.next? (tallied : search.Tallied count) {next : Search}
    (goesOn : search.next? = some next) : next.Tallied (count + 1) := by
  refine ⟨invariant_framed.next? tallied.toFramed goesOn, ?_⟩
  have tally := tallied.tally
  rw [order_eq_of_parameters (parameters_next? goesOn)]
  rcases tallied.toFramed.path_next? goesOn with
    ⟨decisions, var, isListed, path⟩ | ⟨decisions, earlier, var, later, before, path⟩
  · rw [decisions, path]
    exact tally.descend isListed
  · have fits := tallied.length_path_le
    rw [before] at tally fits
    rw [decisions, path]
    exact tally.turn fits

theorem Tallied.node? (tallied : search.Tallied 0) {reached : Search}
    (isNode : search.node? count = some reached) : reached.Tallied count := by
  induction count generalizing reached with
  | zero =>
    cases isNode
    exact tallied
  | succ count ih =>
    obtain ⟨before, isBefore, goesOn⟩ := Option.bind_eq_some_iff.mp isNode
    exact (ih isBefore).next? goesOn

theorem Tallied.decisions_lt (tallied : search.Tallied count) :
    search.decisions < 2 ^ search.order.vars.toFinset.card :=
  tallied.tally.decided.trans_lt (decisionsBehind_lt tallied.length_path_le)

theorem Tallied.count_lt (tallied : search.Tallied count) : count < search.nodeBound := by
  have few := tallied.decisions_lt
  have visited := tallied.tally.visited
  have smaller : 2 ^ search.order.vars.toFinset.card ≤ 2 ^ search.order.vars.length :=
    Nat.pow_le_pow_right (by omega) search.order.vars.toFinset_card_le
  have bound : search.nodeBound = 2 ^ search.order.vars.length * 2 := Nat.pow_succ _ _
  omega

/-! ## Verdicts -/

theorem Synced.step_ok (synced : search.Synced) :
    ∃ visited outcome, search.step = .ok (visited, outcome) := by
  have progress := synced.aligned_enter.propagate_ne_stalled
  unfold step
  dsimp only
  split
  next settled => exact ⟨_, _, rfl⟩
  next conflict => exact ⟨_, _, rfl⟩
  next falsified => exact ⟨_, _, rfl⟩
  next stalled => exact absurd stalled progress

/-- A run has a verdict if its fuel exceeds the numbers of all its nodes. -/
theorem Framed.run_ok (framed : search.Framed) {fuel : Nat}
    (enough : ∀ count node, search.node? count = some node → count < fuel) :
    ∃ ended verdict, run fuel search = .ok (ended, verdict) := by
  induction fuel generalizing search with
  | zero => exact absurd (enough 0 search rfl) (Nat.not_lt_zero 0)
  | succ fuel ih =>
    have later : ∀ next, search.next? = some next →
        ∃ ended verdict, run fuel next = .ok (ended, verdict) := by
      intro next goesOn
      apply ih (invariant_framed.next? framed goesOn)
      intro count node isNode
      have isLater : search.node? (count + 1) = some node := by
        rw [node?_succ, goesOn]
        exact isNode
      exact Nat.lt_of_succ_lt_succ (enough (count + 1) node isLater)
    obtain ⟨visited, outcome, stepped⟩ := framed.synced.step_ok
    unfold run
    rw [stepped]
    cases outcome with
    | satisfied => exact ⟨_, _, rfl⟩
    | stopped limit => exact ⟨_, _, rfl⟩
    | descended => exact later visited (by simp [Search.next?, stepped])
    | failed signal =>
      obtain ⟨unwound, flipped, result⟩ :=
        (framed.visits (visits_of_step stepped)).unwind_ok signal
      dsimp only
      rw [result]
      cases flipped with
      | true => exact later unwound (by simp [Search.next?, stepped, result])
      | false => exact ⟨_, _, rfl⟩

theorem Ends.decisions {last final : Search} {verdict : Verdict} (ends : last.Ends final verdict) :
    final.decisions = last.decisions := by
  cases ends with
  | satisfied stepped => exact (visits_of_step stepped).decisions
  | stopped stepped => exact (visits_of_step stepped).decisions
  | exhausted stepped unwound =>
    exact (decisions_unwind unwound).trans (visits_of_step stepped).decisions

theorem Tallied.solve_ok (tallied : search.Tallied 0) :
    ∃ ended verdict, search.solve = .ok (ended, verdict) := by
  have enough : ∀ count node, search.node? count = some node → count < search.nodeBound := by
    intro count node isNode
    have bound := (tallied.node? isNode).count_lt
    unfold nodeBound at bound ⊢
    rwa [order_eq_of_parameters (parameters_node? isNode)] at bound
  obtain ⟨ended, verdict, result⟩ := tallied.toFramed.run_ok enough
  unfold solve
  rw [result]
  exact ⟨_, _, rfl⟩

theorem Tallied.decisions_of_solve (tallied : search.Tallied 0) {ended : Search}
    {verdict : Verdict} (result : search.solve = .ok (ended, verdict)) :
    ended.decisions < 2 ^ search.order.vars.toFinset.card := by
  obtain ⟨count, last, final, isNode, ends, rfl⟩ := solve_ends result
  obtain ⟨journal, concluded⟩ := final.conclude_eq verdict
  rw [concluded, ends.decisions, ← order_eq_of_parameters (parameters_node? isNode)]
  exact (tallied.node? isNode).decisions_lt

theorem tallied_start (formula : Formula) (settings : Settings) (order : BranchOrder) :
    (start formula settings order).Tallied 0 :=
  tallied_of_aligned (Workspace.aligned_ofFormula formula) rfl rfl rfl

end Search

/-! ## Strengthening -/

namespace Strengthening

variable (numVars : Nat) (settings : Settings)

theorem searchGroup_ok (bucket : Bucket) (progress : Progress) :
    ∃ searched refuted, searchGroup numVars settings bucket progress = .ok (searched, refuted) := by
  unfold searchGroup
  dsimp only
  split
  next fault failed =>
    obtain ⟨ended, verdict, solved⟩ := (Search.tallied_start _ _ _).solve_ok
    rw [solved] at failed
    cases failed
  next solved => exact ⟨_, _, rfl⟩

theorem refuteGroup_ok (bucket : Bucket) (progress : Progress) :
    ∃ searched refuted, refuteGroup numVars settings bucket progress = .ok (searched, refuted) := by
  obtain ⟨searched, refuted, result⟩ := searchGroup_ok numVars settings bucket progress
  unfold refuteGroup
  rw [result]
  split
  next many =>
    cases refuted with
    | true => exact ⟨_, _, rfl⟩
    | false => exact ⟨_, _, rfl⟩
  next few => exact ⟨_, _, rfl⟩

theorem visit_ok (buckets : List Bucket) (progress : Progress) :
    ∃ visited refuted, visit numVars settings progress buckets = .ok (visited, refuted) := by
  induction buckets generalizing progress with
  | nil => exact ⟨_, _, rfl⟩
  | cons bucket rest ih =>
    obtain ⟨searched, refuted, result⟩ := refuteGroup_ok numVars settings bucket progress
    unfold visit
    rw [result]
    cases refuted with
    | true => exact ⟨_, _, rfl⟩
    | false =>
      dsimp only
      split
      next contradiction => exact ⟨_, _, rfl⟩
      next settled => exact ih _

theorem pass_ok (statistics : Statistics) (clauses : List Clause) :
    ∃ finished, pass numVars settings statistics clauses = .ok finished := by
  obtain ⟨visited, refuted, result⟩ := visit_ok numVars settings (arrange (buckets clauses))
    ⟨[], [], statistics.groups, #[]⟩
  unfold pass passOver
  rw [result]
  split
  next hasEmpty => exact ⟨_, rfl⟩
  next noEmpty =>
    cases refuted with
    | true => exact ⟨_, rfl⟩
    | false => exact ⟨_, rfl⟩

end Strengthening

namespace Branching

theorem prepare_ok (solver : Branching) :
    ∃ prepared refuted, solver.prepare = .ok (prepared, refuted) := by
  unfold prepare strengthen
  obtain ⟨pass, passed⟩ := Strengthening.pass_ok solver.search.numVars solver.search.settings {}
    solver.search.workspace.database.clauses.toList
  dsimp only
  rw [passed]
  split
  next asked =>
    dsimp only
    split
    next refuted => exact ⟨_, _, rfl⟩
    next handed => exact ⟨_, _, rfl⟩
  next unasked => exact ⟨_, _, rfl⟩

variable {formula : Formula} {settings : Settings} {order : BranchOrder}

theorem tallied_prepare {prepared : Branching} {refuted : Bool}
    (result : (withOrder formula settings order).prepare = .ok (prepared, refuted)) :
    prepared.search.Tallied 0 ∧ prepared.search.order = order := by
  have aligned := aligned_prepare result
  obtain ⟨lists, journal, started⟩ := started_prepare result
  rw [started] at aligned ⊢
  exact ⟨Search.tallied_of_aligned aligned rfl rfl rfl, rfl⟩

theorem decisions_of_solve {ended : Branching} {verdict : Verdict}
    (result : (withOrder formula settings order).solve = .ok (ended, verdict)) :
    ended.search.decisions < 2 ^ order.vars.toFinset.card := by
  rcases solve_cases result with ⟨_, prepared, isPrepared, ended⟩ | ⟨prepared, isPrepared, solved⟩
  · obtain ⟨tallied, rfl⟩ := tallied_prepare isPrepared
    obtain ⟨journal, concluded⟩ := prepared.search.conclude_eq .unsatisfiable
    rw [ended, concluded]
    exact tallied.decisions_lt
  · obtain ⟨tallied, rfl⟩ := tallied_prepare isPrepared
    exact tallied.decisions_of_solve solved

theorem solve_ok (formula : Formula) (settings : Settings) (order : BranchOrder) :
    ∃ ended verdict, (withOrder formula settings order).solve = .ok (ended, verdict) := by
  obtain ⟨prepared, refuted, isPrepared⟩ := prepare_ok (withOrder formula settings order)
  unfold solve
  rw [isPrepared]
  cases refuted with
  | true => exact ⟨_, _, rfl⟩
  | false =>
    obtain ⟨ended, verdict, solved⟩ := (tallied_prepare isPrepared).1.solve_ok
    refine ⟨{ prepared with search := ended, verdict? := some verdict }, verdict, ?_⟩
    show prepared.conclude = _
    rw [conclude, solved]

theorem card_vars_ofFrequencies (table : Array Nat) :
    (BranchOrder.ofFrequencies table).vars.toFinset.card ≤ table.size - 1 := by
  apply (List.toFinset_card_le _).trans
  rw [BranchOrder.ofFrequencies, List.length_mergeSort, List.length_range']

/-- Solving always ends with a verdict, after fewer decisions than there are
assignments of the variables in the order. -/
theorem solve_terminates (numVars : Nat) (clauses : List (List Int)) (settings : Settings) :
    (∀ order : BranchOrder, ∃ ended verdict,
      (withOrder (.ofClauses numVars clauses) settings order).solve = .ok (ended, verdict) ∧
      ended.search.decisions ≤ 2 ^ order.vars.toFinset.card - 1) ∧
    ∃ solver ended verdict, start (.ofClauses numVars clauses) settings = .ok solver ∧
      solver.solve = .ok (ended, verdict) ∧
      ended.search.decisions ≤ 2 ^ (Formula.ofClauses numVars clauses).numVars - 1 := by
  constructor
  · intro order
    obtain ⟨ended, verdict, result⟩ := solve_ok (.ofClauses numVars clauses) settings order
    exact ⟨ended, verdict, result, Nat.le_sub_one_of_lt (decisions_of_solve result)⟩
  · obtain ⟨table, started, size, _⟩ := start_ofClauses numVars clauses settings
    obtain ⟨ended, verdict, result⟩ := solve_ok (.ofClauses numVars clauses) settings
      (.ofFrequencies table)
    refine ⟨_, ended, verdict, started, result, Nat.le_sub_one_of_lt ?_⟩
    have card := card_vars_ofFrequencies table
    rw [size, Nat.add_sub_cancel] at card
    exact (decisions_of_solve result).trans_le (Nat.pow_le_pow_right Nat.two_pos card)

end Branching

end CnfSolver

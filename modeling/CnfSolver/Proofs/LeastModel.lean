import Mathlib
import CnfSolver.Proofs.FoundModels

/-!
# The least model

Read the variables in the order by frequency and let false come before true. The
search decides the first open variable of its order, and decides it false. So a
variable that is true on the trail was forced, or is on its second branch, and
then it is true in every model that follows the open decisions before it. These
are on variables that come earlier in the order. A model that agrees with the
one found on all earlier variables therefore has no false value where that one
has a true value: the model found is the least, whatever the settings are.
-/

namespace CnfSolver

namespace Formula

/-- The first variable comes before the second: more clauses mention it, or
equally many and its number is smaller. -/
def Ahead (formula : Formula) (first second : Nat) : Prop :=
  clauseCount formula.clauses second < clauseCount formula.clauses first ∨
    clauseCount formula.clauses first = clauseCount formula.clauses second ∧ first < second

/-- The first assignment is lexicographically smaller: it is false and the second
is true at some variable of the formula, and they agree on all that come before. -/
def Smaller (formula : Formula) (first second : Assignment) : Prop :=
  ∃ var ∈ List.range' 1 formula.numVars, first var = false ∧ second var = true ∧
    ∀ other ∈ List.range' 1 formula.numVars, formula.Ahead other var → first other = second other

theorem Ahead.asymm {formula : Formula} {first second : Nat} (ahead : formula.Ahead first second) :
    ¬formula.Ahead second first := by
  unfold Ahead at *
  omega

theorem Smaller.congr {formula : Formula} {first second other : Assignment}
    (same : ∀ var ∈ List.range' 1 formula.numVars, second var = other var)
    (smaller : formula.Smaller first second) : formula.Smaller first other := by
  obtain ⟨var, member, isFalse, isTrue, agrees⟩ := smaller
  refine ⟨var, member, isFalse, (same var member).symm.trans isTrue, ?_⟩
  intro ahead isAhead before
  rw [← same ahead isAhead]
  exact agrees ahead isAhead before

/-- The order lists the variables of the formula, each before those that it is
ahead of. -/
structure Lists (formula : Formula) (order : BranchOrder) : Prop where
  members : ∀ var, var ∈ order.vars ↔ var ∈ List.range' 1 formula.numVars
  sorted : order.vars.Pairwise formula.Ahead

theorem lists_ofFrequencies {formula : Formula} {table : Array Nat}
    (size : table.size = formula.numVars + 1)
    (counts : ∀ var, (table[var]?).getD 0 = clauseCount formula.clauses var) :
    formula.Lists (.ofFrequencies table) where
  members := by
    intro var
    rw [BranchOrder.mem_ofFrequencies, List.mem_range'_1]
    omega
  sorted := by
    have distinct : (BranchOrder.ofFrequencies table).vars.Nodup :=
      (List.mergeSort_perm _ _).nodup_iff.mpr List.nodup_range'
    apply (distinct.and (BranchOrder.pairwise_ofFrequencies table)).imp
    rintro first second ⟨different, before⟩
    simp only [BranchOrder.before, Bool.or_eq_true, Bool.and_eq_true, decide_eq_true_eq,
      beq_iff_eq, counts] at before
    unfold Ahead
    omega

/-- Of two assignments that differ on a variable of the formula, one is smaller. -/
theorem Lists.smaller_or_smaller {formula : Formula} {order : BranchOrder}
    (lists : formula.Lists order) {first second : Assignment} {var : Nat}
    (member : var ∈ List.range' 1 formula.numVars) (different : first var ≠ second var) :
    formula.Smaller first second ∨ formula.Smaller second first := by
  have someDiffers : (order.vars.find? fun other => first other != second other).isSome = true := by
    rw [List.find?_isSome]
    exact ⟨var, (lists.members var).mpr member, by simpa using different⟩
  obtain ⟨least, found⟩ := Option.isSome_iff_exists.mp someDiffers
  obtain ⟨differs, passed, rest, parts, agree⟩ := List.find?_eq_some_iff_append.mp found
  have isVar : least ∈ List.range' 1 formula.numVars := by
    rw [← lists.members, parts]
    simp
  have agreeAhead : ∀ other ∈ List.range' 1 formula.numVars, formula.Ahead other least →
      first other = second other := by
    intro other isOther ahead
    rw [← lists.members, parts, List.mem_append, List.mem_cons] at isOther
    rcases isOther with isPassed | rfl | isRest
    · simpa using agree other isPassed
    · exact absurd ahead ahead.asymm
    · have sorted := lists.sorted
      rw [parts, List.pairwise_append, List.pairwise_cons] at sorted
      exact absurd ahead (sorted.2.1.1 other isRest).asymm
  cases firstValue : first least with
  | false =>
    have secondValue : second least = true := by simpa [firstValue] using differs
    exact .inl ⟨least, isVar, firstValue, secondValue, agreeAhead⟩
  | true =>
    have secondValue : second least = false := by simpa [firstValue] using differs
    exact .inr ⟨least, isVar, secondValue, firstValue, fun other isOther ahead =>
      (agreeAhead other isOther ahead).symm⟩

end Formula

/-! ## Decisions in turn -/

/-- An open decision is on the first variable of the order that has no entry
before it. -/
def InTurn (order : BranchOrder) (earlier : List Literal) (entry : Literal) : Prop :=
  entry.isOpenDecision = true → ∃ passed rest, order.vars = passed ++ entry.var :: rest ∧
    ∀ var ∈ passed, ∃ other ∈ earlier, other.var = var

theorem inTurn_next? {order : BranchOrder} {trail : Trail} (exact : trail.Exact) {var : Nat}
    (picked : order.next? trail = some var) :
    InTurn order trail.toList (.decision var false) := by
  obtain ⟨_, passed, rest, parts, assigned⟩ := List.find?_eq_some_iff_append.mp picked
  refine fun _ => ⟨passed, rest, parts, ?_⟩
  intro other member
  exact exact.assigns_iff.mp (by simpa using assigned other member)

namespace Search

/-- The search is grounded and has made its decisions in turn. -/
structure Methodical (base : List (List Int)) (search : Search) : Prop
    extends Grounded base search where
  inTurn : Along (InTurn search.order) search.workspace.trail.toList

variable {base : List (List Int)} {search : Search}

theorem Methodical.inTurn_propagated (methodical : search.Methodical base) :
    Along (InTurn search.order) search.propagated.workspace.trail.toList := by
  obtain ⟨forced, toList, tags⟩ := methodical.synced.toList_propagated
  rw [toList]
  refine methodical.inTurn.append_forced ?_ tags
  intro earlier entry isForced isDecision
  rw [Literal.isOpenDecision_of_forced isForced] at isDecision
  cases isDecision

theorem Methodical.next? (methodical : search.Methodical base) {next : Search}
    (goesOn : search.next? = some next) : next.Methodical base := by
  refine ⟨methodical.toGrounded.next? goesOn, ?_⟩
  rw [order_eq_of_parameters (parameters_next? goesOn)]
  have inTurn := methodical.inTurn_propagated
  rcases methodical.framed.toList_next? goesOn with
    ⟨var, picked, decided⟩ | ⟨visited, _, _, frame, _, visits, _, _, _, _, flipped⟩
  · rw [decided, along_concat]
    exact ⟨inTurn, inTurn_next? methodical.synced.aligned_propagated.trail picked⟩
  · rw [flipped, along_concat, visits.trail_of_failed]
    refine ⟨inTurn.of_isPrefix (List.take_prefix _ _), ?_⟩
    intro isDecision
    cases isDecision

theorem Methodical.node? (methodical : search.Methodical base) {count : Nat} {reached : Search}
    (isNode : search.node? count = some reached) : reached.Methodical base :=
  node?_induction (Methodical base) methodical (fun _ _ before goesOn => before.next? goesOn) isNode

/-! ## The values on the trail are least -/

/-- A model that agrees with the trail on all variables ahead of a true one follows
the open decisions before it. -/
theorem Methodical.follows_decisions (methodical : search.Methodical base) {formula : Formula}
    (lists : formula.Lists search.order) {earlier later : List Literal} {entry : Literal}
    (parts : search.propagated.workspace.trail.toList = earlier ++ entry :: later)
    (member : entry.var ∈ List.range' 1 formula.numVars) {other : Assignment}
    (agrees : ∀ var ∈ List.range' 1 formula.numVars, formula.Ahead var entry.var →
      other var = search.propagated.assignment var) :
    other.Follows (earlier.filter Literal.isOpenDecision) := by
  have exact := methodical.synced.aligned_propagated.trail
  intro decision isEarlier
  obtain ⟨isEarlier, isDecision⟩ := List.mem_filter.mp isEarlier
  obtain ⟨before, between, split⟩ := List.append_of_mem isEarlier
  have initial : before ++ [decision] <+: search.propagated.workspace.trail.toList := by
    rw [parts, split]
    exact ⟨between ++ entry :: later, by simp⟩
  obtain ⟨passed, rest, order, assigned⟩ :=
    methodical.inTurn_propagated before decision initial isDecision
  -- The variable of the entry was open at the decision, so it comes later in the order.
  have isListed := (lists.members entry.var).mpr member
  rw [order, List.mem_append, List.mem_cons] at isListed
  have isRest : entry.var ∈ rest := by
    rcases isListed with isPassed | same | isRest
    · obtain ⟨assigning, isBefore, sameVar⟩ := assigned _ isPassed
      have isEarlier : assigning ∈ earlier := by
        rw [split]
        exact List.mem_append_left _ isBefore
      exact absurd sameVar (exact.var_ne_of_append parts isEarlier)
    · exact absurd same.symm (exact.var_ne_of_append parts isEarlier)
    · exact isRest
  have sorted := lists.sorted
  rw [order, List.pairwise_append, List.pairwise_cons] at sorted
  have isVar : decision.var ∈ List.range' 1 formula.numVars := by
    rw [← lists.members, order]
    simp
  have onTrail : decision ∈ search.propagated.workspace.trail.toList := by
    rw [parts]
    exact List.mem_append_left _ isEarlier
  rw [agrees decision.var isVar (sorted.2.1.1 entry.var isRest), assignment,
    exact.value?_of_mem onTrail]
  rfl

theorem Methodical.not_smaller (methodical : search.Methodical base) {formula : Formula}
    (lists : formula.Lists search.order) {other : Assignment}
    (model : other.SatisfiesAll base) : ¬formula.Smaller other search.propagated.assignment := by
  rintro ⟨var, member, isFalse, isTrue, agrees⟩
  have exact := methodical.synced.aligned_propagated.trail
  have assigned : search.propagated.workspace.trail.value? var = some true := by
    unfold assignment at isTrue
    cases value : search.propagated.workspace.trail.value? var with
    | none =>
      rw [value] at isTrue
      cases isTrue
    | some given =>
      rw [value] at isTrue
      exact congrArg some isTrue
  obtain ⟨entry, onTrail, rfl, value⟩ := exact.value?_eq_some_iff.mp assigned
  obtain ⟨earlier, later, parts⟩ := List.append_of_mem onTrail
  have initial : earlier ++ [entry] <+: search.propagated.workspace.trail.toList := by
    rw [parts]
    exact ⟨later, by simp⟩
  have notDecision : entry.isOpenDecision = false := by
    rw [Bool.eq_false_iff]
    intro isDecision
    have decidedFalse := methodical.toConsistent.propagated.values entry onTrail isDecision
    rw [value] at decidedFalse
    cases decidedFalse
  have entailed := methodical.entailed_propagated earlier entry initial notDecision other model
    (methodical.follows_decisions lists parts member agrees)
  rw [isFalse, value] at entailed
  cases entailed

end Search

/-! ## The model of a solver -/

/-- The values that a model lists, and false for every other variable. -/
def Model.toAssignment (model : Model) : Assignment := fun var => (model.value? var).getD false

namespace Branching

/-- A solver for the formula that branches by frequency ends with the model. -/
def Finds (formula : Formula) (settings : Settings) (model : Model) : Prop :=
  ∃ solver ended, start formula settings = .ok solver ∧
    solver.solve = .ok (ended, .satisfiable model)

/-- The model is that of a search whose values satisfy the clauses and are least. -/
theorem Finds.exists_search {numVars : Nat} {clauses : List (List Int)}
    (proper : ProperClauses clauses) {settings : Settings} {model : Model}
    (finds : Finds (.ofClauses numVars clauses) settings model) :
    ∃ search : Search, model = search.model ∧
      search.numVars = (Formula.ofClauses numVars clauses).numVars ∧
      search.assignment.SatisfiesAll clauses ∧
      ∀ other : Assignment, other.SatisfiesAll clauses →
        ¬(Formula.ofClauses numVars clauses).Smaller other search.assignment := by
  obtain ⟨solver, ended, started, result⟩ := finds
  obtain ⟨table, startedBy, size, counts⟩ := start_ofClauses numVars clauses settings
  rw [startedBy] at started
  cases started
  rcases solve_cases result with ⟨impossible, _⟩ | ⟨prepared, isPrepared, solved⟩
  · cases impossible
  · obtain ⟨⟨base, starts⟩, sameOrder⟩ := startsFrom_of_prepare proper isPrepared
    have grounded : prepared.search.Grounded base := by
      apply starts.grounded
      rw [sameOrder]
      exact covers_ofFrequencies proper size
    have methodical : prepared.search.Methodical base := by
      refine ⟨grounded, ?_⟩
      rw [starts.trail]
      exact along_nil
    obtain ⟨count, last, isNode, rfl, sameVars, satisfied⟩ :=
      starts.consistent.solve_satisfiable solved
    refine ⟨last.propagated, rfl, sameVars.trans starts.numVars,
      (starts.models _).mp satisfied, ?_⟩
    intro other otherModel
    refine (methodical.node? isNode).not_smaller ?_ ((starts.models other).mpr otherModel)
    rw [Search.order_eq_of_parameters (Search.parameters_node? isNode), sameOrder]
    exact Formula.lists_ofFrequencies size counts

theorem finds_of_answer {formula : Formula} {settings : Settings} {model : Model}
    (answer : ((start formula settings).bind fun solver => solver.solve.map Prod.snd) =
      .ok (.satisfiable model)) : Finds formula settings model := by
  unfold Finds
  cases started : start formula settings with
  | error fault =>
    rw [started] at answer
    cases answer
  | ok solver =>
    rw [started] at answer
    obtain ⟨ended, result⟩ := exists_ended answer
    exact ⟨solver, ended, rfl, result⟩

/-- No model comes before the one that a solver finds, and solvers with different
settings that find a model find the same one. -/
theorem least_model {numVars : Nat} (small : numVars < words32 / 2) {clauses : List (List Int)}
    (proper : ProperClauses clauses) :
    (∀ settings model, Finds (.ofClauses numVars clauses) settings model →
      ∀ other : Assignment, other.SatisfiesAll clauses →
        ¬(Formula.ofClauses numVars clauses).Smaller other model.toAssignment) ∧
    ∀ firstSettings secondSettings first second,
      Finds (.ofClauses numVars clauses) firstSettings first →
      Finds (.ofClauses numVars clauses) secondSettings second → first = second := by
  have smallFormula := numVars_ofClauses_lt small proper
  constructor
  · intro settings model finds other otherModel smaller
    obtain ⟨search, rfl, sameVars, _, least⟩ := finds.exists_search proper
    refine least other otherModel (smaller.congr fun var member => ?_)
    rw [← sameVars] at member smallFormula
    rw [Model.toAssignment, Search.value?_model smallFormula member]
    rfl
  · intro firstSettings secondSettings first second findsFirst findsSecond
    obtain ⟨firstSearch, rfl, firstVars, firstModel, firstLeast⟩ := findsFirst.exists_search proper
    obtain ⟨secondSearch, rfl, secondVars, secondModel, secondLeast⟩ :=
      findsSecond.exists_search proper
    obtain ⟨table, _, size, counts⟩ := start_ofClauses numVars clauses firstSettings
    have lists := Formula.lists_ofFrequencies size counts
    have same : ∀ var ∈ List.range' 1 (Formula.ofClauses numVars clauses).numVars,
        firstSearch.assignment var = secondSearch.assignment var := by
      intro var member
      by_contra different
      rcases lists.smaller_or_smaller member different with smaller | smaller
      · exact secondLeast _ firstModel smaller
      · exact firstLeast _ secondModel smaller
    unfold Search.model
    rw [firstVars, secondVars]
    refine congrArg Model.ofList (List.map_congr_left fun var member => ?_)
    exact congrArg (fun value => (Literal.decision var value).toSigned) (same var member)

theorem least_model_three_vars :
    Finds (.ofClauses 3 [[1, 2], [2, 3], [-1, -3]]) {} ⟨#[-1, 2, -3]⟩ ∧
    Finds (.ofClauses 3 [[1, 2], [2, 3], [-1, -3]])
      ⟨.incremental, ⟨false, 0, 0, none⟩, false, none⟩ ⟨#[-1, 2, -3]⟩ ∧
    ∀ other : Assignment, other.SatisfiesAll [[1, 2], [2, 3], [-1, -3]] →
      ¬(Formula.ofClauses 3 [[1, 2], [2, 3], [-1, -3]]).Smaller other
        (Model.toAssignment ⟨#[-1, 2, -3]⟩) := by
  have finds : Finds (.ofClauses 3 [[1, 2], [2, 3], [-1, -3]]) {} ⟨#[-1, 2, -3]⟩ :=
    finds_of_answer (by cbv)
  refine ⟨finds, finds_of_answer (by cbv), ?_⟩
  exact (least_model (by decide) (by decide)).1 _ _ finds

end Branching

end CnfSolver

import CnfSolver.Proofs.PairScan
import CnfSolver.Proofs.SolverAgreement

/-!
# A pass does what a scan of all pairs would do

A pass keeps the clauses that resolve with no other one and appends the resolvents of
all pairs, each once, in the order of the scan. It refutes its input if there is an
empty clause, if two clauses resolve to the empty clause, or if three or more clauses
are all the clauses over their variables and have no model. None of this depends on
the order in which the buckets come.
-/

namespace CnfSolver

namespace Strengthening

variable {clauses : List Clause}

/-! ## The outcome, by the scan -/

/-- The clause at the place resolves with no clause at another place. -/
def Isolated (clauses : List Clause) (place : Nat) : Prop :=
  ∀ other < clauses.length, other ≠ place → resolventAt? clauses (place, other) = none

instance (clauses : List Clause) (place : Nat) : Decidable (Isolated clauses place) :=
  inferInstanceAs (Decidable (∀ other < clauses.length, other ≠ place → _))

/-- The clauses that resolve with no other one, in order. -/
def keptClauses (clauses : List Clause) : List (List Int) :=
  ((members clauses).filter fun entry => Isolated clauses entry.index).map fun entry =>
    entry.clause.literals

/-- The resolvents of all pairs that no kept clause equals, each where the scan first
finds it. -/
def newClauses (clauses : List Clause) : List (List Int) :=
  ((scan clauses).filterMap (resolventAt? clauses)).eraseDups.filter fun resolvent =>
    resolvent ∉ keptClauses clauses

/-- The clauses over the given set of variables. -/
def clausesOver (clauses : List Clause) (vars : Finset Nat) : List Clause :=
  clauses.filter fun clause => clause.varSet = vars

/-- What a pass refutes its input by. -/
inductive Contradictory (clauses : List Clause) : Prop where
  | empty {clause : Clause} : clause ∈ clauses → clause.literals = [] → Contradictory clauses
  | pair {first second : Nat} : first < second →
      resolventAt? clauses (first, second) = some [] → Contradictory clauses
  | group {vars : Finset Nat} : 3 ≤ (clausesOver clauses vars).length →
      (¬∃ assignment : Assignment,
        assignment.SatisfiesAll ((clausesOver clauses vars).map Clause.literals)) →
      Contradictory clauses

/-! ## Buckets without a model -/

/-- The bucket has more than two clauses and no model. -/
def Bucket.Hopeless (bucket : Bucket) : Prop :=
  2 < bucket.members.length ∧ ¬∃ assignment : Assignment,
    assignment.SatisfiesAll (bucket.members.map fun entry => entry.clause.literals)

variable {numVars : Nat} {settings : Settings} {progress after : Progress}

/-- The search of a bucket tells whether the bucket has a model. -/
theorem Bucket.Of.searchGroup_verdict {bucket : Bucket} (of : bucket.Of clauses)
    (proper : ProperClauses (clauses.map Clause.literals)) {refuted : Bool}
    (result : searchGroup numVars settings bucket progress = .ok (after, refuted)) :
    refuted = true ↔ ¬∃ assignment : Assignment,
      assignment.SatisfiesAll (bucket.members.map fun entry => entry.clause.literals) := by
  let alone : Settings := { settings with preprocessing := false, maxDecisions := none }
  let solver := Branching.withOrder
    (.ofClauses numVars (bucket.members.map fun entry => entry.clause.literals)) alone
    (.ofVars bucket.vars)
  obtain ⟨ended, verdict, solved, rfl, _⟩ := searchGroup_cases result
  have concluded : solver.solve =
      .ok ({ solver with search := ended, verdict? := some verdict }, verdict) := by
    show solver.conclude = _
    unfold Branching.conclude
    rw [show solver.search.solve = .ok (ended, verdict) from solved]
  have settles := Branching.settles_of_solve (of.proper proper) rfl of.covers concluded
  cases verdict with
  | satisfiable model => exact iff_of_false Bool.false_ne_true (not_not_intro settles)
  | unsatisfiable => exact iff_of_true rfl settles
  | stopped limit => exact settles.elim

theorem Bucket.Of.refuteGroup_verdict {bucket : Bucket} (of : bucket.Of clauses)
    (proper : ProperClauses (clauses.map Clause.literals)) {refuted : Bool}
    (result : refuteGroup numVars settings bucket progress = .ok (after, refuted)) :
    (refuted = true ↔ bucket.Hopeless) ∧
      after.replaced = progress.replaced ∧ after.resolvents = progress.resolvents := by
  refine ⟨?_, refuteGroup_progress result⟩
  rcases refuteGroup_cases result with ⟨many, searched, group, _⟩ | ⟨few, rfl, _⟩
  · rw [of.searchGroup_verdict proper group]
    exact (and_iff_right many).symm
  · exact iff_of_false Bool.false_ne_true fun hopeless => few hopeless.1

/-! ## What a pass records -/

/-- The places of the clauses that a pair replaces. -/
def touched (pair : Member × Member) : List Nat :=
  if (resolvent? pair).isSome then [pair.1.index, pair.2.index] else []

/-- The progress after the given pairs: their resolvents, each once, and the places of
those that resolve. -/
structure Progress.Records (visited : List (Member × Member)) (progress : Progress) : Prop where
  resolvents : progress.resolvents = (visited.filterMap resolvent?).eraseDups
  replaced : ∀ place, place ∈ progress.replaced ↔ place ∈ visited.flatMap touched

section

variable {visited : List (Member × Member)}

theorem Progress.Records.congr (records : progress.Records visited)
    (replaced : after.replaced = progress.replaced)
    (resolvents : after.resolvents = progress.resolvents) : after.Records visited :=
  ⟨resolvents ▸ records.resolvents, replaced ▸ records.replaced⟩

theorem Progress.Records.skip (records : progress.Records visited) {pair : Member × Member}
    (apart : resolvent? pair = none) : progress.Records (visited ++ [pair]) := by
  constructor
  · rw [List.filterMap_append, List.filterMap_cons_none apart, List.filterMap_nil,
      List.append_nil]
    exact records.resolvents
  · intro place
    simp [records.replaced place, touched, apart]

theorem Progress.Records.replace (records : progress.Records visited) {pair : Member × Member}
    {resolvent : List Int} (resolved : resolvent? pair = some resolvent) :
    (progress.replace pair.1.index pair.2.index resolvent).Records (visited ++ [pair]) := by
  constructor
  · have isKnown : resolvent ∈ progress.resolvents ↔ resolvent ∈ visited.filterMap resolvent? := by
      rw [records.resolvents, List.mem_eraseDups]
    rw [List.filterMap_append, List.filterMap_cons_some resolved, List.filterMap_nil,
      List.eraseDups_append, ← records.resolvents]
    by_cases known : resolvent ∈ visited.filterMap resolvent?
    · simp [Progress.replace, List.removeAll, isKnown.mpr known, known]
    · simp [Progress.replace, List.removeAll, List.eraseDups_cons, mt isKnown.mp known, known]
  · intro place
    simp only [Progress.replace, List.mem_cons, records.replaced place, List.flatMap_append,
      List.mem_append, List.flatMap_singleton, touched, resolved, Option.isSome_some, if_true,
      List.not_mem_nil, or_false]
    tauto

end

theorem resolvePairs_records (visited : List (Member × Member))
    {candidates : List (Member × Member)} {contradicted : Bool}
    (result : resolvePairs progress candidates = (after, contradicted)) :
    (contradicted = true ↔ [] ∈ candidates.filterMap resolvent?) ∧
      (contradicted = false → progress.Records visited →
        after.Records (visited ++ candidates)) := by
  fun_induction resolvePairs progress candidates generalizing visited with
  | case1 progress =>
    cases result
    refine ⟨by simp, fun _ records => ?_⟩
    rwa [List.append_nil]
  | case2 progress first second rest apart ih =>
    have skipped : resolvent? (first, second) = none := apart
    obtain ⟨verdict, recorded⟩ := ih (visited ++ [(first, second)]) result
    refine ⟨?_, fun settled records => ?_⟩
    · rwa [List.filterMap_cons_none skipped]
    · have further := recorded settled (records.skip skipped)
      rwa [List.append_assoc] at further
  | case3 progress first second rest resolved =>
    cases result
    refine ⟨iff_of_true rfl ?_, fun impossible => Bool.noConfusion impossible⟩
    exact List.mem_filterMap.mpr ⟨(first, second), List.mem_cons_self, resolved⟩
  | case4 progress first second rest resolvent nonempty resolved ih =>
    have replacing : resolvent? (first, second) = some resolvent := resolved
    obtain ⟨verdict, recorded⟩ := ih (visited ++ [(first, second)]) result
    refine ⟨?_, fun settled records => ?_⟩
    · rw [List.filterMap_cons_some replacing, List.mem_cons, verdict]
      exact (or_iff_right fun empty => nonempty empty.symm).symm
    · have further := recorded settled (records.replace replacing)
      rwa [List.append_assoc] at further

/-- The bucket has no model, or two of its clauses contradict each other. -/
def Bucket.Refuted (bucket : Bucket) : Prop :=
  bucket.Hopeless ∨ [] ∈ (pairs bucket.members).filterMap resolvent?

theorem visit_records (visited : List (Member × Member))
    (proper : ProperClauses (clauses.map Clause.literals))
    {groups : List Bucket} (fromInput : ∀ bucket ∈ groups, bucket.Of clauses) {refuted : Bool}
    (result : visit numVars settings progress groups = .ok (after, refuted)) :
    (refuted = true ↔ ∃ bucket ∈ groups, bucket.Refuted) ∧
      (refuted = false → progress.Records visited →
        after.Records (visited ++ groups.flatMap fun bucket => pairs bucket.members)) := by
  induction groups generalizing progress visited with
  | nil =>
    cases result
    refine ⟨by simp, fun _ records => ?_⟩
    rwa [List.flatMap_nil, List.append_nil]
  | cons bucket rest ih =>
    obtain ⟨of, ofRest⟩ := List.forall_mem_cons.mp fromInput
    rcases visit_cases result with ⟨rfl, group⟩ | ⟨searched, group, visits⟩
    · have hopeless := (of.refuteGroup_verdict proper group).1.mp rfl
      exact ⟨iff_of_true rfl ⟨bucket, List.mem_cons_self, .inl hopeless⟩,
        fun impossible => Bool.noConfusion impossible⟩
    · obtain ⟨verdict, replaced, resolvents⟩ := of.refuteGroup_verdict proper group
      rcases visits with ⟨rfl, contradiction⟩ | ⟨resolved, settled, later⟩
      · have contradicts := (resolvePairs_records visited contradiction).1.mp rfl
        exact ⟨iff_of_true rfl ⟨bucket, List.mem_cons_self, .inr contradicts⟩,
          fun impossible => Bool.noConfusion impossible⟩
      · obtain ⟨contradicts, recorded⟩ := resolvePairs_records visited settled
        have harmless : ¬bucket.Refuted := by
          rintro (hopeless | contradiction)
          · exact Bool.false_ne_true (verdict.mpr hopeless)
          · exact Bool.false_ne_true (contradicts.mpr contradiction)
        obtain ⟨restVerdict, restRecorded⟩ := ih (visited ++ pairs bucket.members) ofRest later
        refine ⟨?_, fun unrefuted records => ?_⟩
        · rw [restVerdict, List.exists_mem_cons_iff]
          exact (or_iff_right harmless).symm
        · have further := restRecorded unrefuted
            (recorded rfl (records.congr replaced resolvents))
          rwa [List.append_assoc] at further

/-! ## The verdict -/

theorem clausesOver_eq (canonical : ∀ clause ∈ clauses, clause.Canonical) {clause : Clause}
    (isClause : clause ∈ clauses) :
    (bucketOver clauses (signature clause)).members.map Member.clause =
      clausesOver clauses clause.varSet := by
  have listed : (members clauses).map Member.clause = clauses := by
    rw [members, List.map_map]
    exact List.zipIdx_map_fst 0 clauses
  calc (bucketOver clauses (signature clause)).members.map Member.clause
      = ((members clauses).map Member.clause).filter
          fun other => signature other == signature clause := by
        rw [List.filter_map]
        rfl
    _ = clausesOver clauses clause.varSet := by
        rw [listed]
        apply List.filter_congr
        intro other isOther
        rw [Bool.eq_iff_iff, beq_iff_eq, decide_eq_true_eq]
        exact signature_eq_iff (canonical other isOther) (canonical clause isClause)

/-- The buckets without a model are the sets of variables with more than two clauses
and no model. -/
theorem exists_hopeless_iff (canonical : ∀ clause ∈ clauses, clause.Canonical) :
    (∃ bucket ∈ arrange (buckets clauses), bucket.Hopeless) ↔
      ∃ vars : Finset Nat, 3 ≤ (clausesOver clauses vars).length ∧
        ¬∃ assignment : Assignment,
          assignment.SatisfiesAll ((clausesOver clauses vars).map Clause.literals) := by
  have same : ∀ clause ∈ clauses, (bucketOver clauses (signature clause)).Hopeless ↔
      3 ≤ (clausesOver clauses clause.varSet).length ∧ ¬∃ assignment : Assignment,
        assignment.SatisfiesAll ((clausesOver clauses clause.varSet).map Clause.literals) := by
    intro clause isClause
    rw [← clausesOver_eq canonical isClause, List.length_map, List.map_map]
    rfl
  constructor
  · rintro ⟨bucket, member, hopeless⟩
    obtain ⟨clause, isClause, rfl⟩ := mem_arrange_buckets.mp member
    exact ⟨clause.varSet, (same clause isClause).mp hopeless⟩
  · rintro ⟨vars, many, noModel⟩
    obtain ⟨clause, member⟩ := List.exists_mem_of_length_pos (Nat.zero_lt_of_lt many)
    obtain ⟨isClause, sameVars⟩ := List.mem_filter.mp member
    rw [decide_eq_true_eq] at sameVars
    subst sameVars
    exact ⟨_, mem_arrange_buckets.mpr ⟨clause, isClause, rfl⟩,
      (same clause isClause).mpr ⟨many, noModel⟩⟩

theorem exists_contradiction_iff (canonical : ∀ clause ∈ clauses, clause.Canonical) :
    [] ∈ (visitedPairs clauses).filterMap resolvent? ↔
      ∃ first second, first < second ∧ resolventAt? clauses (first, second) = some [] := by
  rw [filterMap_visitedPairs canonical, List.mem_filterMap]
  constructor
  · rintro ⟨pair, isPair, resolved⟩
    exact ⟨pair.1, pair.2, (mem_scan.mp isPair).1, resolved⟩
  · rintro ⟨first, second, before, resolved⟩
    obtain ⟨_, _, _, there, _⟩ := resolventAt?_eq_some.mp resolved
    exact ⟨(first, second), mem_scan.mpr ⟨before, (List.getElem?_eq_some_iff.mp there).1⟩, resolved⟩

theorem contradictory_iff (canonical : ∀ clause ∈ clauses, clause.Canonical) :
    Contradictory clauses ↔ (∃ clause ∈ clauses, clause.literals = []) ∨
      ∃ bucket ∈ arrange (buckets clauses), bucket.Refuted := by
  have split : (∃ bucket ∈ arrange (buckets clauses), bucket.Refuted) ↔
      (∃ bucket ∈ arrange (buckets clauses), bucket.Hopeless) ∨
        [] ∈ (visitedPairs clauses).filterMap resolvent? := by
    simp only [Bucket.Refuted, and_or_left, exists_or, visitedPairs, List.filterMap_flatMap,
      List.mem_flatMap]
  rw [split, exists_hopeless_iff canonical, exists_contradiction_iff canonical]
  constructor
  · intro contradictory
    cases contradictory with
    | empty isClause empty => exact .inl ⟨_, isClause, empty⟩
    | pair before resolved => exact .inr (.inr ⟨_, _, before, resolved⟩)
    | group many noModel => exact .inr (.inl ⟨_, many, noModel⟩)
  · rintro (⟨_, isClause, empty⟩ | ⟨_, many, noModel⟩ | ⟨_, _, before, resolved⟩)
    · exact .empty isClause empty
    · exact .group many noModel
    · exact .pair before resolved

/-! ## What a pass hands on -/

theorem resolventAt?_swap (clauses : List Clause) (first second : Nat) :
    resolventAt? clauses (first, second) = resolventAt? clauses (second, first) := by
  unfold resolventAt?
  cases clauses[first]? with
  | none => cases clauses[second]? <;> rfl
  | some one =>
    cases clauses[second]? with
    | none => rfl
    | some other => exact resolve?_comm one.literals other.literals

theorem lt_length_of_resolves {pair : Nat × Nat}
    (resolves : (resolventAt? clauses pair).isSome = true) :
    pair.1 < clauses.length ∧ pair.2 < clauses.length := by
  obtain ⟨_, resolved⟩ := Option.isSome_iff_exists.mp resolves
  obtain ⟨_, _, isFirst, isSecond, _⟩ := resolventAt?_eq_some.mp resolved
  exact ⟨(List.getElem?_eq_some_iff.mp isFirst).1, (List.getElem?_eq_some_iff.mp isSecond).1⟩

theorem mem_touched_of_resolves {pair : Nat × Nat} (before : pair.1 < pair.2)
    (resolves : (resolventAt? clauses pair).isSome = true) :
    pair.1 ∈ (visitedPairs clauses).flatMap touched ∧
      pair.2 ∈ (visitedPairs clauses).flatMap touched := by
  have isPair := mem_scan.mpr ⟨before, (lt_length_of_resolves resolves).2⟩
  obtain ⟨visited, isVisited, rfl⟩ :=
    List.mem_map.mp ((mem_places_visitedPairs resolves).mpr isPair)
  obtain ⟨isFirst, isSecond, _⟩ := mem_visitedPairs.mp isVisited
  rw [resolventAt?_places isFirst isSecond] at resolves
  have both : touched visited = [(places visited).1, (places visited).2] := if_pos resolves
  constructor
  · exact List.mem_flatMap.mpr ⟨visited, isVisited, by rw [both]; simp⟩
  · exact List.mem_flatMap.mpr ⟨visited, isVisited, by rw [both]; simp⟩

/-- A clause is replaced unless it is isolated. -/
theorem mem_touched_iff {place : Nat} :
    place ∈ (visitedPairs clauses).flatMap touched ↔ ¬Isolated clauses place := by
  constructor
  · intro isTouched isolated
    obtain ⟨pair, isVisited, isTouched⟩ := List.mem_flatMap.mp isTouched
    obtain ⟨isFirst, isSecond, before, _⟩ := mem_visitedPairs.mp isVisited
    unfold touched at isTouched
    split at isTouched
    next resolves =>
      rw [← resolventAt?_places isFirst isSecond] at resolves
      obtain ⟨firstInside, secondInside⟩ := lt_length_of_resolves resolves
      simp only [places] at resolves firstInside secondInside
      rcases List.mem_pair.mp isTouched with rfl | rfl
      · rw [isolated _ secondInside before.ne'] at resolves
        cases resolves
      · rw [resolventAt?_swap, isolated _ firstInside before.ne] at resolves
        cases resolves
    next alone => cases isTouched
  · intro notIsolated
    simp only [Isolated, not_forall, exists_prop] at notIsolated
    obtain ⟨other, _, different, resolves⟩ := notIsolated
    rw [← ne_eq, Option.ne_none_iff_isSome] at resolves
    rcases Nat.lt_or_gt_of_ne different with after | before
    · rw [resolventAt?_swap] at resolves
      exact (mem_touched_of_resolves after resolves).2
    · exact (mem_touched_of_resolves before resolves).1

theorem survivors_eq (records : progress.Records (visitedPairs clauses)) :
    survivors clauses progress.replaced = (keptClauses clauses).map Clause.ofList := by
  have same : (members clauses).filter (fun entry => !progress.replaced.contains entry.index) =
      (members clauses).filter fun entry => Isolated clauses entry.index := by
    apply List.filter_congr
    intro entry _
    rw [Bool.eq_iff_iff, Bool.not_eq_true', ← Bool.not_eq_true, List.contains_iff_mem,
      records.replaced, mem_touched_iff, not_not, decide_eq_true_eq]
  rw [survivors, same, keptClauses, List.map_map]
  rfl

/-- A resolvent of clauses in canonical form is in canonical form. -/
theorem normalise_resolvent (canonical : ∀ clause ∈ clauses, clause.Canonical)
    {pair : Nat × Nat} {resolvent : List Int}
    (resolved : resolventAt? clauses pair = some resolvent) : normalise resolvent = resolvent := by
  obtain ⟨first, second, isFirst, _, resolved⟩ := resolventAt?_eq_some.mp resolved
  obtain ⟨earlier, pivot, later, literals, _, rfl⟩ := resolve?_eq_some resolved
  have ordered := (canonical first (List.mem_of_getElem? isFirst)).pairwise
  rw [literals] at ordered
  apply normalise_of_pairwise
  exact ordered.sublist ((List.sublist_cons_self pivot later).append_left earlier)

/-- What is handed on is in canonical form. -/
theorem normalise_of_mem_outcome (canonical : ∀ clause ∈ clauses, clause.Canonical)
    {literals : List Int} (member : literals ∈ keptClauses clauses ++ newClauses clauses) :
    normalise literals = literals := by
  rcases List.mem_append.mp member with isKept | isNew
  · obtain ⟨entry, isEntry, rfl⟩ := List.mem_map.mp isKept
    exact canonical entry.clause (clause_mem_of_mem_members (List.mem_filter.mp isEntry).1)
  · have isResolvent := List.mem_eraseDups.mp (List.mem_filter.mp isNew).1
    obtain ⟨pair, _, resolved⟩ := List.mem_filterMap.mp isResolvent
    exact normalise_resolvent canonical resolved

theorem literals_outcome (canonical : ∀ clause ∈ clauses, clause.Canonical)
    {lists : List (List Int)} (included : lists ⊆ keptClauses clauses ++ newClauses clauses) :
    (lists.map Clause.ofList).map Clause.literals = lists := by
  rw [map_literals_ofList]
  have same := List.map_congr_left fun literals member =>
    normalise_of_mem_outcome canonical (included member)
  exact same.trans (List.map_id lists)

theorem additions_eq (canonical : ∀ clause ∈ clauses, clause.Canonical)
    (records : progress.Records (visitedPairs clauses)) :
    additions ((keptClauses clauses).map Clause.ofList) progress.resolvents =
      (newClauses clauses).map Clause.ofList := by
  rw [additions, literals_outcome canonical (List.subset_append_left _ _), records.resolvents,
    filterMap_visitedPairs canonical, newClauses]
  congr 1
  apply List.filter_congr
  intro resolvent _
  simp

theorem length_keptClauses_le (clauses : List Clause) :
    (keptClauses clauses).length ≤ clauses.length := by
  have all : (members clauses).length = clauses.length := by
    rw [members, List.length_map, List.length_zipIdx]
  rw [keptClauses, List.length_map, ← all]
  exact List.length_filter_le _ _

/-- The clauses that a pass hands on and its counters are those of the scan. -/
structure HandsOn (clauses handed : List Clause) (statistics : Statistics) : Prop where
  fresh : handed = (keptClauses clauses ++ newClauses clauses).map Clause.ofList
  literals : handed.map Clause.literals = keptClauses clauses ++ newClauses clauses
  removed : statistics.removed + (keptClauses clauses).length = clauses.length
  added : statistics.added = (newClauses clauses).length

theorem Progress.Records.finish (canonical : ∀ clause ∈ clauses, clause.Canonical)
    (records : progress.Records (visitedPairs clauses)) :
    ∃ handed, (progress.finish clauses).result = .clauses handed ∧
      HandsOn clauses handed (progress.finish clauses).statistics := by
  have kept := survivors_eq records
  have added := additions_eq canonical records
  refine ⟨_, rfl, ?_, ?_, ?_, ?_⟩
  · rw [kept, added, List.map_append]
  · rw [kept, added, ← List.map_append]
    exact literals_outcome canonical (List.Subset.refl _)
  · simp only [Progress.finish, kept, List.length_map]
    exact Nat.sub_add_cancel (length_keptClauses_le clauses)
  · simp only [Progress.finish, kept, added, List.length_map]

theorem pass_cases (canonical : ∀ clause ∈ clauses, clause.Canonical)
    (proper : ProperClauses (clauses.map Clause.literals)) {statistics : Statistics}
    {finished : Pass} (result : pass numVars settings statistics clauses = .ok finished) :
    (finished.result = .refuted ∧ Contradictory clauses) ∨
    (¬Contradictory clauses ∧ ∃ handed, finished.result = .clauses handed ∧
      HandsOn clauses handed finished.statistics) := by
  have fromInput : ∀ bucket ∈ arrange (buckets clauses), bucket.Of clauses := fun _ member =>
    Bucket.of_mem_arrange member
  rcases passOver_cases result with ⟨hasEmpty, rfl⟩ | ⟨noEmpty, progress, refuted, visits, rfl⟩
  · obtain ⟨clause, member, isEmpty⟩ := List.any_eq_true.mp hasEmpty
    exact .inl ⟨rfl, .empty member (clause.isEmpty_iff.mp isEmpty)⟩
  · obtain ⟨verdict, recorded⟩ := visit_records [] proper fromInput visits
    cases refuted with
    | true => exact .inl ⟨rfl, (contradictory_iff canonical).mpr (.inr (verdict.mp rfl))⟩
    | false =>
      refine .inr ⟨fun contradictory => ?_, ?_⟩
      · rcases (contradictory_iff canonical).mp contradictory with ⟨clause, member, empty⟩ | refuted
        · exact noEmpty (List.any_eq_true.mpr ⟨clause, member, clause.isEmpty_iff.mpr empty⟩)
        · exact Bool.false_ne_true (verdict.mpr refuted)
      · have start : Progress.Records [] ⟨[], [], statistics.groups, #[]⟩ := ⟨rfl, by simp⟩
        exact Progress.Records.finish canonical (recorded rfl start)

/-- A pass refutes its input or hands on what a scan of all pairs would, in whatever
order the buckets come. -/
theorem pass_equals_scan (numVars : Nat) (settings : Settings) (statistics : Statistics)
    (canonical : ∀ clause ∈ clauses, clause.Canonical)
    (proper : ProperClauses (clauses.map Clause.literals)) :
    ∃ finished, pass numVars settings statistics clauses = .ok finished ∧
      (∀ groups, groups.Perm (buckets clauses) →
        passOver numVars settings statistics clauses groups = .ok finished) ∧
      (finished.result = .refuted ↔ Contradictory clauses) ∧
      (¬Contradictory clauses → ∃ handed, finished.result = .clauses handed ∧
        HandsOn clauses handed finished.statistics) := by
  obtain ⟨finished, result⟩ := pass_ok numVars settings statistics clauses
  refine ⟨finished, result, fun groups same => ?_, ?_⟩
  · rw [← result, pass, passOver, passOver, arrange_eq_of_perm same]
  · rcases pass_cases canonical proper result with
      ⟨refuted, contradictory⟩ | ⟨harmless, handed, isHanded, handsOn⟩
    · exact ⟨iff_of_true refuted contradictory, fun harmless => absurd contradictory harmless⟩
    · refine ⟨iff_of_false ?_ harmless, fun _ => ⟨handed, isHanded, handsOn⟩⟩
      rw [isHanded]
      exact Result.noConfusion

/-- Two pairs resolve inside one bucket and a third pair resolves to a clause that is
kept. The buckets come in reverse. -/
theorem pass_equals_scan_six :
    let clauses := [[3, 4], [1, 2], [-1, 2], [2], [3, -4], [-3, 4]].map Clause.ofList
    ∃ finished handed,
      passOver 4 {} {} clauses (buckets clauses).reverse = .ok finished ∧
      finished.result = .clauses handed ∧
      handed.map Clause.literals = [[2], [3], [4]] ∧
      finished.statistics.removed = 5 ∧ finished.statistics.added = 2 := by
  intro clauses
  have canonical : ∀ clause ∈ clauses, clause.Canonical := by
    intro clause member
    obtain ⟨literals, _, rfl⟩ := List.mem_map.mp member
    exact Clause.canonical_ofList literals
  have proper : ProperClauses (clauses.map Clause.literals) := by decide
  have scanned : keptClauses clauses = [[2]] ∧ newClauses clauses = [[3], [4]] := by
    decide +kernel
  have model : Assignment.SatisfiesAll (fun _ => true) (clauses.map Clause.literals) := by
    decide
  obtain ⟨finished, result, anyOrder, verdict, hands⟩ := pass_equals_scan 4 {} {} canonical proper
  have harmless : ¬Contradictory clauses := by
    intro contradictory
    have sound := pass_sound proper result
    rw [verdict.mpr contradictory] at sound
    exact sound _ model
  obtain ⟨handed, isHanded, handsOn⟩ := hands harmless
  have removed := handsOn.removed
  have literals := handsOn.literals
  rw [scanned.1] at removed literals
  rw [scanned.2] at literals
  refine ⟨finished, handed, anyOrder _ (List.reverse_perm _), isHanded, literals,
    Nat.add_right_cancel removed, ?_⟩
  rw [handsOn.added, scanned.2]
  rfl

end Strengthening

end CnfSolver

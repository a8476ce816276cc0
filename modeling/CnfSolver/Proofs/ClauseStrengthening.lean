import CnfSolver.Strengthening
import CnfSolver.Proofs.Refutation

/-!
# Strengthening keeps the models

A resolvent holds in an assignment if and only if both of its clauses do. A pass
replaces clauses only by resolvents of clauses of its input, so what it hands on
has the models of the input, and no other variables. A pass that refutes its
input found an empty clause, two clauses that contradict each other, or a bucket
that a search of its own refutes.
-/

namespace CnfSolver

/-! ## Clause lists -/

theorem Clause.isEmpty_iff (clause : Clause) : clause.isEmpty = true ↔ clause.literals = [] := by
  simp [isEmpty, literals]

namespace Assignment

theorem satisfies_normalise {assignment : Assignment} {literals : List Int} :
    assignment.Satisfies (normalise literals) ↔ assignment.Satisfies literals :=
  ⟨fun satisfied => satisfied.mono fun _ member => mem_normalise.mp member,
    fun satisfied => satisfied.mono fun _ member => mem_normalise.mpr member⟩

theorem satisfiesAll_map_literals {assignment : Assignment} {clauses : List Clause} :
    assignment.SatisfiesAll (clauses.map Clause.literals) ↔
      ∀ clause ∈ clauses, assignment.Satisfies clause.literals := by
  simp [SatisfiesAll]

theorem satisfiesAll_normalise {assignment : Assignment} {clauses : List (List Int)} :
    assignment.SatisfiesAll (clauses.map normalise) ↔ assignment.SatisfiesAll clauses := by
  simp [SatisfiesAll, satisfies_normalise]

end Assignment

theorem mentions_map_literals {clauses : List Clause} {var : Nat} :
    Mentions (clauses.map Clause.literals) var ↔
      ∃ clause ∈ clauses, ∃ literal ∈ clause.literals, literal.natAbs = var := by
  simp [Mentions]

theorem mentions_normalise {clauses : List (List Int)} {var : Nat} :
    Mentions (clauses.map normalise) var ↔ Mentions clauses var := by
  simp [Mentions]

theorem map_literals_ofList (clauses : List (List Int)) :
    (clauses.map Clause.ofList).map Clause.literals = clauses.map normalise := by
  simp

theorem properClauses_normalise {clauses : List (List Int)} (proper : ProperClauses clauses) :
    ProperClauses (clauses.map normalise) := by
  rw [properClauses_iff] at proper ⊢
  intro var mentioned
  exact proper var (mentions_normalise.mp mentioned)

/-- A search that starts from the clauses of a formula. -/
theorem Search.grounded_start (formula : Formula) (settings : Settings) {order : BranchOrder}
    (proper : ProperClauses formula.clauses) (covers : order.Covers formula.clauses) :
    (Search.start formula settings order).Grounded (formula.clauses.map normalise) := by
  refine grounded_of_aligned (Workspace.aligned_ofFormula formula) ?_
    (properClauses_normalise proper) rfl rfl ?_
  · rw [← map_literals_ofList]
    exact Database.contents_ofClauses _ _
  · intro var mentioned
    exact covers var (mentions_normalise.mp mentioned)

namespace Strengthening

/-! ## Resolvents -/

theorem resolve?_eq_some {firsts seconds resolvent : List Int}
    (resolved : resolve? firsts seconds = some resolvent) :
    ∃ earlier pivot later, firsts = earlier ++ pivot :: later ∧
      seconds = earlier ++ -pivot :: later ∧ resolvent = earlier ++ later := by
  fun_induction resolve? firsts seconds generalizing resolvent with
  | case1 firsts head seconds ih =>
    obtain ⟨shorter, found, rfl⟩ := Option.map_eq_some_iff.mp resolved
    obtain ⟨earlier, pivot, later, rfl, rfl, rfl⟩ := ih found
    exact ⟨head :: earlier, pivot, later, rfl, rfl, rfl⟩
  | case2 first firsts second seconds different complementary =>
    simp only [Bool.and_eq_true, decide_eq_true_eq, beq_iff_eq] at complementary
    obtain ⟨rfl, rfl⟩ := complementary
    cases resolved
    exact ⟨[], -second, firsts, rfl, by simp, rfl⟩
  | case3 => cases resolved
  | case4 => cases resolved

theorem mem_of_resolve? {firsts seconds resolvent : List Int}
    (resolved : resolve? firsts seconds = some resolvent) {literal : Int}
    (member : literal ∈ resolvent) : literal ∈ firsts ∧ literal ∈ seconds := by
  obtain ⟨earlier, pivot, later, rfl, rfl, rfl⟩ := resolve?_eq_some resolved
  rcases List.mem_append.mp member with isEarlier | isLater
  · exact ⟨List.mem_append_left _ isEarlier, List.mem_append_left _ isEarlier⟩
  · exact ⟨List.mem_append_right _ (List.mem_cons_of_mem _ isLater),
      List.mem_append_right _ (List.mem_cons_of_mem _ isLater)⟩

/-- Where both clauses hold, the resolvent does. -/
theorem satisfies_resolvent {firsts seconds resolvent : List Int}
    (resolved : resolve? firsts seconds = some resolvent)
    (nonzero : ∀ literal ∈ firsts, literal ≠ 0) {assignment : Assignment}
    (first : assignment.Satisfies firsts) (second : assignment.Satisfies seconds) :
    assignment.Satisfies resolvent := by
  obtain ⟨earlier, pivot, later, rfl, rfl, rfl⟩ := resolve?_eq_some resolved
  obtain ⟨literal, member, holds⟩ := first
  by_cases isPivot : literal = pivot
  · -- The pivot is true, so the second clause holds by a literal it shares.
    subst isPivot
    obtain ⟨other, otherMember, otherHolds⟩ := second
    have differs : other ≠ -literal := by
      rintro rfl
      exact (Assignment.holds_neg_iff (nonzero literal (by simp))).mp otherHolds holds
    exact ⟨other, by simpa [differs] using otherMember, otherHolds⟩
  · exact ⟨literal, by simpa [isPivot] using member, holds⟩

/-! ## Pairs and buckets -/

theorem mem_members {clauses : List Clause} {entry : Member} :
    entry ∈ members clauses ↔ clauses[entry.index]? = some entry.clause := by
  simp only [members, List.mem_map, List.mem_zipIdx_iff_getElem?]
  constructor
  · rintro ⟨pair, there, rfl⟩
    exact there
  · intro there
    exact ⟨(entry.clause, entry.index), there, rfl⟩

theorem clause_mem_of_mem_members {clauses : List Clause} {entry : Member}
    (member : entry ∈ members clauses) : entry.clause ∈ clauses :=
  List.mem_of_getElem? (mem_members.mp member)

theorem mem_of_mem_pairs {Element : Type} {elements : List Element} {first second : Element}
    (member : (first, second) ∈ pairs elements) : first ∈ elements ∧ second ∈ elements := by
  induction elements with
  | nil => cases member
  | cons head tail ih =>
    rcases List.mem_append.mp member with isHead | isTail
    · obtain ⟨other, otherMember, same⟩ := List.mem_map.mp isHead
      cases same
      exact ⟨List.mem_cons_self, List.mem_cons_of_mem _ otherMember⟩
    · exact ⟨List.mem_cons_of_mem _ (ih isTail).1, List.mem_cons_of_mem _ (ih isTail).2⟩

theorem perm_insertBucket (bucket : Bucket) (arranged : List Bucket) :
    (insertBucket bucket arranged).Perm (bucket :: arranged) := by
  induction arranged with
  | nil => rfl
  | cons head tail ih =>
    unfold insertBucket
    split
    next before => rfl
    next behind => exact (ih.cons head).trans (.swap bucket head tail)

/-- Arranging neither adds nor loses a bucket. -/
theorem perm_arrange (groups : List Bucket) : (arrange groups).Perm groups := by
  induction groups with
  | nil => rfl
  | cons bucket rest ih => exact (perm_insertBucket bucket _).trans (ih.cons bucket)

theorem mem_bucketOver {clauses : List Clause} {vars : List Nat} {entry : Member} :
    entry ∈ (bucketOver clauses vars).members ↔
      entry ∈ members clauses ∧ signature entry.clause = vars := by
  simp [bucketOver]

/-- The bucket holds clauses of the input, all over its own variables. -/
structure Bucket.Of (clauses : List Clause) (bucket : Bucket) : Prop where
  members : ∀ entry ∈ bucket.members, entry ∈ Strengthening.members clauses
  vars : ∀ entry ∈ bucket.members, signature entry.clause = bucket.vars

theorem Bucket.of_mem_buckets {clauses : List Clause} {bucket : Bucket}
    (member : bucket ∈ buckets clauses) : bucket.Of clauses := by
  obtain ⟨vars, _, rfl⟩ := List.mem_map.mp member
  exact ⟨fun _ isMember => (mem_bucketOver.mp isMember).1,
    fun _ isMember => (mem_bucketOver.mp isMember).2⟩

theorem Bucket.of_mem_arrange {clauses : List Clause} {bucket : Bucket}
    (member : bucket ∈ arrange (buckets clauses)) : bucket.Of clauses :=
  Bucket.of_mem_buckets ((perm_arrange _).mem_iff.mp member)

theorem Bucket.Of.proper {clauses : List Clause} {bucket : Bucket} (of : bucket.Of clauses)
    (proper : ProperClauses (clauses.map Clause.literals)) :
    ProperClauses (bucket.members.map fun entry => entry.clause.literals) := by
  intro literals member
  obtain ⟨entry, isMember, rfl⟩ := List.mem_map.mp member
  exact proper _ (List.mem_map_of_mem (clause_mem_of_mem_members (of.members entry isMember)))

theorem Bucket.Of.covers {clauses : List Clause} {bucket : Bucket} (of : bucket.Of clauses) :
    (BranchOrder.ofVars bucket.vars).Covers
      (bucket.members.map fun entry => entry.clause.literals) := by
  rintro var ⟨literals, member, literal, literalMember, rfl⟩
  obtain ⟨entry, isMember, rfl⟩ := List.mem_map.mp member
  rw [← of.vars entry isMember, BranchOrder.ofVars, List.mem_eraseDups, signature, mem_eraseReps]
  obtain ⟨slot, slotMember, rfl⟩ := List.mem_map.mp literalMember
  exact List.mem_map_of_mem slotMember

/-- A bucket that a search refutes leaves the whole input without a model. -/
theorem Bucket.Of.not_satisfiesAll {clauses : List Clause} {bucket : Bucket}
    (of : bucket.Of clauses) (proper : ProperClauses (clauses.map Clause.literals)) {numVars : Nat}
    {settings : Settings} {progress after : Progress}
    (result : searchGroup numVars settings bucket progress = .ok (after, true))
    (assignment : Assignment) : ¬assignment.SatisfiesAll (clauses.map Clause.literals) := by
  intro model
  let literals := bucket.members.map fun entry => entry.clause.literals
  have groupModel : assignment.SatisfiesAll literals := by
    intro clause member
    obtain ⟨entry, isMember, rfl⟩ := List.mem_map.mp member
    exact model _ (List.mem_map_of_mem (clause_mem_of_mem_members (of.members entry isMember)))
  obtain ⟨ended, verdict, solved, isUnsatisfiable, _⟩ := searchGroup_cases result
  obtain rfl := eq_of_beq isUnsatisfiable.symm
  have grounded := Search.grounded_start (Formula.ofClauses numVars literals)
    { settings with preprocessing := false, maxDecisions := none } (of.proper proper) of.covers
  exact grounded.not_satisfiesAll_of_solve solved assignment
    (Assignment.satisfiesAll_normalise.mpr groupModel)

/-! ## A pass under way -/

/-- Every replaced clause is implied by a resolvent, and every resolvent comes from
two clauses of the input. -/
structure Progress.Sound (clauses : List Clause) (progress : Progress) : Prop where
  replaced : ∀ place ∈ progress.replaced, ∃ clause, clauses[place]? = some clause ∧
    ∃ resolvent ∈ progress.resolvents, resolvent ⊆ clause.literals
  resolvents : ∀ resolvent ∈ progress.resolvents, ∃ first ∈ clauses, ∃ second ∈ clauses,
    resolve? first.literals second.literals = some resolvent

theorem mem_resolvents_replace {progress : Progress} {first second : Nat}
    {resolvent other : List Int} :
    other ∈ (progress.replace first second resolvent).resolvents ↔
      other ∈ progress.resolvents ∨ other = resolvent := by
  unfold Progress.replace
  dsimp only
  split
  next known =>
    constructor
    · exact .inl
    · rintro (member | rfl)
      · exact member
      · simpa using known
  next unknown => simp

theorem Progress.Sound.replace {clauses : List Clause} {progress : Progress}
    (sound : progress.Sound clauses) {first second : Member} (isFirst : first ∈ members clauses)
    (isSecond : second ∈ members clauses) {resolvent : List Int}
    (resolved : resolve? first.clause.literals second.clause.literals = some resolvent) :
    (progress.replace first.index second.index resolvent).Sound clauses := by
  have isNew : resolvent ∈ (progress.replace first.index second.index resolvent).resolvents :=
    mem_resolvents_replace.mpr (.inr rfl)
  constructor
  · intro place member
    rcases List.mem_cons.mp member with rfl | later
    · refine ⟨second.clause, mem_members.mp isSecond, resolvent, isNew, ?_⟩
      exact fun literal isLiteral => (mem_of_resolve? resolved isLiteral).2
    · rcases List.mem_cons.mp later with rfl | old
      · refine ⟨first.clause, mem_members.mp isFirst, resolvent, isNew, ?_⟩
        exact fun literal isLiteral => (mem_of_resolve? resolved isLiteral).1
      · obtain ⟨clause, there, earlier, isEarlier, included⟩ := sound.replaced place old
        exact ⟨clause, there, earlier, mem_resolvents_replace.mpr (.inl isEarlier), included⟩
  · intro other member
    rcases mem_resolvents_replace.mp member with old | rfl
    · exact sound.resolvents other old
    · exact ⟨first.clause, clause_mem_of_mem_members isFirst, second.clause,
        clause_mem_of_mem_members isSecond, resolved⟩

/-- The resolvents of the input hold in every model of it. -/
theorem satisfies_of_resolve? {clauses : List Clause}
    (proper : ProperClauses (clauses.map Clause.literals)) {assignment : Assignment}
    (model : assignment.SatisfiesAll (clauses.map Clause.literals)) {first second : Clause}
    (isFirst : first ∈ clauses) (isSecond : second ∈ clauses) {resolvent : List Int}
    (resolved : resolve? first.literals second.literals = some resolvent) :
    assignment.Satisfies resolvent := by
  have holds := Assignment.satisfiesAll_map_literals.mp model
  refine satisfies_resolvent resolved ?_ (holds first isFirst) (holds second isSecond)
  intro literal member
  exact (proper first.literals (List.mem_map_of_mem isFirst) literal member).1

theorem resolvePairs_sound {clauses : List Clause}
    (proper : ProperClauses (clauses.map Clause.literals)) {progress after : Progress}
    (sound : progress.Sound clauses) {candidates : List (Member × Member)}
    (fromInput : ∀ pair ∈ candidates, pair.1 ∈ members clauses ∧ pair.2 ∈ members clauses)
    {contradicted : Bool} (result : resolvePairs progress candidates = (after, contradicted)) :
    after.Sound clauses ∧ (contradicted = true → ∀ assignment : Assignment,
      ¬assignment.SatisfiesAll (clauses.map Clause.literals)) := by
  fun_induction resolvePairs progress candidates with
  | case1 progress =>
    cases result
    exact ⟨sound, fun impossible => Bool.noConfusion impossible⟩
  | case2 progress first second rest none ih =>
    exact ih sound (fun pair member => fromInput pair (List.mem_cons_of_mem _ member)) result
  | case3 progress first second rest resolved =>
    cases result
    obtain ⟨isFirst, isSecond⟩ := fromInput (first, second) List.mem_cons_self
    refine ⟨⟨sound.replaced, sound.resolvents⟩, fun _ assignment model => ?_⟩
    have empty := satisfies_of_resolve? proper model (clause_mem_of_mem_members isFirst)
      (clause_mem_of_mem_members isSecond) resolved
    exact assignment.satisfies_nil empty
  | case4 progress first second rest resolvent nonempty resolved ih =>
    obtain ⟨isFirst, isSecond⟩ := fromInput (first, second) List.mem_cons_self
    exact ih (sound.replace isFirst isSecond resolved)
      (fun pair member => fromInput pair (List.mem_cons_of_mem _ member)) result

theorem searchGroup_progress {numVars : Nat} {settings : Settings} {bucket : Bucket}
    {progress after : Progress} {refuted : Bool}
    (result : searchGroup numVars settings bucket progress = .ok (after, refuted)) :
    after.replaced = progress.replaced ∧ after.resolvents = progress.resolvents := by
  obtain ⟨_, _, _, _, rfl⟩ := searchGroup_cases result
  exact ⟨rfl, rfl⟩

theorem refuteGroup_progress {numVars : Nat} {settings : Settings} {bucket : Bucket}
    {progress after : Progress} {refuted : Bool}
    (result : refuteGroup numVars settings bucket progress = .ok (after, refuted)) :
    after.replaced = progress.replaced ∧ after.resolvents = progress.resolvents := by
  rcases refuteGroup_cases result with ⟨_, searched, group, rfl⟩ | ⟨_, _, rfl⟩
  · have kept := searchGroup_progress group
    cases refuted with
    | true => exact kept
    | false => exact kept
  · exact ⟨rfl, rfl⟩

theorem refuteGroup_sound {clauses : List Clause}
    (proper : ProperClauses (clauses.map Clause.literals)) {bucket : Bucket}
    (of : bucket.Of clauses) {numVars : Nat} {settings : Settings} {progress after : Progress}
    (sound : progress.Sound clauses) {refuted : Bool}
    (result : refuteGroup numVars settings bucket progress = .ok (after, refuted)) :
    after.Sound clauses ∧ (refuted = true → ∀ assignment : Assignment,
      ¬assignment.SatisfiesAll (clauses.map Clause.literals)) := by
  obtain ⟨replaced, resolvents⟩ := refuteGroup_progress result
  refine ⟨⟨?_, ?_⟩, fun isRefuted => ?_⟩
  · simpa only [replaced, resolvents] using sound.replaced
  · simpa only [resolvents] using sound.resolvents
  · subst isRefuted
    rcases refuteGroup_cases result with ⟨_, searched, group, _⟩ | ⟨_, impossible, _⟩
    · exact of.not_satisfiesAll proper group
    · cases impossible

theorem visit_sound {clauses : List Clause}
    (proper : ProperClauses (clauses.map Clause.literals)) {numVars : Nat} {settings : Settings}
    {progress after : Progress} (sound : progress.Sound clauses) {visited : List Bucket}
    (fromInput : ∀ bucket ∈ visited, bucket.Of clauses) {refuted : Bool}
    (result : visit numVars settings progress visited = .ok (after, refuted)) :
    after.Sound clauses ∧ (refuted = true → ∀ assignment : Assignment,
      ¬assignment.SatisfiesAll (clauses.map Clause.literals)) := by
  induction visited generalizing progress with
  | nil =>
    cases result
    exact ⟨sound, fun impossible => Bool.noConfusion impossible⟩
  | cons bucket rest ih =>
    obtain ⟨of, ofRest⟩ := List.forall_mem_cons.mp fromInput
    have pairsFromInput : ∀ pair ∈ pairs bucket.members,
        pair.1 ∈ members clauses ∧ pair.2 ∈ members clauses := by
      rintro ⟨first, second⟩ member
      obtain ⟨isFirst, isSecond⟩ := mem_of_mem_pairs member
      exact ⟨of.members first isFirst, of.members second isSecond⟩
    rcases visit_cases result with ⟨rfl, group⟩ | ⟨searched, group, visits⟩
    · exact refuteGroup_sound proper of sound group
    · have searchedSound := (refuteGroup_sound proper of sound group).1
      rcases visits with ⟨rfl, contradiction⟩ | ⟨resolved, settled, later⟩
      · exact resolvePairs_sound proper searchedSound pairsFromInput contradiction
      · have resolvedSound :=
          (resolvePairs_sound proper searchedSound pairsFromInput settled).1
        exact ih resolvedSound ofRest later

/-! ## A finished pass -/

/-- What a pass says of its input: it has no model, or the clauses that the pass
hands on have the same models and no other variables. -/
def Result.Sound (input : List Clause) : Result → Prop
  | .refuted => ∀ assignment : Assignment, ¬assignment.SatisfiesAll (input.map Clause.literals)
  | .clauses handed =>
      (∀ assignment : Assignment, assignment.SatisfiesAll (handed.map Clause.literals) ↔
        assignment.SatisfiesAll (input.map Clause.literals)) ∧
      ∀ var, Mentions (handed.map Clause.literals) var → Mentions (input.map Clause.literals) var

theorem mem_survivors {clauses : List Clause} {replaced : List Nat} {kept : Clause} :
    kept ∈ survivors clauses replaced ↔ ∃ place clause, clauses[place]? = some clause ∧
      place ∉ replaced ∧ kept = .ofList clause.literals := by
  simp only [survivors, List.mem_map, List.mem_filter, mem_members]
  constructor
  · rintro ⟨entry, ⟨there, isKept⟩, rfl⟩
    exact ⟨entry.index, entry.clause, there, by simpa using isKept, rfl⟩
  · rintro ⟨place, clause, there, isKept, rfl⟩
    exact ⟨⟨place, clause⟩, ⟨there, by simpa using isKept⟩, rfl⟩

theorem satisfies_of_mem_resolvents {kept : List Clause} {resolvents : List (List Int)}
    {assignment : Assignment}
    (model : assignment.SatisfiesAll ((kept ++ additions kept resolvents).map Clause.literals))
    {resolvent : List Int} (member : resolvent ∈ resolvents) : assignment.Satisfies resolvent := by
  have holds := Assignment.satisfiesAll_map_literals.mp model
  by_cases known : (kept.map Clause.literals).contains resolvent = true
  · rw [List.contains_iff_mem, List.mem_map] at known
    obtain ⟨clause, isKept, rfl⟩ := known
    exact holds clause (List.mem_append_left _ isKept)
  · have isAdded : Clause.ofList resolvent ∈ additions kept resolvents :=
      List.mem_map_of_mem (List.mem_filter.mpr ⟨member, by simpa using known⟩)
    have satisfied := holds _ (List.mem_append_right _ isAdded)
    rw [Clause.literals_ofList] at satisfied
    exact Assignment.satisfies_normalise.mp satisfied

theorem eq_ofList_of_mem_handed {clauses : List Clause} {progress : Progress} {handed : Clause}
    (member : handed ∈ survivors clauses progress.replaced ++
      additions (survivors clauses progress.replaced) progress.resolvents) :
    ∃ literals, handed = .ofList literals ∧
      (literals ∈ clauses.map Clause.literals ∨ literals ∈ progress.resolvents) := by
  rcases List.mem_append.mp member with kept | added
  · obtain ⟨place, clause, there, _, rfl⟩ := mem_survivors.mp kept
    exact ⟨clause.literals, rfl, .inl (List.mem_map_of_mem (List.mem_of_getElem? there))⟩
  · obtain ⟨resolvent, isResolvent, rfl⟩ := List.mem_map.mp added
    exact ⟨resolvent, rfl, .inr (List.mem_filter.mp isResolvent).1⟩

theorem Progress.Sound.finish {clauses : List Clause}
    (proper : ProperClauses (clauses.map Clause.literals)) {progress : Progress}
    (sound : progress.Sound clauses) : (progress.finish clauses).result.Sound clauses := by
  refine ⟨fun assignment => ⟨fun model => ?_, fun model => ?_⟩, ?_⟩
  · -- A clause was kept, or a resolvent with fewer literals took its place.
    rw [Assignment.satisfiesAll_map_literals]
    intro clause member
    obtain ⟨place, there⟩ := List.getElem?_of_mem member
    by_cases isReplaced : place ∈ progress.replaced
    · obtain ⟨other, otherThere, resolvent, isResolvent, included⟩ :=
        sound.replaced place isReplaced
      rw [there] at otherThere
      cases otherThere
      exact (satisfies_of_mem_resolvents model isResolvent).mono included
    · have isKept : Clause.ofList clause.literals ∈ survivors clauses progress.replaced :=
        mem_survivors.mpr ⟨place, clause, there, isReplaced, rfl⟩
      have satisfied := Assignment.satisfiesAll_map_literals.mp model _
        (List.mem_append_left _ isKept)
      rw [Clause.literals_ofList] at satisfied
      exact Assignment.satisfies_normalise.mp satisfied
  · rw [Assignment.satisfiesAll_map_literals]
    intro handed member
    obtain ⟨literals, rfl, isInput | isResolvent⟩ := eq_ofList_of_mem_handed member
    · rw [Clause.literals_ofList, Assignment.satisfies_normalise]
      exact model literals isInput
    · obtain ⟨first, isFirst, second, isSecond, resolved⟩ := sound.resolvents literals isResolvent
      rw [Clause.literals_ofList, Assignment.satisfies_normalise]
      exact satisfies_of_resolve? proper model isFirst isSecond resolved
  · intro var mentioned
    obtain ⟨handed, member, literal, literalMember, sameVar⟩ := mentions_map_literals.mp mentioned
    obtain ⟨literals, rfl, isInput | isResolvent⟩ := eq_ofList_of_mem_handed member
    · rw [Clause.literals_ofList, mem_normalise] at literalMember
      exact ⟨literals, isInput, literal, literalMember, sameVar⟩
    · obtain ⟨first, isFirst, _, _, resolved⟩ := sound.resolvents literals isResolvent
      rw [Clause.literals_ofList, mem_normalise] at literalMember
      exact mentions_map_literals.mpr
        ⟨first, isFirst, literal, (mem_of_resolve? resolved literalMember).1, sameVar⟩

/-- A pass keeps the models of its input. -/
theorem pass_sound {clauses : List Clause} (proper : ProperClauses (clauses.map Clause.literals))
    {numVars : Nat} {settings : Settings} {statistics : Statistics} {finished : Pass}
    (result : pass numVars settings statistics clauses = .ok finished) :
    finished.result.Sound clauses := by
  have fromInput : ∀ bucket ∈ arrange (buckets clauses), bucket.Of clauses := fun _ member =>
    Bucket.of_mem_arrange member
  have start : Progress.Sound clauses ⟨[], [], statistics.groups, #[]⟩ :=
    ⟨by simp, by simp⟩
  rcases passOver_cases result with ⟨hasEmpty, rfl⟩ | ⟨_, progress, refuted, visited, rfl⟩
  · obtain ⟨clause, member, isEmpty⟩ := List.any_eq_true.mp hasEmpty
    intro assignment model
    have satisfied := Assignment.satisfiesAll_map_literals.mp model clause member
    rw [clause.isEmpty_iff.mp isEmpty] at satisfied
    exact assignment.satisfies_nil satisfied
  · obtain ⟨progressSound, refutes⟩ := visit_sound proper start fromInput visited
    cases refuted with
    | true => exact refutes rfl
    | false => exact progressSound.finish proper

end Strengthening

end CnfSolver

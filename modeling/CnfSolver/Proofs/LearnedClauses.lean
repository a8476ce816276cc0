import CnfSolver.Proofs.PreparedSearch
import Mathlib.Data.List.Nodup

/-!
# The clauses that a search learns

Clauses are only appended, and only when a conflict is analysed. What is appended
has one literal for each of its variables, since the candidate is read off the
trail, and it is new, since the list of known clauses is exact. So at every point
of a run the database is the one that the search started from, followed by learned
clauses within the limits of the policy, and it has the models of the formula.
-/

namespace CnfSolver

namespace Database

/-! ## Databases that grow -/

/-- The literals of the learned clauses, oldest first. -/
def learnedContents (database : Database) : List (List Int) :=
  database.learnedClauses.map Clause.literals

/-- The database holds the clauses `base`, followed by clauses that were learned
within the limits of the policy. -/
structure GrownFrom (base : List (List Int)) (policy : LearningPolicy) (database : Database) :
    Prop where
  stored : database.contents = base ++ database.learnedContents
  indexed : database.known = database.contents.reverse
  counted : database.learned = database.learnedContents.length
  single : ∀ literals ∈ database.learnedContents, (literals.map Int.natAbs).Nodup
  nonempty : ∀ literals ∈ database.learnedContents, literals ≠ []
  admitted : ∀ literals ∈ database.learnedContents,
    policy.minLength ≤ literals.length ∧ literals.length ≤ policy.maxLength
  once : ∀ literals ∈ database.learnedContents, database.contents.count literals = 1
  capped : ∀ cap, policy.cap = some cap → database.learnedContents.length ≤ cap

theorem learnedContents_under (database : Database) (values : Valuation) :
    (database.under values).learnedContents = database.learnedContents := by
  simp [learnedContents, learnedClauses, under, List.filter_map, Function.comp_def]

theorem learnedContents_eq_of_bare {first second : Database} (same : first.bare = second.bare) :
    first.learnedContents = second.learnedContents := by
  rw [← learnedContents_under first .blank, ← learnedContents_under second .blank]
  exact congrArg learnedContents same

theorem learnedContents_push (database : Database) {clause : Clause}
    (learned : clause.learned = true) :
    (database.push clause).learnedContents = database.learnedContents ++ [clause.literals] := by
  simp [learnedContents, learnedClauses, push, learned]

variable {base : List (List Int)} {policy : LearningPolicy} {database : Database}

theorem GrownFrom.of_bare {other : Database} (grown : database.GrownFrom base policy)
    (same : other.bare = database.bare) : other.GrownFrom base policy := by
  have contents := contents_eq_of_bare same
  have learned := learnedContents_eq_of_bare same
  have known : other.bare.known = database.bare.known := congrArg Database.known same
  have count : other.bare.learned = database.bare.learned := congrArg Database.learned same
  refine ⟨?_, ?_, ?_, ?_, ?_, ?_, ?_, ?_⟩
  · rw [contents, learned]
    exact grown.stored
  · rw [contents, ← grown.indexed]
    exact known
  · rw [learned, ← grown.counted]
    exact count
  · exact learned ▸ grown.single
  · exact learned ▸ grown.nonempty
  · exact learned ▸ grown.admitted
  · rw [learned, contents]
    exact grown.once
  · exact learned ▸ grown.capped

theorem GrownFrom.mem_contents (grown : database.GrownFrom base policy) {literals : List Int}
    (member : literals ∈ database.learnedContents) : literals ∈ database.contents := by
  rw [grown.stored]
  exact List.mem_append_right _ member

/-- A learned clause may be appended if it is new and within the limits. -/
theorem GrownFrom.push (grown : database.GrownFrom base policy) {clause : Clause}
    (learned : clause.learned = true) (single : (clause.literals.map Int.natAbs).Nodup)
    (nonempty : clause.literals ≠ [])
    (admitted : policy.admitsLength clause.literals.length = true)
    (unknown : clause.literals ∉ database.known)
    (uncapped : policy.isCapped database.learned = false) :
    (database.push clause).GrownFrom base policy := by
  have contents := contents_push database clause
  have extended := learnedContents_push database learned
  have fresh : clause.literals ∉ database.contents := by
    rw [grown.indexed, List.mem_reverse] at unknown
    exact unknown
  have both : ∀ {holds : List Int → Prop},
      (∀ literals ∈ database.learnedContents, holds literals) → holds clause.literals →
      ∀ literals ∈ (database.push clause).learnedContents, holds literals := by
    intro holds old new literals member
    rw [extended] at member
    rcases List.mem_append.mp member with earlier | last
    · exact old literals earlier
    · exact List.mem_singleton.mp last ▸ new
  refine ⟨?_, ?_, ?_, both grown.single single, both grown.nonempty nonempty,
    both grown.admitted ?_, both ?_ ?_, ?_⟩
  · rw [contents, extended, grown.stored, List.append_assoc]
  · rw [contents, List.reverse_append, ← grown.indexed]
    rfl
  · rw [extended, List.length_append, ← grown.counted]
    simp [Database.push, learned]
  · simpa [LearningPolicy.admitsLength] using admitted
  · intro literals member
    have different : clause.literals ≠ literals := by
      rintro rfl
      exact fresh (grown.mem_contents member)
    rw [contents, List.count_append, grown.once literals member,
      List.count_eq_zero_of_not_mem (by simpa using different.symm)]
  · rw [contents, List.count_append, List.count_eq_zero_of_not_mem fresh, List.count_singleton_self]
  · intro cap isCap
    have below : database.learned < cap := by
      simpa [LearningPolicy.isCapped, isCap] using uncapped
    rw [grown.counted] at below
    rw [extended, List.length_append]
    exact below

end Database

/-! ## The candidate -/

namespace Workspace

variable {workspace : Workspace}

/-- The candidate has one literal for each of its variables. -/
theorem Aligned.nodup_candidate (aligned : workspace.Aligned)
    (proper : ProperClauses workspace.database.contents) (var : Nat) :
    ((normalise (workspace.candidate var).literals).map Int.natAbs).Nodup := by
  refine List.Nodup.map_on ?_ (nodup_normalise _)
  intro first firstMember second secondMember sameVar
  rw [mem_normalise] at firstMember secondMember
  obtain ⟨one, isReason, entry, found, rfl⟩ := mem_literals_candidate.mp firstMember
  obtain ⟨other, otherReason, twin, twinFound, rfl⟩ := mem_literals_candidate.mp secondMember
  rw [(aligned.toSigned_negated proper isReason found).1,
    (aligned.toSigned_negated proper otherReason twinFound).1] at sameVar
  rw [sameVar, twinFound] at found
  rw [Option.some.inj found]

/-- A candidate with a last position has a literal. -/
theorem Aligned.candidate_ne_nil (aligned : workspace.Aligned) {var : Nat}
    (placed : (workspace.candidate var).lastPosition.isSome = true) :
    normalise (workspace.candidate var).literals ≠ [] := by
  obtain ⟨last, position⟩ := Option.isSome_iff_exists.mp placed
  have isPlace := (List.max?_eq_some_iff.mp position).1
  obtain ⟨other, isReason, _⟩ := List.mem_filterMap.mp isPlace
  obtain ⟨entry, member, sameVar⟩ := aligned.trail.assigns_iff.mp (mem_reasonVars.mp isReason).2
  have found : workspace.trail.get? other = some entry :=
    aligned.trail.get?_eq_some_iff.mpr ⟨member, sameVar⟩
  apply List.ne_nil_of_mem
  rw [mem_normalise]
  exact mem_literals_candidate.mpr ⟨other, isReason, entry, found, rfl⟩

end Workspace

namespace Search

/-! ## Whole runs -/

variable {base : List (List Int)} {policy : LearningPolicy} {search : Search}

theorem Faithful.satisfiesAll_iff (faithful : search.Faithful base) {assignment : Assignment} :
    assignment.SatisfiesAll search.workspace.database.contents ↔ assignment.SatisfiesAll base := by
  refine ⟨?_, faithful.implied assignment⟩
  intro model clause member
  exact model clause (faithful.stored.subset member)

structure Growing (base : List (List Int)) (policy : LearningPolicy) (search : Search) : Prop
    extends Faithful base search where
  learning : search.settings.learning = policy
  grown : search.workspace.database.GrownFrom base policy

theorem Growing.learns (growing : search.Growing base policy) {visited : Search} {unit : Int}
    (learns : search.Learns visited unit) : visited.workspace.database.GrownFrom base policy := by
  have aligned := growing.synced.aligned_propagated
  have proper := growing.toFaithful.propagated.proper_contents
  have admits := learns.admitted
  rw [growing.learning] at admits
  have literals : (Clause.learnedOfList
      (search.propagated.workspace.candidate unit.natAbs).literals).literals =
        normalise (search.propagated.workspace.candidate unit.natAbs).literals :=
    Clause.literals_ofList _
  have pushed : (search.propagated.workspace.database.push (.learnedOfList
      (search.propagated.workspace.candidate unit.natAbs).literals)).GrownFrom base policy := by
    apply (growing.grown.of_bare growing.synced.bare_propagated).push rfl
    · rw [literals]
      exact aligned.nodup_candidate proper _
    · rw [literals]
      exact aligned.candidate_ne_nil learns.placed
    · rw [literals]
      exact admits.length
    · rw [literals]
      exact admits.unknown
    · exact admits.uncapped
  apply pushed.of_bare
  rw [learns.database, Database.learn_eq_under aligned.trail aligned.states, Database.bare_under]

theorem Growing.visits (growing : search.Growing base policy) {visited : Search} {outcome : Step}
    (visits : search.Visits visited outcome) : visited.Growing base policy := by
  have sameSettings := settings_eq_of_parameters visits.parameters
  refine ⟨growing.toFaithful.visits visits, sameSettings ▸ growing.learning, ?_⟩
  rcases growing.synced.stored_visits visits with same | ⟨unit, learns⟩
  · exact growing.grown.of_bare same
  · exact growing.learns learns

theorem invariant_growing (base : List (List Int)) (policy : LearningPolicy) :
    Invariant (Growing base policy) where
  enter := fun {search} growing =>
    ⟨growing.toFaithful.enter,
      settings_eq_of_parameters search.parameters_enter ▸ growing.learning,
      growing.grown.of_bare growing.synced.bare_enter⟩
  propagated := fun {search} growing =>
    ⟨growing.toFaithful.propagated,
      settings_eq_of_parameters search.parameters_propagated ▸ growing.learning,
      growing.grown.of_bare growing.synced.bare_propagated⟩
  visits := fun growing visits => growing.visits visits
  unwind := fun growing result =>
    ⟨(invariant_faithful base).unwind growing.toFaithful result,
      settings_eq_of_parameters (parameters_unwind result) ▸ growing.learning,
      growing.grown.of_bare (growing.synced.bare_unwind result)⟩

theorem Ends.passes {last final : Search} {verdict : Verdict} (ends : last.Ends final verdict)
    {count : Nat} (isNode : search.node? count = some last) : search.Passes final := by
  cases ends with
  | satisfied stepped => exact .visited isNode stepped
  | stopped stepped => exact .visited isNode stepped
  | exhausted stepped unwound => exact .unwound ⟨count, last, isNode, stepped⟩ unwound

end Search

namespace Branching

variable {formula : Formula} {settings : Settings} {order : BranchOrder} {policy : LearningPolicy}

/-- Nothing is learned yet, and the clauses of the search have the models of the
formula. -/
structure Ready (formula : Formula) (policy : LearningPolicy) (search : Search) : Prop where
  growing : search.Growing search.workspace.database.contents policy
  models : ∀ assignment : Assignment,
    assignment.SatisfiesAll search.workspace.database.contents ↔
      assignment.SatisfiesAll formula.clauses

/-- What the search stores on its way has grown from where it started, and has the
models of the formula. -/
theorem Ready.passes {search : Search} (ready : Ready formula policy search) {state : Search}
    (passes : search.Passes state) :
    state.workspace.database.GrownFrom search.workspace.database.contents policy ∧
    ∀ assignment : Assignment, assignment.SatisfiesAll state.workspace.database.contents ↔
      assignment.SatisfiesAll formula.clauses := by
  have growing := (Search.invariant_growing _ _).passes ready.growing passes
  exact ⟨growing.grown, fun assignment =>
    growing.toFaithful.satisfiesAll_iff.trans (ready.models assignment)⟩

end Branching

end CnfSolver

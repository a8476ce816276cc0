import CnfSolver.Proofs.FrameStack

/-!
# The clauses of a search stay true to where it started

The stored clauses start with the clauses that the search began with, and those
that were learned hold in every model of these. This is kept by propagation,
decisions, learning and unwinding, so together with the match of frames and trail
it holds at every node of a run.
-/

namespace CnfSolver

namespace Search

variable {base : List (List Int)} {search : Search}

/-! ## What a step does to the stored clauses -/

theorem Synced.congr {other : Search} (synced : search.Synced)
    (database : other.workspace.database = search.workspace.database)
    (trail : other.workspace.trail = search.workspace.trail)
    (settings : other.settings = search.settings) : other.Synced := by
  refine ⟨?_, ?_, ?_⟩
  · exact database ▸ synced.database
  · exact trail ▸ synced.trail
  · rw [database, trail, settings]
    exact synced.states

theorem Synced.bare_push (synced : search.Synced) (literal : Literal) :
    (search.push literal).workspace.database.bare = search.workspace.database.bare := by
  unfold Search.push
  cases mode : search.settings.replay with
  | full => rfl
  | incremental =>
    have assigned := (synced.aligned_of_incremental mode).database_assign literal
    simp only [Workspace.assign, assigned, Database.bare_under]

theorem Synced.bare_truncate (synced : search.Synced) (length : Nat) :
    (search.truncate length).workspace.database.bare = search.workspace.database.bare := by
  unfold Search.truncate
  cases mode : search.settings.replay with
  | full => rfl
  | incremental =>
    have backtracked := (synced.aligned_of_incremental mode).database_backtrack length
    simp only [backtracked, Database.bare_under]

theorem Synced.bare_enter (synced : search.Synced) :
    search.enter.workspace.database.bare = search.workspace.database.bare := by
  rw [synced.enter_eq]
  exact Database.bare_under _ _

theorem Synced.bare_propagated (synced : search.Synced) :
    search.propagated.workspace.database.bare = search.workspace.database.bare := by
  rw [← synced.bare_enter, synced.derives_propagated.database synced.aligned_enter]
  exact Database.bare_under _ _

theorem Synced.decideVar (synced : search.Synced) (var : Nat) : (search.decideVar var).Synced := by
  apply Synced.push
  exact synced.congr rfl rfl rfl

theorem Synced.visits (synced : search.Synced) {visited : Search} {outcome : Step}
    (visits : search.Visits visited outcome) : visited.Synced := by
  have aligned := synced.aligned_propagated
  have propagated : search.propagated.Synced := .of_aligned aligned
  cases visits with
  | satisfied => exact propagated
  | stuck => exact propagated
  | stopped => exact propagated
  | decided => exact propagated.decideVar _
  | conflicting _ analysed => exact .of_aligned (aligned.analyse analysed)
  | falsified => exact .of_aligned (aligned.log _)

theorem scan_of_conflict {literal : Literal}
    (outcome : search.enter.workspace.propagate.2 = .conflict literal) :
    ∃ unit : Int, search.propagated.workspace.scan = .conflict unit ∧
      literal.var = unit.natAbs := by
  have ended := search.enter.workspace.propagate_outcome
  rw [outcome] at ended
  obtain ⟨unit, scanned, rfl⟩ := ended
  exact ⟨unit, scanned, rfl⟩

/-- The visit of a node appends the candidate of a conflict to the clauses that
propagation leaves. -/
structure Learns (search visited : Search) (unit : Int) : Prop where
  conflict : search.propagated.workspace.scan = .conflict unit
  admitted : search.propagated.workspace.Admits search.settings.learning unit.natAbs
  placed : (search.propagated.workspace.candidate unit.natAbs).lastPosition.isSome = true
  database : visited.workspace.database = search.propagated.workspace.database.learn
    (.learnedOfList (search.propagated.workspace.candidate unit.natAbs).literals)
    search.propagated.workspace.trail

/-- The visit of a node stores nothing new or learns one clause. -/
theorem Synced.stored_visits (synced : search.Synced) {visited : Search} {outcome : Step}
    (visits : search.Visits visited outcome) :
    visited.workspace.database.bare = search.workspace.database.bare ∨
    ∃ unit, search.Learns visited unit := by
  have propagated := synced.bare_propagated
  cases visits with
  | satisfied => exact .inl propagated
  | stuck => exact .inl propagated
  | stopped => exact .inl propagated
  | decided =>
    left
    rw [← propagated]
    apply Synced.bare_push
    exact (Synced.of_aligned synced.aligned_propagated).congr rfl rfl rfl
  | conflicting conflict analysed =>
    obtain ⟨unit, scanned, sameVar⟩ := scan_of_conflict conflict
    rw [sameVar] at analysed
    rcases Workspace.analyse_cases analysed with
      ⟨_, _, rfl⟩ | ⟨last, _, _, admits, position, _, _, rfl⟩
    · exact .inl propagated
    · exact .inr ⟨unit, scanned, admits, by rw [position]; rfl, rfl⟩
  | falsified => exact .inl propagated

theorem Synced.unwind (synced : search.Synced) {signal : Signal} {unwound : Search}
    {flipped : Bool} (result : search.unwind signal = .ok (unwound, flipped)) :
    unwound.Synced := by
  rcases unwindFrames_cases rfl result with
    ⟨_, _, frame, _, _, _, _, _, _, _, _, rfl⟩ | ⟨_, _, _, rfl⟩
  · apply Synced.push
    apply Synced.truncate
    exact synced.congr rfl rfl rfl
  · apply Synced.exhaust
    exact synced.congr rfl rfl rfl

/-- Unwinding keeps the stored clauses. -/
theorem Synced.bare_unwind (synced : search.Synced) {signal : Signal} {unwound : Search}
    {flipped : Bool} (result : search.unwind signal = .ok (unwound, flipped)) :
    unwound.workspace.database.bare = search.workspace.database.bare := by
  rcases unwindFrames_cases rfl result with
    ⟨_, _, frame, rest, _, journal, _, _, _, _, _, rfl⟩ | ⟨_, _, journal, rfl⟩
  · have same : ({ search with
        workspace.journal := journal, frames := frame :: rest } : Search).Synced :=
      synced.congr rfl rfl rfl
    exact ((same.truncate frame.position).bare_push _).trans (same.bare_truncate frame.position)
  · have same : (({ search with
        workspace.journal := journal, frames := [] } : Search).log .exhausted).Synced :=
      synced.congr rfl rfl rfl
    exact same.bare_truncate 0

/-! ## The invariant -/

/-- The search has the clauses `base`, followed only by clauses over the same
variables that hold in every model of these. -/
structure Faithful (base : List (List Int)) (search : Search) : Prop where
  synced : search.Synced
  proper : ProperClauses base
  stored : base <+: search.workspace.database.contents
  mentioned : ∀ var, Mentions search.workspace.database.contents var → Mentions base var
  implied : ∀ assignment : Assignment, assignment.SatisfiesAll base →
    assignment.SatisfiesAll search.workspace.database.contents

/-- In addition the frames are those of the trail, and every open decision is
false. -/
structure Consistent (base : List (List Int)) (search : Search) : Prop
    extends Faithful base search where
  frames : search.frames = framesOf search.workspace.trail.toList
  values : ∀ entry ∈ search.workspace.trail.toList, entry.isOpenDecision = true →
    entry.value = false

theorem Faithful.congr {other : Search} (faithful : search.Faithful base) (synced : other.Synced)
    (same : other.workspace.database.bare = search.workspace.database.bare) :
    other.Faithful base := by
  have contents := Database.contents_eq_of_bare same
  refine ⟨synced, faithful.proper, ?_, ?_, ?_⟩
  · exact contents ▸ faithful.stored
  · exact contents ▸ faithful.mentioned
  · exact contents ▸ faithful.implied

theorem Faithful.proper_contents (faithful : search.Faithful base) :
    ProperClauses search.workspace.database.contents := by
  rw [properClauses_iff]
  intro var mentioned
  exact properClauses_iff.mp faithful.proper var (faithful.mentioned var mentioned)

theorem Faithful.enter (faithful : search.Faithful base) : search.enter.Faithful base :=
  faithful.congr (.of_aligned faithful.synced.aligned_enter) faithful.synced.bare_enter

theorem Faithful.propagated (faithful : search.Faithful base) :
    search.propagated.Faithful base :=
  faithful.congr (.of_aligned faithful.synced.aligned_propagated) faithful.synced.bare_propagated

theorem Learns.contents {visited : Search} {unit : Int} (learns : search.Learns visited unit)
    (aligned : search.propagated.workspace.Aligned) :
    visited.workspace.database.contents = search.propagated.workspace.database.contents ++
      [normalise (search.propagated.workspace.candidate unit.natAbs).literals] := by
  rw [learns.database]
  exact Database.contents_learn aligned.trail aligned.states _

theorem Faithful.learns (faithful : search.Faithful base) {visited : Search} {unit : Int}
    (learns : search.Learns visited unit) (synced : visited.Synced) : visited.Faithful base := by
  have propagated := faithful.propagated
  have aligned := faithful.synced.aligned_propagated
  have contents := learns.contents aligned
  refine ⟨synced, faithful.proper, ?_, ?_, ?_⟩
  · rw [contents]
    exact propagated.stored.trans (List.prefix_append _ _)
  · rintro var ⟨clause, member, literal, literalMember, rfl⟩
    rw [contents] at member
    apply propagated.mentioned
    rcases List.mem_append.mp member with old | new
    · exact ⟨clause, old, literal, literalMember, rfl⟩
    · rw [List.mem_singleton.mp new, mem_normalise] at literalMember
      exact aligned.mentions_candidate propagated.proper_contents literalMember
  · intro assignment model
    have stored := propagated.implied assignment model
    rw [contents, Assignment.satisfiesAll_append]
    refine ⟨stored, ?_⟩
    intro clause member
    rw [List.mem_singleton.mp member]
    apply (aligned.satisfies_candidate propagated.proper_contents learns.conflict stored).mono
    exact fun _ literalMember => mem_normalise.mpr literalMember

/-! ## Whole runs -/

theorem Faithful.visits (faithful : search.Faithful base) {visited : Search} {outcome : Step}
    (visits : search.Visits visited outcome) : visited.Faithful base := by
  have synced := faithful.synced.visits visits
  rcases faithful.synced.stored_visits visits with same | ⟨unit, learns⟩
  · exact faithful.congr synced same
  · exact faithful.learns learns synced

theorem invariant_faithful (base : List (List Int)) : Invariant (Faithful base) where
  enter := fun faithful => faithful.enter
  propagated := fun faithful => faithful.propagated
  visits := fun faithful visits => faithful.visits visits
  unwind := fun faithful result =>
    faithful.congr (faithful.synced.unwind result) (faithful.synced.bare_unwind result)

/-! ## Clauses, frames and trail -/

theorem Consistent.framed (consistent : search.Consistent base) : search.Framed :=
  ⟨consistent.synced, consistent.frames, consistent.values⟩

theorem Framed.consistent (framed : search.Framed) (faithful : search.Faithful base) :
    search.Consistent base :=
  ⟨faithful, framed.frames, framed.values⟩

theorem consistent_of_aligned (aligned : search.workspace.Aligned)
    (contents : search.workspace.database.contents = base) (proper : ProperClauses base)
    (frames : search.frames = []) (trail : search.workspace.trail.toList = []) :
    search.Consistent base := by
  apply (framed_of_aligned aligned frames trail).consistent
  refine ⟨.of_aligned aligned, proper, ⟨[], ?_⟩, ?_, ?_⟩
  · rw [List.append_nil, contents]
  · rw [contents]
    exact fun _ mentioned => mentioned
  · rw [contents]
    exact fun _ model => model

theorem Consistent.propagated (consistent : search.Consistent base) :
    search.propagated.Consistent base :=
  consistent.framed.propagated.consistent consistent.toFaithful.propagated

theorem Consistent.visits (consistent : search.Consistent base) {visited : Search} {outcome : Step}
    (visits : search.Visits visited outcome) : visited.Consistent base :=
  (consistent.framed.visits visits).consistent (consistent.toFaithful.visits visits)

theorem Consistent.next? (consistent : search.Consistent base) {next : Search}
    (goesOn : search.next? = some next) : next.Consistent base :=
  (invariant_framed.next? consistent.framed goesOn).consistent
    ((invariant_faithful base).next? consistent.toFaithful goesOn)

theorem Consistent.node? (consistent : search.Consistent base) {count : Nat} {reached : Search}
    (isNode : search.node? count = some reached) : reached.Consistent base :=
  node?_induction (Consistent base) consistent (fun _ _ before goesOn => before.next? goesOn) isNode

end Search

end CnfSolver

import CnfSolver.Proofs.PropagationClosure
import CnfSolver.Proofs.ReplayModes

/-!
# A decision limit cuts the search short

The limit is looked at in one place only, where a decision is due. So a search with
a limit visits the nodes of the search without one, up to the first decision that
the limit forbids. Counters never go down and learned clauses are only appended,
and what the search has done by then is part of what it does without a limit. The
searches of buckets run without a limit in any case.
-/

namespace CnfSolver

namespace Search

variable {search : Search}

/-! ## What only grows -/

def counters (search : Search) : Nat × Nat × Nat :=
  (search.decisions, search.conflicts, search.workspace.propagations)

theorem counters_enter (search : Search) : search.enter.counters = search.counters := by
  unfold enter
  split <;> rfl

theorem counters_push (search : Search) (literal : Literal) :
    (search.push literal).counters = search.counters := by
  unfold push
  split <;> rfl

theorem counters_truncate (search : Search) (length : Nat) :
    (search.truncate length).counters = search.counters := by
  unfold truncate
  split <;> rfl

theorem counters_unwind {unwound : Search} {signal : Signal} {flipped : Bool}
    (result : search.unwind signal = .ok (unwound, flipped)) :
    unwound.counters = search.counters := by
  rcases unwindFrames_cases rfl result with
    ⟨_, _, _, _, _, _, _, _, _, _, _, rfl⟩ | ⟨_, _, _, rfl⟩
  · exact (counters_push _ _).trans (counters_truncate _ _)
  · exact counters_truncate _ _

/-- The counters are no larger than those of the later search, and the learned
clauses are the first ones of the later search. -/
structure Within (search later : Search) : Prop where
  decisions : search.decisions ≤ later.decisions
  conflicts : search.conflicts ≤ later.conflicts
  propagations : search.workspace.propagations ≤ later.workspace.propagations
  learned : search.workspace.database.learned ≤ later.workspace.database.learned
  clauses : search.workspace.database.learnedContents <+:
    later.workspace.database.learnedContents

theorem Within.trans {middle later : Search} (first : search.Within middle)
    (second : middle.Within later) : search.Within later where
  decisions := first.decisions.trans second.decisions
  conflicts := first.conflicts.trans second.conflicts
  propagations := first.propagations.trans second.propagations
  learned := first.learned.trans second.learned
  clauses := first.clauses.trans second.clauses

theorem within_of_bare {later : Search} (counters : search.counters ≤ later.counters)
    (same : later.workspace.database.bare = search.workspace.database.bare) :
    search.Within later where
  decisions := counters.1
  conflicts := counters.2.1
  propagations := counters.2.2
  learned := (congrArg Database.learned same).ge
  clauses := by
    rw [Database.learnedContents_eq_of_bare same]

theorem Synced.counters_propagated (synced : search.Synced) :
    search.counters ≤ search.propagated.counters := by
  obtain ⟨forced, toList, _⟩ := synced.derives_propagated.toList synced.aligned_enter
  have counted := synced.derives_propagated.propagations synced.aligned_enter
  rw [toList, List.length_append] at counted
  rw [← search.counters_enter]
  refine ⟨le_rfl, le_rfl, ?_⟩
  show search.enter.workspace.propagations ≤ search.propagated.workspace.propagations
  omega

theorem Synced.within_propagated (synced : search.Synced) : search.Within search.propagated :=
  within_of_bare synced.counters_propagated synced.bare_propagated

/-- Learning appends one clause to the learned ones. -/
theorem Learns.within {visited : Search} {unit : Int} (learns : search.Learns visited unit)
    (aligned : search.propagated.workspace.Aligned)
    (counters : search.propagated.counters ≤ visited.counters) :
    search.propagated.Within visited := by
  have database := learns.database
  rw [Database.learn_eq_under aligned.trail aligned.states] at database
  refine ⟨counters.1, counters.2.1, counters.2.2, ?_, ?_⟩
  · rw [database]
    exact Nat.le_succ _
  · rw [database, Database.learnedContents_under, Database.learnedContents_push _ rfl]
    exact List.prefix_append _ _

theorem Visits.counters_le {visited : Search} {outcome : Step}
    (visits : search.Visits visited outcome) :
    search.propagated.counters ≤ visited.counters := by
  have conflicts : search.propagated.conflicts = search.conflicts :=
    congrArg (fun counters => counters.2.1) search.counters_enter
  cases visits with
  | satisfied => exact le_rfl
  | stuck => exact le_rfl
  | stopped => exact le_rfl
  | decided =>
    rw [decideVar, counters_push]
    exact ⟨Nat.le_succ _, le_rfl, le_rfl⟩
  | conflicting _ analysed =>
    refine ⟨le_rfl, conflicts.trans_le (Nat.le_succ _), ?_⟩
    rcases Workspace.analyse_cases analysed with ⟨_, _, rfl⟩ | ⟨_, _, _, _, _, _, _, rfl⟩
    · exact le_rfl
    · exact le_rfl
  | falsified => exact ⟨le_rfl, conflicts.trans_le (Nat.le_succ _), le_rfl⟩

theorem Synced.within_visits (synced : search.Synced) {visited : Search} {outcome : Step}
    (visits : search.Visits visited outcome) : search.propagated.Within visited := by
  rcases synced.stored_visits visits with same | ⟨unit, learns⟩
  · exact within_of_bare visits.counters_le (same.trans synced.bare_propagated.symm)
  · exact learns.within synced.aligned_propagated visits.counters_le

theorem Synced.within_unwind (synced : search.Synced) {unwound : Search} {signal : Signal}
    {flipped : Bool} (result : search.unwind signal = .ok (unwound, flipped)) :
    search.Within unwound :=
  within_of_bare (counters_unwind result).ge (synced.bare_unwind result)

theorem decisions_conclude (search : Search) (verdict : Verdict) :
    (search.conclude verdict).decisions = search.decisions := by
  cases verdict <;> rfl

theorem Within.conclude {later : Search} (within : search.Within later) (verdict other : Verdict) :
    (search.conclude verdict).Within (later.conclude other) := by
  obtain ⟨_, concluded⟩ := search.conclude_eq verdict
  obtain ⟨_, laterConcluded⟩ := later.conclude_eq other
  rw [concluded, laterConcluded]
  exact ⟨within.decisions, within.conflicts, within.propagations, within.learned, within.clauses⟩

/-- A later state of the run that went through the given one. -/
structure Behind (earlier search : Search) : Prop extends Synced search where
  within : earlier.Within search

theorem invariant_behind (earlier : Search) : Invariant (Behind earlier) where
  enter := fun {search} behind =>
    ⟨.of_aligned behind.aligned_enter,
      behind.within.trans (within_of_bare search.counters_enter.ge behind.bare_enter)⟩
  propagated := fun behind =>
    ⟨.of_aligned behind.aligned_propagated, behind.within.trans behind.within_propagated⟩
  visits := fun behind visits =>
    ⟨behind.toSynced.visits visits,
      (behind.within.trans behind.within_propagated).trans (behind.within_visits visits)⟩
  unwind := fun behind result =>
    ⟨behind.toSynced.unwind result, behind.within.trans (behind.within_unwind result)⟩

/-- A run goes on from what its first node has. -/
theorem Synced.within_run (synced : search.Synced) {fuel : Nat} {ended : Search}
    {verdict : Verdict} (ran : run fuel search = .ok (ended, verdict)) : search.Within ended := by
  obtain ⟨count, last, isNode, ends⟩ := run_ends ran
  have start : search.Behind search := ⟨synced, within_of_bare le_rfl rfl⟩
  exact ((invariant_behind search).passes start (ends.passes isNode)).within

/-! ## The search with a limit -/

/-- The same search with the given decision limit. -/
def withLimit (search : Search) (limit : Nat) : Search :=
  { search with settings.maxDecisions := some limit }

variable {limit : Nat}

theorem Within.withLimit {later : Search} (within : search.Within later) :
    (search.withLimit limit).Within later :=
  ⟨within.decisions, within.conflicts, within.propagations, within.learned, within.clauses⟩

theorem replay_withLimit (search : Search) (limit : Nat) :
    (search.withLimit limit).settings.replay = search.settings.replay := rfl

theorem enter_withLimit (search : Search) (limit : Nat) :
    (search.withLimit limit).enter = search.enter.withLimit limit := by
  unfold enter
  rw [replay_withLimit]
  split <;> rfl

theorem workspace_enter_withLimit (search : Search) (limit : Nat) :
    (search.withLimit limit).enter.workspace = search.enter.workspace := by
  rw [enter_withLimit]
  rfl

theorem propagated_withLimit (search : Search) (limit : Nat) :
    (search.withLimit limit).propagated = search.propagated.withLimit limit := by
  simp only [propagated, enter_withLimit]
  rfl

theorem workspace_propagated_withLimit (search : Search) (limit : Nat) :
    (search.withLimit limit).propagated.workspace = search.propagated.workspace := by
  rw [propagated_withLimit]
  rfl

theorem push_withLimit (search : Search) (limit : Nat) (literal : Literal) :
    (search.withLimit limit).push literal = (search.push literal).withLimit limit := by
  unfold push
  rw [replay_withLimit]
  split <;> rfl

theorem truncate_withLimit (search : Search) (limit length : Nat) :
    (search.withLimit limit).truncate length = (search.truncate length).withLimit limit := by
  unfold truncate
  rw [replay_withLimit]
  split <;> rfl

theorem decideVar_withLimit (search : Search) (limit var : Nat) :
    (search.withLimit limit).decideVar var = (search.decideVar var).withLimit limit := by
  unfold decideVar
  dsimp only
  rw [← push_withLimit]
  rfl

theorem flip_withLimit (search : Search) (limit : Nat) (frame : Frame) :
    (search.withLimit limit).flip frame = (search.flip frame).withLimit limit := by
  simp only [flip, truncate_withLimit, push_withLimit]

theorem dropFrame_withLimit (search : Search) (limit : Nat) (signal : Signal) (frame : Frame)
    (rest : List Frame) :
    (search.withLimit limit).dropFrame signal frame rest =
      (search.dropFrame signal frame rest).withLimit limit := by
  cases signal <;> rfl

theorem exhaust_withLimit (search : Search) (limit : Nat) :
    (search.withLimit limit).exhaust = search.exhaust.withLimit limit := by
  have truncated := (search.log .exhausted).truncate_withLimit limit 0
  unfold exhaust
  rw [show (search.withLimit limit).log .exhausted = (search.log .exhausted).withLimit limit from
    rfl, truncated]
  rfl

theorem unwindFrames_withLimit (search : Search) (limit : Nat) (signal : Signal)
    (frames : List Frame) :
    (search.withLimit limit).unwindFrames signal frames =
      (search.unwindFrames signal frames).map fun (unwound, flipped) =>
        (unwound.withLimit limit, flipped) := by
  induction frames generalizing search with
  | nil =>
    simp only [unwindFrames, exhaust_withLimit]
    rfl
  | cons frame rest ih =>
    have sameTrail : (search.withLimit limit).workspace.trail = search.workspace.trail := rfl
    unfold unwindFrames
    rw [sameTrail, flip_withLimit, dropFrame_withLimit, ih]
    cases search.workspace.trail.entries[frame.position]? with
    | none => rfl
    | some entry =>
      dsimp only
      split
      · rfl
      · rfl

theorem unwind_withLimit {signal : Signal} {unwound : Search} {flipped : Bool}
    (result : search.unwind signal = .ok (unwound, flipped)) :
    (search.withLimit limit).unwind signal = .ok (unwound.withLimit limit, flipped) := by
  unfold unwind at result ⊢
  rw [unwindFrames_withLimit, show (search.withLimit limit).frames = search.frames from rfl, result]
  rfl

theorem limit?_withLimit (search : Search) (limit : Nat) :
    (search.withLimit limit).limit? = if limit ≤ search.decisions then some limit else none := by
  have filtered := @Option.filter_some Nat (fun limit => limit ≤ search.decisions) limit
  simp only [decide_eq_true_eq] at filtered
  exact filtered

/-- A visit is the same with a limit, unless it decides at the limit. -/
theorem Visits.withLimit {visited : Search} {outcome : Step}
    (visits : search.Visits visited outcome) (unlimited : search.settings.maxDecisions = none)
    (below : outcome = .descended → search.decisions < limit) :
    (search.withLimit limit).Visits (visited.withLimit limit) outcome := by
  have same := search.propagated_withLimit limit
  have entered := search.workspace_enter_withLimit limit
  have propagated := search.workspace_propagated_withLimit limit
  cases visits with
  | satisfied settled satisfied =>
    rw [← same]
    exact .satisfied (entered ▸ settled) (propagated ▸ satisfied)
  | stuck settled unsatisfied none =>
    rw [← same]
    exact .stuck (entered ▸ settled) (propagated ▸ unsatisfied) (propagated ▸ none)
  | stopped settled unsatisfied picked reached =>
    exact absurd (.stopped settled unsatisfied picked reached) (not_visits_stopped unlimited)
  | decided settled unsatisfied picked _ =>
    have free : (search.withLimit limit).limit? = none := by
      rw [limit?_withLimit, if_neg (Nat.not_le_of_lt (below rfl))]
    have decides := Visits.decided (entered ▸ settled) (propagated ▸ unsatisfied)
      (propagated ▸ picked) free
    rwa [same, decideVar_withLimit] at decides
  | conflicting conflict analysed =>
    have fails := Visits.conflicting (entered ▸ conflict) (propagated ▸ analysed)
    rwa [same] at fails
  | falsified falsified =>
    have fails := Visits.falsified (entered ▸ falsified)
    rwa [same] at fails

/-- At the limit a visit stops where it would decide. -/
theorem Visits.stops_withLimit {visited : Search} (visits : search.Visits visited .descended)
    (reached : limit ≤ search.decisions) :
    (search.withLimit limit).Visits (search.propagated.withLimit limit) (.stopped limit) := by
  have entered := search.workspace_enter_withLimit limit
  have propagated := search.workspace_propagated_withLimit limit
  have isLimit : (search.withLimit limit).limit? = some limit := by
    rw [limit?_withLimit, if_pos reached]
  cases visits with
  | decided settled unsatisfied picked _ =>
    rw [← propagated_withLimit]
    exact .stopped (entered ▸ settled) (propagated ▸ unsatisfied) (propagated ▸ picked) isLimit

/-- How a run that ends without a limit ends with one: in the same way if it makes
no more decisions than allowed, else at the limit and with part of the work done. -/
def CutShort (limit : Nat) (ended : Search) (verdict : Verdict)
    (limited : Except Fault (Search × Verdict)) : Prop :=
  ended.decisions ≤ limit ∧ limited = .ok (ended.withLimit limit, verdict) ∨
  limit < ended.decisions ∧ ∃ stopped : Search,
    limited = .ok (stopped.withLimit limit, .stopped limit) ∧
    stopped.decisions = limit ∧ stopped.Within ended

theorem Synced.run_withLimit (synced : search.Synced)
    (unlimited : search.settings.maxDecisions = none) (allowed : search.decisions ≤ limit)
    {fuel : Nat} {ended : Search} {verdict : Verdict}
    (ran : run fuel search = .ok (ended, verdict)) :
    CutShort limit ended verdict (run fuel (search.withLimit limit)) := by
  induction fuel generalizing search with
  | zero => cases ran
  | succ fuel ih =>
    unfold run
    rcases run_cases ran with ends | ⟨next, goesOn, rest⟩
    · cases ends with
      | satisfied stepped =>
        have visits := visits_of_step stepped
        have decisions := visits.decisions
        rw [(visits.withLimit unlimited fun impossible => by cases impossible).step]
        exact .inl ⟨decisions.trans_le allowed, rfl⟩
      | stopped stepped => exact absurd (visits_of_step stepped) (not_visits_stopped unlimited)
      | @exhausted visited unwound signal stepped exhausted =>
        have visits := visits_of_step stepped
        have decisions : visited.decisions = search.decisions := visits.decisions
        rw [(visits.withLimit unlimited fun impossible => by cases impossible).step]
        dsimp only
        rw [unwind_withLimit exhausted]
        refine .inl ⟨?_, rfl⟩
        rw [decisions_unwind exhausted, decisions]
        exact allowed
    · rcases next?_cases goesOn with stepped | ⟨visited, signal, stepped, flipped⟩
      · have visits := visits_of_step stepped
        have decisions : next.decisions = search.decisions + 1 := visits.decisions
        have sameSettings := settings_eq_of_parameters visits.parameters
        by_cases below : search.decisions < limit
        · rw [(visits.withLimit unlimited fun _ => below).step]
          exact ih (synced.visits visits) (sameSettings ▸ unlimited) (by omega) rest
        · -- The run without a limit goes on with the decision that is one too many.
          rw [(visits.stops_withLimit (by omega)).step]
          have later := (synced.visits visits).within_run rest
          have propagatedDecisions : search.propagated.decisions = search.decisions :=
            search.decisions_enter
          refine .inr ⟨?_, search.propagated, rfl, ?_, (synced.within_visits visits).trans later⟩
          · have most := later.decisions
            omega
          · omega
      · have visits := visits_of_step stepped
        have decisions : visited.decisions = search.decisions := visits.decisions
        have sameSettings := settings_eq_of_parameters visits.parameters
        have unwoundSettings := settings_eq_of_parameters (parameters_unwind flipped)
        rw [(visits.withLimit unlimited fun impossible => by cases impossible).step]
        dsimp only
        rw [unwind_withLimit flipped]
        apply ih ((synced.visits visits).unwind flipped) _ _ rest
        · rw [unwoundSettings, sameSettings, unlimited]
        · rw [decisions_unwind flipped, decisions]
          exact allowed

theorem conclude_withLimit (search : Search) (limit : Nat) (verdict : Verdict) :
    (search.withLimit limit).conclude verdict = (search.conclude verdict).withLimit limit := by
  cases verdict <;> rfl

theorem Synced.solve_withLimit (synced : search.Synced)
    (unlimited : search.settings.maxDecisions = none) (allowed : search.decisions ≤ limit)
    {ended : Search} {verdict : Verdict} (result : search.solve = .ok (ended, verdict)) :
    CutShort limit ended verdict (search.withLimit limit).solve := by
  have bound : (search.withLimit limit).nodeBound = search.nodeBound := rfl
  obtain ⟨final, ran, rfl⟩ := ran_of_solve result
  have counted := final.decisions_conclude verdict
  unfold solve
  rw [bound]
  rcases synced.run_withLimit unlimited allowed ran with
    ⟨few, same⟩ | ⟨many, stopped, cut, decisions, within⟩
  · rw [same]
    dsimp only
    rw [conclude_withLimit]
    exact .inl ⟨counted.trans_le few, rfl⟩
  · rw [cut]
    exact .inr ⟨many.trans_eq counted.symm, stopped.conclude (.stopped limit), rfl, decisions,
      within.conclude _ _⟩

end Search

namespace Branching

variable {formula : Formula} {settings : Settings} {order : BranchOrder} {limit : Nat}

/-- Preparation does not look at the limit. -/
theorem prepare_withLimit {prepared : Branching} {refuted : Bool}
    (result : (withOrder formula { settings with maxDecisions := none } order).prepare =
      .ok (prepared, refuted)) (limit : Nat) :
    (withOrder formula { settings with maxDecisions := some limit } order).prepare =
      .ok ({ prepared with search := prepared.search.withLimit limit }, refuted) := by
  have same := (withOrder formula { settings with maxDecisions := none } order).prepare_mapSettings
    (fun settings => { settings with maxDecisions := some limit }) (fun _ => rfl)
    fun _ _ _ _ => rfl
  rw [result] at same
  exact same

/-- A decision limit only cuts solving short: with enough decisions allowed nothing
changes, and otherwise solving stops at the limit, after part of the work. -/
theorem decision_limit_cuts_short (formula : Formula) (settings : Settings) (order : BranchOrder)
    (limit : Nat) :
    ∃ unlimited limited : Branching × Verdict,
      (withOrder formula { settings with maxDecisions := none } order).solve = .ok unlimited ∧
      (withOrder formula { settings with maxDecisions := some limit } order).solve =
        .ok limited ∧
      (unlimited.1.search.decisions ≤ limit → outcome limited = outcome unlimited) ∧
      (limit < unlimited.1.search.decisions →
        limited.2 = .stopped limit ∧ limited.1.search.decisions = limit ∧
        limited.1.model? = none ∧ limited.1.search.Within unlimited.1.search) := by
  obtain ⟨prepared, refuted, isPrepared⟩ :=
    prepare_ok (withOrder formula { settings with maxDecisions := none } order)
  have limitedPrepared := prepare_withLimit isPrepared limit
  obtain ⟨tallied, _⟩ := tallied_prepare isPrepared
  obtain ⟨lists, journal, started⟩ := started_prepare isPrepared
  have unlimited : prepared.search.settings.maxDecisions = none := by rw [started]; rfl
  have undecided : prepared.search.decisions = 0 := by rw [started]; rfl
  unfold solve
  rw [isPrepared, limitedPrepared]
  cases refuted with
  | true =>
    refine ⟨_, _, rfl, rfl, fun _ => rfl, fun more => ?_⟩
    rw [Search.decisions_conclude, undecided] at more
    exact absurd more (Nat.not_lt_zero limit)
  | false =>
    obtain ⟨ended, verdict, solved⟩ := tallied.solve_ok
    simp only [conclude, solved]
    rcases tallied.synced.solve_withLimit unlimited (undecided ▸ limit.zero_le) solved with
      ⟨few, same⟩ | ⟨many, stopped, cut, decisions, within⟩
    · rw [same]
      exact ⟨_, _, rfl, rfl, fun _ => rfl, fun more => absurd few (Nat.not_le_of_lt more)⟩
    · rw [cut]
      refine ⟨_, _, rfl, rfl, fun few => absurd few (Nat.not_le_of_lt many), fun _ => ?_⟩
      exact ⟨rfl, decisions, rfl, within.withLimit⟩

end Branching

end CnfSolver

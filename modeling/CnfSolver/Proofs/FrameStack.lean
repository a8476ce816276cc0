import CnfSolver.Proofs.ConflictClause
import CnfSolver.Proofs.SearchRun

/-!
# Frames and trail describe one path

The frames of a search are exactly the entries of its trail that were not forced,
and an open decision is false. Propagation, decisions, learning and unwinding keep
it so, whatever the clauses are. From this follows how the trail at a node differs
from the trail at the node before it.
-/

namespace CnfSolver

/-! ## The frames of a trail -/

/-- One frame for each entry that was not forced, the last one first. -/
def framesOf (entries : List Literal) : List Frame :=
  ((entries.zipIdx.filter fun pair => pair.1.origin != .forced).map fun pair =>
    ⟨pair.1.var, pair.2⟩).reverse

@[simp]
theorem framesOf_nil : framesOf [] = [] := rfl

theorem framesOf_concat (entries : List Literal) (entry : Literal) :
    framesOf (entries ++ [entry]) =
      if entry.origin = .forced then framesOf entries
      else ⟨entry.var, entries.length⟩ :: framesOf entries := by
  unfold framesOf
  rw [List.zipIdx_append, List.filter_append]
  by_cases forced : entry.origin = .forced <;> simp [forced]

theorem framesOf_append_forced {entries forced : List Literal}
    (tags : ∀ entry ∈ forced, entry.origin = .forced) :
    framesOf (entries ++ forced) = framesOf entries := by
  induction forced using List.reverseRecOn with
  | nil => rw [List.append_nil]
  | append_singleton earlier entry ih =>
    have isForced := tags entry (by simp)
    rw [← List.append_assoc, framesOf_concat, if_pos isForced]
    exact ih fun other member => tags other (List.mem_append_left _ member)

theorem mem_framesOf {entries : List Literal} {frame : Frame} :
    frame ∈ framesOf entries ↔
      ∃ entry, entries[frame.position]? = some entry ∧ entry.var = frame.var ∧
        entry.origin ≠ .forced := by
  simp only [framesOf, List.mem_reverse, List.mem_map, List.mem_filter,
    List.mem_zipIdx_iff_getElem?, bne_iff_ne]
  constructor
  · rintro ⟨⟨entry, place⟩, ⟨there, branched⟩, rfl⟩
    exact ⟨entry, there, rfl, branched⟩
  · rintro ⟨entry, there, sameVar, branched⟩
    exact ⟨(entry, frame.position), ⟨there, branched⟩, by cases frame; simp_all⟩

theorem position_lt_of_mem_framesOf {entries : List Literal} {frame : Frame}
    (member : frame ∈ framesOf entries) : frame.position < entries.length := by
  obtain ⟨entry, there, _⟩ := mem_framesOf.mp member
  exact (List.getElem?_eq_some_iff.mp there).1

theorem pairwise_framesOf (entries : List Literal) :
    (framesOf entries).Pairwise fun deeper shallower => shallower.position < deeper.position := by
  induction entries using List.reverseRecOn with
  | nil => exact .nil
  | append_singleton earlier entry ih =>
    rw [framesOf_concat]
    split
    next forced => exact ih
    next branched =>
      exact List.pairwise_cons.mpr ⟨fun _ member => position_lt_of_mem_framesOf member, ih⟩

/-- Behind a frame stand the frames of the entries before its position. -/
theorem framesOf_take {entries : List Literal} {dropped rest : List Frame} {frame : Frame}
    (parts : framesOf entries = dropped ++ frame :: rest) :
    framesOf (entries.take frame.position) = rest := by
  induction entries using List.reverseRecOn generalizing dropped with
  | nil => simp at parts
  | append_singleton earlier entry ih =>
    have fits : ∀ other ∈ framesOf earlier,
        (earlier ++ [entry]).take other.position = earlier.take other.position := by
      intro other member
      exact List.take_append_of_le_length (position_lt_of_mem_framesOf member).le
    rw [framesOf_concat] at parts
    split at parts
    next forced =>
      rw [fits frame (by rw [parts]; simp)]
      exact ih parts
    next branched =>
      cases dropped with
      | nil =>
        obtain ⟨rfl, rfl⟩ := List.cons.inj parts
        rw [List.take_left]
      | cons other others =>
        obtain ⟨_, tailParts⟩ := List.cons.inj parts
        rw [fits frame (by rw [tailParts]; simp)]
        exact ih tailParts

namespace Search

/-! ## Pushing and truncating -/

theorem trail_push (search : Search) (literal : Literal) :
    (search.push literal).workspace.trail = search.workspace.trail.push literal := by
  unfold push
  split <;> rfl

theorem frames_push (search : Search) (literal : Literal) :
    (search.push literal).frames = search.frames := by
  unfold push
  split <;> rfl

theorem trail_truncate (search : Search) (length : Nat) :
    (search.truncate length).workspace.trail = search.workspace.trail.truncate length := by
  unfold truncate
  split <;> rfl

theorem frames_truncate (search : Search) (length : Nat) :
    (search.truncate length).frames = search.frames := by
  unfold truncate
  split <;> rfl

/-! ## The invariant -/

/-- The frames are those of the trail, and every open decision is false. -/
structure Framed (search : Search) : Prop where
  synced : search.Synced
  frames : search.frames = framesOf search.workspace.trail.toList
  values : ∀ entry ∈ search.workspace.trail.toList, entry.isOpenDecision = true →
    entry.value = false

variable {search : Search}

theorem Framed.congr {other : Search} (framed : search.Framed) (synced : other.Synced)
    (trail : other.workspace.trail = search.workspace.trail)
    (frames : other.frames = search.frames) : other.Framed where
  synced := synced
  frames := by
    rw [frames, trail]
    exact framed.frames
  values := trail ▸ framed.values

theorem framed_of_aligned (aligned : search.workspace.Aligned) (frames : search.frames = [])
    (trail : search.workspace.trail.toList = []) : search.Framed where
  synced := .of_aligned aligned
  frames := by rw [frames, trail, framesOf_nil]
  values := by
    rw [trail]
    simp

/-! ## Propagation -/

theorem Synced.trail_enter (synced : search.Synced) :
    search.enter.workspace.trail = search.workspace.trail := by
  rw [synced.enter_eq]

theorem Framed.enter (framed : search.Framed) : search.enter.Framed := by
  have entered := framed.synced.enter_eq
  apply framed.congr (.of_aligned framed.synced.aligned_enter)
  · rw [entered]
  · rw [entered]

theorem Synced.derives_propagated (synced : search.Synced) :
    search.enter.workspace.Derives search.propagated.workspace :=
  synced.aligned_enter.derives_propagate

theorem Synced.aligned_propagated (synced : search.Synced) :
    search.propagated.workspace.Aligned :=
  synced.derives_propagated.aligned synced.aligned_enter

theorem Synced.toList_propagated (synced : search.Synced) :
    ∃ forced, search.propagated.workspace.trail.toList =
        search.workspace.trail.toList ++ forced ∧
      ∀ entry ∈ forced, entry.origin = .forced := by
  have derived := synced.derives_propagated.toList synced.aligned_enter
  rwa [synced.trail_enter] at derived

theorem Framed.propagated (framed : search.Framed) : search.propagated.Framed := by
  obtain ⟨forced, toList, tags⟩ := framed.synced.toList_propagated
  refine ⟨.of_aligned framed.synced.aligned_propagated, ?_, ?_⟩
  · rw [toList, framesOf_append_forced tags, ← framed.synced.trail_enter]
    exact framed.enter.frames
  · intro entry member isDecision
    rw [toList] at member
    rcases List.mem_append.mp member with old | new
    · exact framed.values entry old isDecision
    · rw [Literal.isOpenDecision_of_forced (tags entry new)] at isDecision
      cases isDecision

/-! ## Branching -/

/-- Pushing a literal that was not forced goes together with a new frame. -/
theorem Synced.framed_push (synced : search.Synced) {literal : Literal}
    (isOpen : search.workspace.trail.assigns literal.var = false)
    (branched : literal.origin ≠ .forced)
    (frames : search.frames =
      ⟨literal.var, search.workspace.trail.toList.length⟩ ::
        framesOf search.workspace.trail.toList)
    (values : ∀ entry ∈ search.workspace.trail.toList ++ [literal],
      entry.isOpenDecision = true → entry.value = false) :
    (search.push literal).Framed := by
  have toList := Trail.toList_push_of_not_assigns search.workspace.trail literal isOpen
  refine ⟨synced.push literal, ?_, ?_⟩
  · rw [frames_push, trail_push, toList, framesOf_concat, if_neg branched]
    exact frames
  · rw [trail_push, toList]
    exact values

theorem Framed.decideVar (framed : search.Framed) {var : Nat}
    (isOpen : search.workspace.trail.assigns var = false) : (search.decideVar var).Framed := by
  have synced := framed.synced
  unfold Search.decideVar
  refine Synced.framed_push ?_ isOpen Origin.noConfusion ?_ ?_
  · exact ⟨synced.database, synced.trail, synced.states⟩
  · show _ :: search.frames = _ :: framesOf search.workspace.trail.toList
    rw [framed.frames]
    rfl
  · intro entry member isDecision
    rcases List.mem_append.mp member with old | new
    · exact framed.values entry old isDecision
    · rw [List.mem_singleton.mp new]
      rfl

theorem assigns_of_next? {order : BranchOrder} {trail : Trail} {var : Nat}
    (picked : order.next? trail = some var) : trail.assigns var = false := by
  simpa using List.find?_some picked

/-! ## Unwinding -/

theorem Framed.framesOf_take (framed : search.Framed) {dropped rest : List Frame} {frame : Frame}
    (parts : search.frames = dropped ++ frame :: rest) :
    framesOf (search.workspace.trail.toList.take frame.position) = rest := by
  rw [framed.frames] at parts
  exact CnfSolver.framesOf_take parts

theorem Framed.var_eq_of_frame (framed : search.Framed) {frame : Frame}
    (member : frame ∈ search.frames) {entry : Literal}
    (there : search.workspace.trail.toList[frame.position]? = some entry) :
    entry.var = frame.var ∧ entry.origin ≠ .forced := by
  rw [framed.frames] at member
  obtain ⟨other, otherThere, sameVar, branched⟩ := mem_framesOf.mp member
  rw [there] at otherThere
  cases otherThere
  exact ⟨sameVar, branched⟩

theorem Framed.mem_frames_of_isOpenDecision (framed : search.Framed) {place : Nat}
    {decision : Literal} (there : search.workspace.trail.toList[place]? = some decision)
    (isDecision : decision.isOpenDecision = true) : ⟨decision.var, place⟩ ∈ search.frames := by
  rw [framed.frames, mem_framesOf]
  refine ⟨decision, there, rfl, ?_⟩
  intro forced
  rw [Literal.isOpenDecision_of_forced forced] at isDecision
  cases isDecision

/-- The signal has not passed an open decision that it is meant for. -/
theorem not_passedBy {entries : List Literal} {signal : Signal} {place : Nat} {decision : Literal}
    (there : entries[place]? = some decision) (isDecision : decision.isOpenDecision = true)
    (flips : signal.flips decision.var = true) :
    ¬PassedBy entries signal ⟨decision.var, place⟩ := by
  rintro ⟨entry, entryThere, second | passes⟩
  · rw [there] at entryThere
    cases entryThere
    simp only [Literal.isOpenDecision, Literal.isSecondBranch, beq_iff_eq] at isDecision second
    rw [isDecision] at second
    cases second
  · rw [flips] at passes
    cases passes

/-- An abort drops no open decision. -/
theorem Framed.closed_behind (framed : search.Framed) {dropped rest : List Frame}
    {frame : Frame} (parts : search.frames = dropped ++ frame :: rest)
    (passed : ∀ other ∈ dropped, PassedBy search.workspace.trail.toList .abort other) :
    (search.workspace.trail.toList.drop (frame.position + 1)).filter Literal.isOpenDecision =
      [] := by
  rw [List.filter_eq_nil_iff]
  intro decision member isDecision
  obtain ⟨offset, there⟩ := List.getElem?_of_mem member
  rw [List.getElem?_drop] at there
  have isFrame := framed.mem_frames_of_isOpenDecision there isDecision
  rw [parts, List.mem_append, List.mem_cons] at isFrame
  rcases isFrame with isDropped | same | isRest
  · exact not_passedBy there isDecision rfl (passed _ isDropped)
  · have samePosition := congrArg Frame.position same
    dsimp only at samePosition
    omega
  · rw [← framed.framesOf_take parts] at isRest
    have early := position_lt_of_mem_framesOf isRest
    simp only [List.length_take] at early
    omega

/-- A frame that is not on its second branch has an open decision. -/
theorem Framed.eq_decision (framed : search.Framed) {frame : Frame}
    (member : frame ∈ search.frames) {entry : Literal}
    (there : search.workspace.trail.toList[frame.position]? = some entry)
    (isFirst : entry.isSecondBranch = false) : entry = .decision frame.var false := by
  obtain ⟨sameVar, branched⟩ := framed.var_eq_of_frame member there
  obtain ⟨var, value, origin⟩ := entry
  cases origin with
  | forced => exact absurd rfl branched
  | secondBranch => cases isFirst
  | openDecision =>
    have decidedFalse : value = false := framed.values _ (List.mem_of_getElem? there) rfl
    obtain rfl : var = frame.var := sameVar
    rw [decidedFalse]
    rfl

theorem Framed.assigns_truncate (framed : search.Framed) {frame : Frame}
    (member : frame ∈ search.frames) {entry : Literal}
    (there : search.workspace.trail.toList[frame.position]? = some entry) :
    (search.workspace.trail.truncate frame.position).assigns frame.var = false := by
  rw [← (framed.var_eq_of_frame member there).1]
  exact Trail.assigns_truncate there

/-- The second branch of a frame takes the place of its decision. -/
theorem Framed.toList_flip (framed : search.Framed) {frame : Frame}
    (member : frame ∈ search.frames) {entry : Literal}
    (there : search.workspace.trail.toList[frame.position]? = some entry) :
    ((search.workspace.trail.truncate frame.position).push (.secondBranch frame.var true)).toList =
      search.workspace.trail.toList.take frame.position ++ [.secondBranch frame.var true] := by
  rw [Trail.toList_push_of_not_assigns, Trail.toList_truncate]
  exact framed.assigns_truncate member there

theorem Framed.flip (framed : search.Framed) {dropped rest : List Frame} {frame : Frame}
    (parts : search.frames = dropped ++ frame :: rest) {entry : Literal}
    (there : search.workspace.trail.toList[frame.position]? = some entry) (journal : Journal) :
    (({ search with workspace.journal := journal, frames := frame :: rest } : Search).flip
      frame).Framed := by
  have synced := framed.synced
  have member : frame ∈ search.frames := parts ▸ List.mem_append_cons_self
  have length : (search.workspace.trail.toList.take frame.position).length = frame.position :=
    List.length_take_of_le (List.getElem?_eq_some_iff.mp there).1.le
  unfold Search.flip
  refine Synced.framed_push ?_ ?_ Origin.noConfusion ?_ ?_
  · apply Synced.truncate
    exact ⟨synced.database, synced.trail, synced.states⟩
  · rw [trail_truncate]
    exact framed.assigns_truncate member there
  · rw [trail_truncate, frames_truncate, Trail.toList_truncate, length, framed.framesOf_take parts]
    rfl
  · intro other otherMember isDecision
    rw [trail_truncate, Trail.toList_truncate] at otherMember
    rcases List.mem_append.mp otherMember with old | new
    · exact framed.values other (List.mem_of_mem_take old) isDecision
    · rw [List.mem_singleton.mp new] at isDecision
      cases isDecision

theorem toList_exhaust (search : Search) : search.exhaust.workspace.trail.toList = [] := by
  show ((search.log .exhausted).truncate 0).workspace.trail.toList = []
  rw [trail_truncate, Trail.toList_truncate, List.take_zero]

theorem Synced.exhaust (synced : search.Synced) : search.exhaust.Synced := by
  have logged : (search.log .exhausted).Synced := ⟨synced.database, synced.trail, synced.states⟩
  have truncated := logged.truncate 0
  exact ⟨truncated.database, truncated.trail, truncated.states⟩

theorem Synced.framed_exhaust (synced : search.Synced) : search.exhaust.Framed where
  synced := synced.exhaust
  frames := by
    rw [toList_exhaust, framesOf_nil]
    rfl
  values := by
    rw [toList_exhaust]
    simp

theorem Framed.unwind (framed : search.Framed) {signal : Signal} {unwound : Search}
    {flipped : Bool} (result : search.unwind signal = .ok (unwound, flipped)) :
    unwound.Framed := by
  rcases unwindFrames_cases rfl result with
    ⟨_, dropped, frame, rest, entry, journal, parts, _, there, _, _, rfl⟩ | ⟨_, _, journal, rfl⟩
  · exact framed.flip parts there journal
  · apply Synced.framed_exhaust
    exact ⟨framed.synced.database, framed.synced.trail, framed.synced.states⟩

theorem unwindFrames_ok {frames : List Frame} {search : Search} (signal : Signal)
    (inside : ∀ frame ∈ frames, frame.position < search.workspace.trail.length) :
    ∃ unwound flipped, search.unwindFrames signal frames = .ok (unwound, flipped) := by
  induction frames generalizing search with
  | nil => exact ⟨_, _, rfl⟩
  | cons frame rest ih =>
    obtain ⟨here, behind⟩ := List.forall_mem_cons.mp inside
    have there := Array.getElem?_eq_getElem here
    unfold unwindFrames
    rw [there]
    dsimp only
    split
    next flips => exact ⟨_, _, rfl⟩
    next passes =>
      apply ih
      unfold dropFrame
      cases signal with
      | abort => exact behind
      | backjump target => exact behind

theorem Framed.unwind_ok (framed : search.Framed) (signal : Signal) :
    ∃ unwound flipped, search.unwind signal = .ok (unwound, flipped) := by
  apply unwindFrames_ok signal
  intro frame member
  rw [framed.frames] at member
  exact position_lt_of_mem_framesOf member

/-- What unwinding does to frames and trail. -/
theorem Framed.unwind_cases (framed : search.Framed) {signal : Signal} {unwound : Search}
    {flipped : Bool} (result : search.unwind signal = .ok (unwound, flipped)) :
    (flipped = true ∧ ∃ dropped frame rest,
      search.frames = dropped ++ frame :: rest ∧
      (∀ other ∈ dropped, PassedBy search.workspace.trail.toList signal other) ∧
      search.workspace.trail.toList[frame.position]? = some (.decision frame.var false) ∧
      signal.flips frame.var = true ∧
      unwound.frames = frame :: rest ∧
      unwound.workspace.trail.toList =
        search.workspace.trail.toList.take frame.position ++ [.secondBranch frame.var true]) ∨
    (flipped = false ∧
      (∀ other ∈ search.frames, PassedBy search.workspace.trail.toList signal other) ∧
      unwound.frames = [] ∧ unwound.workspace.trail.toList = []) := by
  rcases unwindFrames_cases rfl result with
    ⟨isFlipped, dropped, frame, rest, entry, journal, parts, passed, there, isFirst, flips, rfl⟩ |
    ⟨isExhausted, passed, journal, rfl⟩
  · have member : frame ∈ search.frames := parts ▸ List.mem_append_cons_self
    rw [framed.eq_decision member there isFirst] at there
    refine .inl ⟨isFlipped, dropped, frame, rest, parts, passed, there, flips, ?_, ?_⟩
    · unfold Search.flip
      rw [frames_push, frames_truncate]
    · unfold Search.flip
      rw [trail_push, trail_truncate]
      exact framed.toList_flip member there
  · exact .inr ⟨isExhausted, passed, rfl, toList_exhaust _⟩

/-! ## Whole runs -/

/-- A visit leaves the trail as propagation made it, a decision apart. -/
theorem Visits.trail_cases {visited : Search} {outcome : Step}
    (visits : search.Visits visited outcome) :
    (outcome ≠ .descended ∧
      visited.workspace.trail = search.propagated.workspace.trail) ∨
    ∃ var, outcome = .descended ∧
      search.order.next? search.propagated.workspace.trail = some var ∧
      visited.workspace.trail.toList =
        search.propagated.workspace.trail.toList ++ [.decision var false] := by
  cases visits with
  | satisfied => exact .inl ⟨Step.noConfusion, rfl⟩
  | stuck => exact .inl ⟨Step.noConfusion, rfl⟩
  | stopped => exact .inl ⟨Step.noConfusion, rfl⟩
  | @decided var _ _ picked =>
    refine .inr ⟨var, rfl, picked, ?_⟩
    unfold Search.decideVar
    rw [trail_push]
    exact Trail.toList_push_of_not_assigns _ _ (assigns_of_next? picked)
  | conflicting _ analysed =>
    refine .inl ⟨Step.noConfusion, ?_⟩
    rcases Workspace.analyse_cases analysed with ⟨_, _, rfl⟩ | ⟨_, _, _, _, _, _, _, rfl⟩
    · rfl
    · rfl
  | falsified => exact .inl ⟨Step.noConfusion, rfl⟩

theorem Visits.trail_of_failed {visited : Search} {signal : Signal}
    (visits : search.Visits visited (.failed signal)) :
    visited.workspace.trail = search.propagated.workspace.trail := by
  rcases visits.trail_cases with ⟨_, same⟩ | ⟨_, impossible, _⟩
  · exact same
  · cases impossible

theorem Framed.visits (framed : search.Framed) {visited : Search} {outcome : Step}
    (visits : search.Visits visited outcome) : visited.Framed := by
  have propagated := framed.propagated
  have aligned := framed.synced.aligned_propagated
  cases visits with
  | satisfied => exact propagated
  | stuck => exact propagated
  | stopped => exact propagated
  | decided _ _ picked _ => exact propagated.decideVar (assigns_of_next? picked)
  | conflicting conflict analysed =>
    have trail := (Visits.conflicting conflict analysed).trail_of_failed
    exact propagated.congr (.of_aligned (aligned.analyse analysed)) trail rfl
  | falsified => exact propagated.congr (.of_aligned (aligned.log _)) rfl rfl

theorem invariant_framed : Invariant Framed where
  enter := fun framed => framed.enter
  propagated := fun framed => framed.propagated
  visits := fun framed visits => framed.visits visits
  unwind := fun framed result => framed.unwind result

/-- The trail at the next node: what propagation made of this one, followed by a
decision on the next open variable, or cut back to a decision that takes its
second branch. -/
theorem Framed.toList_next? (framed : search.Framed) {next : Search}
    (goesOn : search.next? = some next) :
    (∃ var, search.order.next? search.propagated.workspace.trail = some var ∧
      next.workspace.trail.toList =
        search.propagated.workspace.trail.toList ++ [.decision var false]) ∨
    ∃ visited signal dropped frame rest,
      search.Visits visited (.failed signal) ∧
      visited.frames = dropped ++ frame :: rest ∧
      (∀ other ∈ dropped, PassedBy visited.workspace.trail.toList signal other) ∧
      visited.workspace.trail.toList[frame.position]? = some (.decision frame.var false) ∧
      signal.flips frame.var = true ∧
      next.workspace.trail.toList =
        visited.workspace.trail.toList.take frame.position ++ [.secondBranch frame.var true] := by
  rcases next?_cases goesOn with stepped | ⟨visited, signal, stepped, unwound⟩
  · rcases (visits_of_step stepped).trail_cases with ⟨impossible, _⟩ | ⟨var, _, picked, toList⟩
    · exact absurd rfl impossible
    · exact .inl ⟨var, picked, toList⟩
  · have visits := visits_of_step stepped
    rcases (framed.visits visits).unwind_cases unwound with
      ⟨_, dropped, frame, rest, parts, passed, there, flips, _, toList⟩ | ⟨impossible, _⟩
    · exact .inr
        ⟨visited, signal, dropped, frame, rest, visits, parts, passed, there, flips, toList⟩
    · cases impossible

end Search

end CnfSolver

import CnfSolver.Proofs.FrameStack
import CnfSolver.Proofs.Preparation

/-!
# Where a signal lands

At every state of a run each frame stands for one entry of the trail: an open
decision with value false, or a second branch with value true. So unwinding finds
an entry for every frame it looks at. The target of a backjump is an open decision
on the trail, hence the variable of a frame on its first branch, and unwinding ends
there. An abort ends at the deepest frame on its first branch, and empties frames
and trail if there is none.
-/

namespace CnfSolver

namespace Search

variable {search : Search}

def OnFirstBranch (search : Search) (frame : Frame) : Prop :=
  search.workspace.trail.toList[frame.position]? = some (.decision frame.var false)

def OnSecondBranch (search : Search) (frame : Frame) : Prop :=
  search.workspace.trail.toList[frame.position]? = some (.secondBranch frame.var true)

/-- The frames, deepest first, stand for the entries of the trail that were not
forced. -/
structure Matched (search : Search) : Prop where
  descending : search.frames.Pairwise fun deeper shallower => shallower.position < deeper.position
  inside : ∀ frame ∈ search.frames, frame.position < search.workspace.trail.length
  branches : ∀ frame ∈ search.frames, search.OnFirstBranch frame ∨ search.OnSecondBranch frame
  complete : ∀ place entry, search.workspace.trail.toList[place]? = some entry →
    entry.origin ≠ .forced → ∃ frame ∈ search.frames, frame.position = place

/-! ## Second branches are true -/

def TrueSecond (_ : List Literal) (entry : Literal) : Prop :=
  entry.isSecondBranch = true → entry.value = true

structure Branched (search : Search) : Prop extends Framed search where
  seconds : Along TrueSecond search.workspace.trail.toList

theorem Branched.enter (branched : search.Branched) : search.enter.Branched := by
  refine ⟨branched.toFramed.enter, ?_⟩
  rw [branched.synced.trail_enter]
  exact branched.seconds

theorem Branched.propagated (branched : search.Branched) : search.propagated.Branched := by
  obtain ⟨forced, toList, tags⟩ := branched.synced.toList_propagated
  refine ⟨branched.toFramed.propagated, ?_⟩
  rw [toList]
  apply branched.seconds.append_forced _ tags
  intro earlier entry isForced isSecond
  rw [Literal.isSecondBranch, isForced] at isSecond
  cases isSecond

theorem Branched.visits (branched : search.Branched) {visited : Search} {outcome : Step}
    (visits : search.Visits visited outcome) : visited.Branched := by
  refine ⟨branched.toFramed.visits visits, ?_⟩
  rcases visits.trail_cases with ⟨_, same⟩ | ⟨var, _, _, decided⟩
  · rw [same]
    exact branched.propagated.seconds
  · rw [decided, along_concat]
    refine ⟨branched.propagated.seconds, ?_⟩
    intro isSecond
    cases isSecond

theorem Branched.unwind (branched : search.Branched) {signal : Signal} {unwound : Search}
    {flipped : Bool} (result : search.unwind signal = .ok (unwound, flipped)) :
    unwound.Branched := by
  refine ⟨branched.toFramed.unwind result, ?_⟩
  rcases branched.toFramed.unwind_cases result with
    ⟨_, _, frame, _, _, _, _, _, _, toList⟩ | ⟨_, _, _, toList⟩
  · rw [toList, along_concat]
    refine ⟨branched.seconds.of_isPrefix (List.take_prefix _ _), ?_⟩
    intro _
    rfl
  · rw [toList]
    exact along_nil

theorem invariant_branched : Invariant Branched where
  enter := fun branched => branched.enter
  propagated := fun branched => branched.propagated
  visits := fun branched visits => branched.visits visits
  unwind := fun branched result => branched.unwind result

/-! ## Frames and entries -/

theorem Branched.eq_secondBranch (branched : search.Branched) {frame : Frame}
    (member : frame ∈ search.frames) {entry : Literal}
    (there : search.workspace.trail.toList[frame.position]? = some entry)
    (isSecond : entry.isSecondBranch = true) : entry = .secondBranch frame.var true := by
  have sameVar := (branched.var_eq_of_frame member there).1
  have isTrue := branched.seconds.of_getElem? there isSecond
  obtain ⟨var, value, origin⟩ := entry
  obtain rfl : var = frame.var := sameVar
  obtain rfl : value = true := isTrue
  obtain rfl : origin = .secondBranch := by simpa [Literal.isSecondBranch] using isSecond
  rfl

theorem Branched.exists_entry (branched : search.Branched) {frame : Frame}
    (member : frame ∈ search.frames) :
    ∃ entry, search.workspace.trail.toList[frame.position]? = some entry := by
  rw [branched.frames] at member
  obtain ⟨entry, there, _⟩ := mem_framesOf.mp member
  exact ⟨entry, there⟩

theorem Branched.matched (branched : search.Branched) : search.Matched where
  descending := by
    rw [branched.frames]
    exact pairwise_framesOf _
  inside := by
    intro frame member
    obtain ⟨entry, there⟩ := branched.exists_entry member
    exact (List.getElem?_eq_some_iff.mp there).1
  branches := by
    intro frame member
    obtain ⟨entry, there⟩ := branched.exists_entry member
    cases isSecond : entry.isSecondBranch with
    | false =>
      rw [branched.eq_decision member there isSecond] at there
      exact .inl there
    | true =>
      rw [branched.eq_secondBranch member there isSecond] at there
      exact .inr there
  complete := by
    intro place entry there branchedEntry
    refine ⟨⟨entry.var, place⟩, ?_, rfl⟩
    rw [branched.frames, mem_framesOf]
    exact ⟨entry, there, rfl, branchedEntry⟩

/-! ## Unwinding -/

/-- Unwinding ends with the frame on its second branch and the frames `rest`
below it. -/
def LandsOn (search : Search) (signal : Signal) (frame : Frame) (rest : List Frame) : Prop :=
  ∃ unwound, search.unwind signal = .ok (unwound, true) ∧ unwound.frames = frame :: rest ∧
    unwound.workspace.trail.toList =
      search.workspace.trail.toList.take frame.position ++ [.secondBranch frame.var true]

/-- What comes of a signal. A backjump lands on the frame of its target. An abort
lands on the deepest frame on its first branch, or leaves neither frames nor
entries. -/
def Resolves (search : Search) : Signal → Prop
  | .backjump target => ∃ dropped frame rest, search.frames = dropped ++ frame :: rest ∧
      frame.var = target ∧ search.OnFirstBranch frame ∧
      search.LandsOn (.backjump target) frame rest
  | .abort =>
      (∃ dropped frame rest, search.frames = dropped ++ frame :: rest ∧
        (∀ other ∈ dropped, search.OnSecondBranch other) ∧ search.OnFirstBranch frame ∧
        search.LandsOn .abort frame rest) ∨
      ((∀ frame ∈ search.frames, search.OnSecondBranch frame) ∧
        ∃ unwound, search.unwind .abort = .ok (unwound, false) ∧ unwound.frames = [] ∧
          unwound.workspace.trail.toList = [])

theorem Branched.onSecondBranch (branched : search.Branched) {frame : Frame}
    (member : frame ∈ search.frames)
    (passed : PassedBy search.workspace.trail.toList .abort frame) :
    search.OnSecondBranch frame := by
  obtain ⟨entry, there, isSecond | impossible⟩ := passed
  · rw [branched.eq_secondBranch member there isSecond] at there
    exact there
  · cases impossible

theorem Branched.resolves_abort (branched : search.Branched) : search.Resolves .abort := by
  obtain ⟨unwound, flipped, result⟩ := branched.toFramed.unwind_ok .abort
  rcases branched.unwind_cases result with
    ⟨rfl, dropped, frame, rest, parts, passed, there, _, frames, toList⟩ |
    ⟨rfl, passed, frames, toList⟩
  · refine .inl ⟨dropped, frame, rest, parts, ?_, there, unwound, result, frames, toList⟩
    intro other member
    apply branched.onSecondBranch _ (passed other member)
    rw [parts]
    exact List.mem_append_left _ member
  · refine .inr ⟨?_, unwound, result, frames, toList⟩
    intro frame member
    exact branched.onSecondBranch member (passed frame member)

theorem Branched.resolves_backjump (branched : search.Branched) {place : Nat} {decision : Literal}
    (there : search.workspace.trail.toList[place]? = some decision)
    (isDecision : decision.isOpenDecision = true) :
    search.Resolves (.backjump decision.var) := by
  obtain ⟨unwound, flipped, result⟩ := branched.toFramed.unwind_ok (.backjump decision.var)
  rcases branched.unwind_cases result with
    ⟨rfl, dropped, frame, rest, parts, _, onFirst, flips, frames, toList⟩ | ⟨_, passed, _⟩
  · have isTarget : decision.var = frame.var := by simpa [Signal.flips] using flips
    exact ⟨dropped, frame, rest, parts, isTarget.symm, onFirst, unwound, result, frames, toList⟩
  · have isFrame := branched.mem_frames_of_isOpenDecision there isDecision
    refine absurd (passed _ isFrame) (not_passedBy there isDecision ?_)
    simp [Signal.flips]

/-- The target of a backjump is an open decision. -/
theorem Visits.target {visited : Search} {target : Nat}
    (visits : search.Visits visited (.failed (.backjump target))) :
    ∃ (place : Nat) (decision : Literal),
      visited.workspace.trail.toList[place]? = some decision ∧
      decision.isOpenDecision = true ∧ decision.var = target := by
  rw [visits.trail_of_failed]
  cases visits with
  | conflicting _ analysed =>
    rcases Workspace.analyse_cases analysed with ⟨impossible, _⟩ |
      ⟨last, _, _, _, _, found, same, _⟩
    · cases impossible
    · cases same
      obtain ⟨earlier, decision, later, taken, isDecision, sameVar, _⟩ :=
        Trail.openDecisionUpTo?_eq_some found
      refine ⟨earlier.length, decision, ?_, isDecision, sameVar⟩
      have whole := List.take_append_drop (last + 1) search.propagated.workspace.trail.toList
      rw [← whole, taken]
      simp

theorem Branched.resolves (branched : search.Branched) {visited : Search} {signal : Signal}
    (fails : search.Fails visited signal) : visited.Resolves signal := by
  have visitedBranched := invariant_branched.fails branched fails
  cases signal with
  | abort => exact visitedBranched.resolves_abort
  | backjump target =>
    obtain ⟨count, node, isNode, stepped⟩ := fails
    obtain ⟨place, decision, there, isDecision, rfl⟩ := (visits_of_step stepped).target
    exact visitedBranched.resolves_backjump there isDecision

end Search

namespace Branching

theorem branched_of_prepare {formula : Formula} {settings : Settings} {order : BranchOrder}
    {prepared : Branching} {refuted : Bool}
    (result : (withOrder formula settings order).prepare = .ok (prepared, refuted)) :
    prepared.search.Branched := by
  have aligned := aligned_prepare result
  obtain ⟨lists, journal, started⟩ := started_prepare result
  rw [started] at aligned ⊢
  exact ⟨Search.framed_of_aligned aligned rfl rfl, along_nil⟩

/-- Frames and trail are matched at every state of a run, and every signal of a
failed node is resolved. -/
theorem signals_resolved (formula : Formula) (settings : Settings) (order : BranchOrder) :
    (∀ state, (withOrder formula settings order).Passes state → state.Matched) ∧
    ∀ visited signal, (withOrder formula settings order).Fails visited signal →
      visited.Resolves signal := by
  constructor
  · rintro state ⟨prepared, isPrepared, passes⟩
    exact (Search.invariant_branched.passes (branched_of_prepare isPrepared) passes).matched
  · rintro visited signal ⟨prepared, isPrepared, fails⟩
    exact (branched_of_prepare isPrepared).resolves fails

/-- A backjump that drops the open decision on the second variable. -/
theorem signals_resolved_skipping :
    ∃ visited, (withOrder
        (.ofClauses 7 [[4, -5], [1, 5, 6], [1, 5, -6], [1, -5, 7], [1, -5, -7]])
        { preprocessing := false, learning := { minLength := 1 } }
        ⟨[1, 2, 3, 4, 5, 6, 7]⟩).Fails visited (.backjump 1) ∧
      visited.frames = [⟨3, 2⟩, ⟨2, 1⟩, ⟨1, 0⟩] ∧ visited.OnFirstBranch ⟨2, 1⟩ ∧
      visited.Matched ∧ visited.Resolves (.backjump 1) := by
  have answer : ((Search.start
      (.ofClauses 7 [[4, -5], [1, 5, 6], [1, 5, -6], [1, -5, 7], [1, -5, -7]])
      { preprocessing := false, learning := { minLength := 1 } }
      ⟨[1, 2, 3, 4, 5, 6, 7]⟩).failure? 6).map
        (fun failure => ((failure.1.frames, failure.1.workspace.trail.toList[1]?), failure.2)) =
      some (([⟨3, 2⟩, ⟨2, 1⟩, ⟨1, 0⟩], some (.decision 2 false)), .backjump 1) := by
    decide +kernel
  obtain ⟨visited, fails, seen⟩ := exists_fails rfl
    (fun visited => (visited.frames, visited.workspace.trail.toList[1]?)) answer
  obtain ⟨frames, onFirst⟩ := Prod.mk.inj seen
  obtain ⟨prepared, isPrepared, count, node, isNode, stepped⟩ := fails
  have resolved := signals_resolved
    (.ofClauses 7 [[4, -5], [1, 5, 6], [1, 5, -6], [1, -5, 7], [1, -5, -7]])
    { preprocessing := false, learning := { minLength := 1 } } ⟨[1, 2, 3, 4, 5, 6, 7]⟩
  exact ⟨visited, ⟨prepared, isPrepared, count, node, isNode, stepped⟩, frames, onFirst,
    resolved.1 visited ⟨prepared, isPrepared, .visited isNode stepped⟩,
    resolved.2 visited _ ⟨prepared, isPrepared, count, node, isNode, stepped⟩⟩

end Branching

end CnfSolver

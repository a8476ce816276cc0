import CnfSolver.Workspace

/-!
# The branching search

A depth-first search over assignments with propagation at every node. Each
decision is a frame: its variable and the trail position of its literal. A frame
is on its first branch while that literal is an open decision, with value false,
and on its second branch once the literal has been replaced by the opposite one.

A failed node sends a signal from the deepest frame upward. A frame on its
second branch is dropped, a frame on its first branch is dropped if the signal
is a backjump to another variable, and any other frame takes its second branch.
Without a frame left the formula has no model.
-/

namespace CnfSolver

/-!
## Branch orders

The order in which the search decides variables, fixed before it starts.
-/

structure BranchOrder where
  vars : List Nat
  deriving DecidableEq, Repr, Inhabited

namespace BranchOrder

/-- Whether `first` comes before `second`: the more frequent variable, and of
two equally frequent ones the smaller. -/
def before (frequencies : Array Nat) (first second : Nat) : Bool :=
  let count var := (frequencies[var]?).getD 0
  count second < count first || (count first == count second && first ≤ second)

/-- All variables of a frequency table, most frequent first. The entry for
variable zero is not used. Variables are 32 bits wide; a table of at most `words32`
entries has no wider one, so none is dropped. -/
def ofFrequencies (frequencies : Array Nat) : BranchOrder :=
  ⟨(List.range' 1 (frequencies.size - 1)).mergeSort (before frequencies)⟩

/-- The given variables in the given order, each once. -/
def ofVars (vars : List Nat) : BranchOrder := ⟨vars.eraseDups⟩

/-- The first variable in order that the trail does not assign. -/
def next? (order : BranchOrder) (trail : Trail) : Option Nat :=
  order.vars.find? fun var => !trail.assigns var

end BranchOrder

/-! ## Verdicts, frames and signals -/

inductive Verdict where
  | satisfiable (model : Model)
  | unsatisfiable
  /-- The limit was reached before the answer was known. -/
  | stopped (limit : Nat)
  deriving DecidableEq, Repr

namespace Verdict

def model? : Verdict → Option Model
  | satisfiable model => some model
  | unsatisfiable | stopped _ => none

end Verdict

structure Frame where
  var : Nat
  position : Nat
  deriving DecidableEq, Repr

/-- The search: its fixed parameters, its workspace, its frames with the deepest
first, and its counters. -/
structure Search where
  numVars : Nat
  settings : Settings
  order : BranchOrder
  workspace : Workspace
  frames : List Frame
  decisions : Nat
  conflicts : Nat
  deriving DecidableEq, Repr, Inhabited

/-- How the visit of a node ended. -/
inductive Step where
  | satisfied
  | descended
  | failed (signal : Signal)
  /-- A decision was due and the limit is reached. -/
  | stopped (limit : Nat)
  deriving DecidableEq, Repr

/-- Whether a frame on its first branch takes its second branch. -/
def Signal.flips (signal : Signal) (var : Nat) : Bool :=
  match signal with
  | .abort => true
  | .backjump target => target == var

namespace Search

def start (formula : Formula) (settings : Settings) (order : BranchOrder) : Search :=
  { numVars := formula.numVars
    settings := settings
    order := order
    workspace := Workspace.ofFormula formula
    frames := []
    decisions := 0
    conflicts := 0 }

def log (search : Search) (event : Event) : Search :=
  { search with workspace := search.workspace.log event }

/-- Put a literal on the trail. With incremental replay the clauses follow. -/
def push (search : Search) (literal : Literal) : Search :=
  match search.settings.replay with
  | .full =>
      { search with workspace.trail := search.workspace.trail.push literal }
  | .incremental => { search with workspace := search.workspace.assign literal }

/-- Cut the trail back. With incremental replay the clauses follow. -/
def truncate (search : Search) (length : Nat) : Search :=
  match search.settings.replay with
  | .full =>
      { search with workspace.trail := search.workspace.trail.truncate length }
  | .incremental => { search with workspace := search.workspace.backtrack length }

/-- Enter a node. With full replay the clauses are brought in line with the
trail here. -/
def enter (search : Search) : Search :=
  match search.settings.replay with
  | .full => { search with workspace := search.workspace.replay }
  | .incremental => search

/-- Decide a variable: false first. -/
def decideVar (search : Search) (var : Nat) : Search :=
  let logged := search.log (.decided var search.frames.length)
  let framed : Search :=
    { logged with
      decisions := logged.decisions + 1
      frames := ⟨var, logged.workspace.trail.length⟩ :: logged.frames }
  framed.push (.decision var false)

/-- The decision limit, if it is reached. -/
def limit? (search : Search) : Option Nat :=
  search.settings.maxDecisions.filter fun limit => limit ≤ search.decisions

/-- Continue at a node where propagation settled. -/
def branch (search : Search) : Search × Step :=
  if search.workspace.database.allSatisfied then (search, .satisfied)
  else
    match search.order.next? search.workspace.trail with
    | none => (search, .failed .abort)
    | some var =>
        match search.limit? with
        | some limit => (search, .stopped limit)
        | none => (search.decideVar var, .descended)

/-- Visit the node that the trail describes. -/
def step (search : Search) : Except Fault (Search × Step) :=
  let entered := search.enter
  let (workspace, outcome) := entered.workspace.propagate
  let propagated := { entered with workspace := workspace }
  match outcome with
  | .settled => .ok propagated.branch
  | .conflict literal =>
      let (analysed, signal) := workspace.analyse search.settings.learning literal.var
      .ok ({ propagated with workspace := analysed, conflicts := search.conflicts + 1 },
        .failed signal)
  | .falsified index =>
      .ok ({ propagated.log (.falsified index) with conflicts := search.conflicts + 1 },
        .failed .abort)
  | .stalled => .error .stalled

/-- Cut the trail back to a frame and take its second branch. -/
def flip (search : Search) (frame : Frame) : Search :=
  (search.truncate frame.position).push (.secondBranch frame.var true)

/-- Drop a frame. On the way to another decision this is noted. -/
def dropFrame (search : Search) (signal : Signal) (frame : Frame) (rest : List Frame) : Search :=
  let logged :=
    match signal with
    | .abort => search
    | .backjump target => search.log (.skipped frame.var target)
  { logged with frames := rest }

/-- Give up the search path and empty the trail. -/
def exhaust (search : Search) : Search :=
  { (search.log .exhausted).truncate 0 with frames := [] }

/-- Hand a signal to the given frames, deepest first. The result tells whether
one of them took its second branch. -/
def unwindFrames (search : Search) (signal : Signal) :
    List Frame → Except Fault (Search × Bool)
  | [] => .ok (search.exhaust, false)
  | frame :: rest =>
      match search.workspace.trail.entries[frame.position]? with
      | none => .error (.positionBeyondTrail frame.position)
      | some entry =>
          if !entry.isSecondBranch && signal.flips frame.var then
            .ok (search.flip frame, true)
          else (search.dropFrame signal frame rest).unwindFrames signal rest

def unwind (search : Search) (signal : Signal) : Except Fault (Search × Bool) :=
  search.unwindFrames signal search.frames

/-- Every variable with its value on the trail; the others are false. Variables are
32 bits wide; of fewer than `words32` variables none is wider, so none is dropped. -/
def model (search : Search) : Model :=
  Model.ofList ((List.range' 1 search.numVars).map fun var =>
    (Literal.decision var ((search.workspace.trail.value? var).getD false)).toSigned)

/-- Visit nodes until there is a verdict, `fuel` nodes at most. -/
def run : Nat → Search → Except Fault (Search × Verdict)
  | 0, _ => .error .unfinished
  | fuel + 1, search =>
      match search.step with
      | .error fault => .error fault
      | .ok (visited, .satisfied) => .ok (visited, .satisfiable visited.model)
      | .ok (visited, .stopped limit) => .ok (visited, .stopped limit)
      | .ok (visited, .descended) => run fuel visited
      | .ok (visited, .failed signal) =>
          match visited.unwind signal with
          | .error fault => .error fault
          | .ok (unwound, true) => run fuel unwound
          | .ok (unwound, false) => .ok (unwound, .unsatisfiable)

/-- The number of nodes in a full binary tree over the variables of the order. -/
def nodeBound (search : Search) : Nat := Nat.pow 2 (search.order.vars.length + 1)

def conclude (search : Search) : Verdict → Search
  | .satisfiable _ => search.log (.satisfiable search.decisions)
  | .unsatisfiable => search.log (.unsatisfiable search.decisions)
  | .stopped limit => search.log (.stopped limit)

def solve (search : Search) : Except Fault (Search × Verdict) :=
  match search.run search.nodeBound with
  | .error fault => .error fault
  | .ok (ended, verdict) => .ok (ended.conclude verdict, verdict)

end Search

end CnfSolver

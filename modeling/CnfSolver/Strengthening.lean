import CnfSolver.Search

/-!
# Clause strengthening

A pass over the clauses before the search. Two clauses that differ in one sign
are replaced by their resolvent, which implies both. A bucket of more than two
clauses is also searched on its own: without a model for the bucket there is none
for the whole.
-/

namespace CnfSolver

namespace Strengthening

/-!
## Buckets

Clauses over the same set of variables, with their places in the input. Only
clauses of one bucket can differ in a single sign.
-/

structure Member where
  index : Nat
  clause : Clause
  deriving DecidableEq, Repr

def members (clauses : List Clause) : List Member :=
  clauses.zipIdx.map fun entry => ⟨entry.2, entry.1⟩

structure Bucket where
  vars : List Nat
  members : List Member
  deriving DecidableEq, Repr

/-- The variables of a clause, each once. -/
def signature (clause : Clause) : List Nat := clause.vars.eraseReps

/-- The clauses over the given variables. -/
def bucketOver (clauses : List Clause) (vars : List Nat) : Bucket :=
  ⟨vars, (members clauses).filter fun entry => signature entry.clause == vars⟩

/-- The buckets of a clause list. -/
def buckets (clauses : List Clause) : List Bucket :=
  (clauses.map signature).eraseDups.map (bucketOver clauses)

/-- The place of the first clause of a bucket. -/
def Bucket.place (bucket : Bucket) : Nat := (bucket.members.map Member.index).headD 0

/-- Insert a bucket into a list in order of first clauses. -/
def insertBucket (bucket : Bucket) : List Bucket → List Bucket
  | [] => [bucket]
  | head :: tail =>
      if bucket.place ≤ head.place then bucket :: head :: tail
      else head :: insertBucket bucket tail

/-- Buckets in order of their first clauses. -/
def arrange (buckets : List Bucket) : List Bucket := buckets.foldr insertBucket []

/-!
## Resolvents

Two literal lists that differ in one place only, where they hold complementary
literals, resolve to the list of the literals they share.
-/

def resolve? : List Int → List Int → Option (List Int)
  | first :: firsts, second :: seconds =>
      if first = second then (resolve? firsts seconds).map (first :: ·)
      else if first = -second && firsts == seconds then some firsts
      else none
  | _, _ => none

/-- All pairs of an earlier and a later element, in order of the earlier one. -/
def pairs {Element : Type} : List Element → List (Element × Element)
  | [] => []
  | first :: rest => rest.map (fun second => (first, second)) ++ pairs rest

/-! ## A pass -/

/-- The counters of a series of passes: clauses dropped and resolvents added by
the last pass that was not refuted, and buckets searched by all passes. -/
structure Statistics where
  removed : Nat := 0
  added : Nat := 0
  groups : Nat := 0
  deriving DecidableEq, Repr

inductive Result where
  | clauses (clauses : List Clause)
  | refuted
  deriving DecidableEq, Repr

/-- A pass under way: the places of the replaced clauses, the resolvents in order
of discovery, the buckets searched and the journal. -/
structure Progress where
  replaced : List Nat
  resolvents : List (List Int)
  groups : Nat
  journal : Journal
  deriving DecidableEq, Repr

structure Pass where
  result : Result
  statistics : Statistics
  journal : Journal
  deriving DecidableEq, Repr

def Progress.log (progress : Progress) (event : Event) : Progress :=
  { progress with journal := progress.journal.push event }

def Progress.replace (progress : Progress) (first second : Nat) (resolvent : List Int) :
    Progress :=
  { progress with
    replaced := second :: first :: progress.replaced
    resolvents :=
      if progress.resolvents.contains resolvent then progress.resolvents
      else progress.resolvents ++ [resolvent] }

/-- Resolve pairs of clauses. The result tells whether two of them contradict
each other. -/
def resolvePairs (progress : Progress) : List (Member × Member) → Progress × Bool
  | [] => (progress, false)
  | (first, second) :: rest =>
      match resolve? first.clause.literals second.clause.literals with
      | none => resolvePairs progress rest
      | some [] => (progress.log (.emptyResolvent first.index second.index), true)
      | some resolvent =>
          resolvePairs (progress.replace first.index second.index resolvent) rest

/-- Search a bucket on its own, branching on its variables only and without a
decision limit. The result tells whether it has no model. -/
def searchGroup (numVars : Nat) (settings : Settings) (bucket : Bucket) (progress : Progress) :
    Except Fault (Progress × Bool) :=
  let formula := Formula.ofClauses numVars (bucket.members.map fun entry => entry.clause.literals)
  let alone := { settings with preprocessing := false, maxDecisions := none }
  match (Search.start formula alone (.ofVars bucket.vars)).solve with
  | .error fault => .error fault
  | .ok (ended, verdict) =>
      .ok ({ progress with
              groups := progress.groups + 1
              journal := progress.journal ++ ended.workspace.journal },
        verdict == .unsatisfiable)

/-- Refute a bucket on its own, if it has more than two clauses. -/
def refuteGroup (numVars : Nat) (settings : Settings) (bucket : Bucket) (progress : Progress) :
    Except Fault (Progress × Bool) :=
  if 2 < bucket.members.length then
    match searchGroup numVars settings bucket progress with
    | .error fault => .error fault
    | .ok (searched, true) => .ok (searched.log (.groupRefuted bucket.vars), true)
    | .ok (searched, false) => .ok (searched, false)
  else .ok (progress, false)

/-- Visit buckets in order. The result tells whether one of them has no model. -/
def visit (numVars : Nat) (settings : Settings) (progress : Progress) :
    List Bucket → Except Fault (Progress × Bool)
  | [] => .ok (progress, false)
  | bucket :: rest =>
      match refuteGroup numVars settings bucket progress with
      | .error fault => .error fault
      | .ok (searched, true) => .ok (searched, true)
      | .ok (searched, false) =>
          match resolvePairs searched (pairs bucket.members) with
          | (resolved, true) => .ok (resolved, true)
          | (resolved, false) => visit numVars settings resolved rest

/-- The clauses that were not replaced, as fresh clauses. -/
def survivors (clauses : List Clause) (replaced : List Nat) : List Clause :=
  ((members clauses).filter fun entry => !replaced.contains entry.index).map fun entry =>
    Clause.ofList entry.clause.literals

/-- The resolvents that no surviving clause equals. -/
def additions (kept : List Clause) (resolvents : List (List Int)) : List Clause :=
  (resolvents.filter fun resolvent => !(kept.map Clause.literals).contains resolvent).map
    Clause.ofList

/-- Put the outcome of a pass together: the surviving clauses, then the new ones. -/
def Progress.finish (progress : Progress) (clauses : List Clause) : Pass :=
  let kept := survivors clauses progress.replaced
  let added := additions kept progress.resolvents
  let statistics : Statistics :=
    ⟨clauses.length - kept.length, added.length, progress.groups⟩
  { result := .clauses (kept ++ added)
    statistics := statistics
    journal := progress.journal.push
      (.strengthened statistics.removed statistics.added statistics.groups) }

/-- One pass over a clause list with the given buckets, continuing the counters of
earlier passes. The buckets may come in any order. -/
def passOver (numVars : Nat) (settings : Settings) (statistics : Statistics)
    (clauses : List Clause) (buckets : List Bucket) : Except Fault Pass :=
  if clauses.any Clause.isEmpty then .ok ⟨.refuted, statistics, #[]⟩
  else
    match visit numVars settings ⟨[], [], statistics.groups, #[]⟩ (arrange buckets) with
    | .error fault => .error fault
    | .ok (progress, true) =>
        .ok ⟨.refuted, { statistics with groups := progress.groups }, progress.journal⟩
    | .ok (progress, false) => .ok (progress.finish clauses)

def pass (numVars : Nat) (settings : Settings) (statistics : Statistics)
    (clauses : List Clause) : Except Fault Pass :=
  passOver numVars settings statistics clauses (buckets clauses)

/-! ## What the steps of a pass come to -/

variable {numVars : Nat} {settings : Settings} {progress after : Progress} {refuted : Bool}

/-- A bucket is searched from its own clauses, and only its search is counted and
logged. -/
theorem searchGroup_cases {bucket : Bucket}
    (result : searchGroup numVars settings bucket progress = .ok (after, refuted)) :
    ∃ ended verdict,
      (Search.start
        (.ofClauses numVars (bucket.members.map fun entry => entry.clause.literals))
        { settings with preprocessing := false, maxDecisions := none }
        (.ofVars bucket.vars)).solve = .ok (ended, verdict) ∧
      refuted = (verdict == .unsatisfiable) ∧
      after =
        { progress with
          groups := progress.groups + 1
          journal := progress.journal ++ ended.workspace.journal } := by
  unfold searchGroup at result
  dsimp only at result
  split at result
  next failed => cases result
  next ended verdict solved =>
    cases result
    exact ⟨ended, verdict, solved, rfl, rfl⟩

/-- A bucket of more than two clauses is searched; a smaller one is left alone. -/
theorem refuteGroup_cases {bucket : Bucket}
    (result : refuteGroup numVars settings bucket progress = .ok (after, refuted)) :
    (2 < bucket.members.length ∧ ∃ searched,
      searchGroup numVars settings bucket progress = .ok (searched, refuted) ∧
      after = if refuted then searched.log (.groupRefuted bucket.vars) else searched) ∨
    (¬2 < bucket.members.length ∧ refuted = false ∧ after = progress) := by
  unfold refuteGroup at result
  split at result
  next many =>
    split at result
    next failed => cases result
    next searched group =>
      cases result
      exact .inl ⟨many, searched, group, rfl⟩
    next searched group =>
      cases result
      exact .inl ⟨many, after, group, rfl⟩
  next few =>
    cases result
    exact .inr ⟨few, rfl, rfl⟩

/-- The first bucket is refuted on its own or by two of its clauses, or its pairs are
resolved and the other buckets follow. -/
theorem visit_cases {bucket : Bucket} {rest : List Bucket}
    (result : visit numVars settings progress (bucket :: rest) = .ok (after, refuted)) :
    (refuted = true ∧ refuteGroup numVars settings bucket progress = .ok (after, true)) ∨
    ∃ searched, refuteGroup numVars settings bucket progress = .ok (searched, false) ∧
      ((refuted = true ∧ resolvePairs searched (pairs bucket.members) = (after, true)) ∨
        ∃ resolved, resolvePairs searched (pairs bucket.members) = (resolved, false) ∧
          visit numVars settings resolved rest = .ok (after, refuted)) := by
  unfold visit at result
  split at result
  next failed => cases result
  next searched group =>
    cases result
    exact .inl ⟨rfl, group⟩
  next searched group =>
    split at result
    next resolved contradiction =>
      cases result
      exact .inr ⟨searched, group, .inl ⟨rfl, contradiction⟩⟩
    next resolved settled => exact .inr ⟨searched, group, .inr ⟨resolved, settled, result⟩⟩

/-- A pass stops at an empty clause; otherwise it visits the buckets, and either they
refute its input or what they recorded is put together. -/
theorem passOver_cases {statistics : Statistics} {clauses : List Clause} {buckets : List Bucket}
    {finished : Pass}
    (result : passOver numVars settings statistics clauses buckets = .ok finished) :
    (clauses.any Clause.isEmpty = true ∧ finished = ⟨.refuted, statistics, #[]⟩) ∨
    (¬clauses.any Clause.isEmpty = true ∧ ∃ progress refuted,
      visit numVars settings ⟨[], [], statistics.groups, #[]⟩ (arrange buckets) =
        .ok (progress, refuted) ∧
      finished =
        if refuted then
          ⟨.refuted, { statistics with groups := progress.groups }, progress.journal⟩
        else progress.finish clauses) := by
  unfold passOver at result
  split at result
  next hasEmpty =>
    cases result
    exact .inl ⟨hasEmpty, rfl⟩
  next noEmpty =>
    split at result
    next failed => cases result
    next progress visited =>
      cases result
      exact .inr ⟨noEmpty, progress, true, visited, rfl⟩
    next progress visited =>
      cases result
      exact .inr ⟨noEmpty, progress, false, visited, rfl⟩

end Strengthening

end CnfSolver

import CnfSolver.Semantics
import CnfSolver.Proofs.UnitPropagation
import Mathlib.Data.List.Induction

/-!
# What the entries of a trail follow from

An assignment follows a list of entries if it gives their variables the values
of the entries. A trail is entailed by a clause list if every entry other than an
open decision has its value in each model that follows the open decisions
before it. Propagation keeps a trail entailed: a forced literal holds in every
model that follows the whole trail before it, hence in every model that follows
the open decisions there.
-/

namespace CnfSolver

/-! ## Literals -/

/-- A literal with a variable of at most 31 bits, so that it has a complement of
the same width. -/
def ProperLiteral (signed : Int) : Prop := signed ≠ 0 ∧ signed.natAbs < words32 / 2

instance (signed : Int) : Decidable (ProperLiteral signed) :=
  inferInstanceAs (Decidable (_ ∧ _))

/-- Every literal of every clause is proper. -/
def ProperClauses (clauses : List (List Int)) : Prop :=
  ∀ clause ∈ clauses, ∀ literal ∈ clause, ProperLiteral literal

instance (clauses : List (List Int)) : Decidable (ProperClauses clauses) :=
  inferInstanceAs (Decidable (∀ clause ∈ clauses, ∀ literal ∈ clause, ProperLiteral literal))

/-- A literal of some clause is on the variable. -/
def Mentions (clauses : List (List Int)) (var : Nat) : Prop :=
  ∃ clause ∈ clauses, ∃ literal ∈ clause, literal.natAbs = var

theorem properClauses_iff {clauses : List (List Int)} :
    ProperClauses clauses ↔ ∀ var, Mentions clauses var → 0 < var ∧ var < words32 / 2 := by
  constructor
  · rintro proper var ⟨clause, member, literal, literalMember, rfl⟩
    obtain ⟨nonzero, small⟩ := proper clause member literal literalMember
    exact ⟨Int.natAbs_pos.mpr nonzero, small⟩
  · intro bounded clause member literal literalMember
    obtain ⟨positive, small⟩ := bounded _ ⟨clause, member, literal, literalMember, rfl⟩
    exact ⟨Int.natAbs_pos.mp positive, small⟩

namespace Literal

theorem toSigned_eq {literal : Literal} (small : literal.var < words32 / 2) :
    literal.toSigned = if literal.value then (literal.var : Int) else -(literal.var : Int) := by
  have wrapped : Int.bmod literal.var words32 = literal.var := by
    unfold words32 at *
    rw [Int.bmod_eq_of_le] <;> omega
  simp [toSigned, wrapped]

theorem natAbs_toSigned {literal : Literal} (small : literal.var < words32 / 2) :
    literal.toSigned.natAbs = literal.var := by
  rw [toSigned_eq small]
  cases literal.value <;> simp

theorem isOpenDecision_of_forced {literal : Literal} (isForced : literal.origin = .forced) :
    literal.isOpenDecision = false := by
  rw [isOpenDecision, isForced]
  rfl

theorem polarity_toSigned {literal : Literal} (positive : 0 < literal.var)
    (small : literal.var < words32 / 2) : polarity literal.toSigned = literal.value := by
  rw [toSigned_eq small]
  cases literal.value <;> simp [polarity, positive]

end Literal

theorem Assignment.not_holds_iff {assignment : Assignment} {signed : Int} :
    ¬assignment.Holds signed ↔ assignment signed.natAbs = !polarity signed := by
  unfold Holds
  cases assignment signed.natAbs <;> cases polarity signed <;> simp

/-! ## Assignments that follow a trail -/

/-- The assignment gives every variable of the entries the value it has there. -/
def Assignment.Follows (assignment : Assignment) (entries : List Literal) : Prop :=
  ∀ entry ∈ entries, assignment entry.var = entry.value

namespace Assignment

theorem follows_nil (assignment : Assignment) : assignment.Follows [] := by
  simp [Follows]

theorem follows_append {assignment : Assignment} {firsts seconds : List Literal} :
    assignment.Follows (firsts ++ seconds) ↔
      assignment.Follows firsts ∧ assignment.Follows seconds := by
  simp only [Follows, List.forall_mem_append]

theorem follows_singleton {assignment : Assignment} {entry : Literal} :
    assignment.Follows [entry] ↔ assignment entry.var = entry.value := by
  simp [Follows]

theorem Follows.eq_of_value? {assignment : Assignment} {trail : Trail}
    (follows : assignment.Follows trail.toList) (exact : trail.Exact) {var : Nat} {value : Bool}
    (assigned : trail.value? var = some value) : assignment var = value := by
  obtain ⟨entry, member, sameVar, sameValue⟩ := exact.value?_eq_some_iff.mp assigned
  rw [← sameVar, ← sameValue]
  exact follows entry member

end Assignment

/-! ## The clauses of a database -/

namespace Database

/-- The literals of every stored clause. -/
def contents (database : Database) : List (List Int) :=
  database.clauses.toList.map Clause.literals

@[simp]
theorem contents_under (database : Database) (values : Valuation) :
    (database.under values).contents = database.contents := by
  simp [contents, under, Function.comp_def]

@[simp]
theorem contents_push (database : Database) (clause : Clause) :
    (database.push clause).contents = database.contents ++ [clause.literals] := by
  simp [contents, push]

theorem push_under (database : Database) (clause : Clause) (values : Valuation) :
    (database.push clause).under values =
      (database.under values).push (clause.under values) := by
  have vars : (clause.under values).vars = clause.vars := by
    rw [Clause.vars_eq, Clause.vars_eq, Clause.literals_under]
  simp only [push, under, Occurrences.add, Array.map_push, Array.size_map, vars,
    Clause.literals_under, Clause.learned_under]
  rfl

/-- What is stored, whatever the states of the clauses. -/
def bare (database : Database) : Database := database.under .blank

@[simp]
theorem bare_under (database : Database) (values : Valuation) :
    (database.under values).bare = database.bare := by
  simp [bare]

theorem contents_eq_of_bare {first second : Database} (same : first.bare = second.bare) :
    first.contents = second.contents := by
  rw [← contents_under first .blank, ← contents_under second .blank]
  exact congrArg contents same

theorem contents_learn {database : Database} {trail : Trail} (exact : trail.Exact)
    (states : database.under trail.value? = database) (literals : List Int) :
    (database.learn (.learnedOfList literals) trail).contents =
      database.contents ++ [normalise literals] := by
  rw [learn_eq_under exact states, contents_under, contents_push, ← Clause.literals_ofList]
  rfl

theorem mem_contents {database : Database} {clause : Clause}
    (member : clause ∈ database.clauses) : clause.literals ∈ database.contents :=
  List.mem_map_of_mem (Array.mem_toList_iff.mpr member)

@[simp]
theorem contents_ofClauses (numVars : Nat) (clauses : List Clause) :
    (ofClauses numVars clauses).contents = clauses.map Clause.literals := by
  simp [contents]

theorem ofClauses_concat (numVars : Nat) (clauses : List Clause) (clause : Clause) :
    ofClauses numVars (clauses ++ [clause]) = (ofClauses numVars clauses).push clause :=
  List.foldl_concat push (empty numVars) clause clauses

theorem known_ofClauses (numVars : Nat) (clauses : List Clause) :
    (ofClauses numVars clauses).known = (ofClauses numVars clauses).contents.reverse := by
  induction clauses using List.reverseRecOn with
  | nil => rfl
  | append_singleton earlier clause ih =>
    rw [ofClauses_concat, contents_push, List.reverse_append, ← ih]
    rfl

theorem learned_ofClauses (numVars : Nat) (clauses : List Clause) :
    (ofClauses numVars clauses).learned = clauses.countP Clause.learned := by
  induction clauses using List.reverseRecOn with
  | nil => rfl
  | append_singleton earlier clause ih =>
    rw [ofClauses_concat, push, List.countP_append, List.countP_singleton, ← ih]
    cases clause.learned <;> rfl

end Database

/-! ## Properties of entries relative to the entries before them -/

/-- Every entry stands in the relation to the entries before it. -/
def Along (relation : List Literal → Literal → Prop) (entries : List Literal) : Prop :=
  ∀ earlier entry, earlier ++ [entry] <+: entries → relation earlier entry

section Along

variable {relation : List Literal → Literal → Prop} {entries : List Literal}

theorem along_nil : Along relation [] := by
  intro earlier entry initial
  simp at initial

theorem Along.of_isPrefix {longer : List Literal} (along : Along relation longer)
    (initial : entries <+: longer) : Along relation entries :=
  fun earlier entry within => along earlier entry (within.trans initial)

theorem Along.of_getElem? (along : Along relation entries) {place : Nat} {entry : Literal}
    (there : entries[place]? = some entry) : relation (entries.take place) entry := by
  apply along
  have taken : entries.take place ++ [entry] = entries.take (place + 1) := by
    rw [List.take_add_one, there, Option.toList_some]
  rw [taken]
  exact List.take_prefix _ _

theorem along_concat {entry : Literal} :
    Along relation (entries ++ [entry]) ↔ Along relation entries ∧ relation entries entry := by
  constructor
  · intro along
    exact ⟨along.of_isPrefix (List.prefix_append _ _), along _ _ (List.prefix_refl _)⟩
  · rintro ⟨along, last⟩ earlier other initial
    rcases List.prefix_concat_iff.mp initial with whole | within
    · obtain ⟨rfl, same⟩ := List.append_inj' whole rfl
      obtain rfl := List.singleton_inj.mp same
      exact last
    · exact along earlier other within

theorem Along.append_forced
    (holds : ∀ earlier entry, entry.origin = .forced → relation earlier entry)
    {forced : List Literal} (along : Along relation entries)
    (tags : ∀ entry ∈ forced, entry.origin = .forced) : Along relation (entries ++ forced) := by
  induction forced using List.reverseRecOn with
  | nil => rwa [List.append_nil]
  | append_singleton earlier entry ih =>
    rw [← List.append_assoc, along_concat]
    refine ⟨ih fun other member => tags other (List.mem_append_left _ member), ?_⟩
    exact holds _ entry (tags entry (by simp))

end Along

/-- The entry is an open decision, or has its value in every model of the clauses
that follows the open decisions before it. -/
def Entailed (clauses : List (List Int)) (earlier : List Literal) (entry : Literal) : Prop :=
  entry.isOpenDecision = false → ∀ assignment : Assignment, assignment.SatisfiesAll clauses →
    assignment.Follows (earlier.filter Literal.isOpenDecision) → assignment entry.var = entry.value

/-- A model that follows the open decisions of an entailed trail follows all of
it. -/
theorem follows_of_decisions {clauses : List (List Int)} {entries : List Literal}
    (entailed : Along (Entailed clauses) entries) {assignment : Assignment}
    (model : assignment.SatisfiesAll clauses)
    (decided : assignment.Follows (entries.filter Literal.isOpenDecision)) :
    assignment.Follows entries := by
  induction entries using List.reverseRecOn with
  | nil => exact assignment.follows_nil
  | append_singleton earlier entry ih =>
    obtain ⟨earlierEntailed, entryEntailed⟩ := along_concat.mp entailed
    rw [List.filter_append, Assignment.follows_append] at decided
    refine Assignment.follows_append.mpr ⟨ih earlierEntailed decided.1, ?_⟩
    rw [Assignment.follows_singleton]
    cases isDecision : entry.isOpenDecision with
    | true => exact decided.2 entry (by simp [isDecision])
    | false => exact entryEntailed isDecision assignment model decided.1

/-! ## Propagation keeps a trail entailed -/

namespace Workspace

/-- What a clause forces holds in every model that follows the trail. -/
theorem Forces.holds {workspace : Workspace} {unit : Int} (forces : workspace.Forces unit)
    (aligned : workspace.Aligned) {assignment : Assignment}
    (model : assignment.SatisfiesAll workspace.database.contents)
    (follows : assignment.Follows workspace.trail.toList) : assignment.Holds unit := by
  obtain ⟨clause, member, _, _, othersFalse⟩ := forces
  obtain ⟨literal, literalMember, holds⟩ := model clause.literals (Database.mem_contents member)
  by_cases same : literal = unit
  · exact same ▸ holds
  · have isFalse := follows.eq_of_value? aligned.trail (othersFalse literal literalMember same)
    exact absurd holds (Assignment.not_holds_iff.mpr isFalse)

/-- No model follows a trail under which a stored clause is falsified. -/
theorem Aligned.not_follows_of_isFalsified {workspace : Workspace} (aligned : workspace.Aligned)
    {clause : Clause} (member : clause ∈ workspace.database.clauses)
    (falsified : clause.isFalsified = true) {assignment : Assignment}
    (model : assignment.SatisfiesAll workspace.database.contents) :
    ¬assignment.Follows workspace.trail.toList := by
  intro follows
  rw [← aligned.clause_under member, Clause.isFalsified_under] at falsified
  obtain ⟨literal, literalMember, holds⟩ := model clause.literals (Database.mem_contents member)
  have isFalse := follows.eq_of_value? aligned.trail (falsified literal literalMember)
  exact Assignment.not_holds_iff.mpr isFalse holds

theorem Derives.contents {before after : Workspace} (derives : before.Derives after)
    (aligned : before.Aligned) : after.database.contents = before.database.contents := by
  rw [derives.database aligned, Database.contents_under]

theorem Derives.along_entailed {before after : Workspace} (derives : before.Derives after)
    (aligned : before.Aligned) {clauses : List (List Int)}
    (implied : ∀ assignment : Assignment, assignment.SatisfiesAll clauses →
      assignment.SatisfiesAll before.database.contents)
    (entailed : Along (Entailed clauses) before.trail.toList) :
    Along (Entailed clauses) after.trail.toList := by
  induction derives with
  | refl => exact entailed
  | @force middle unit derives forces ih =>
    have middleAligned := derives.aligned aligned
    rw [forces.toList_force middleAligned, along_concat]
    refine ⟨ih, ?_⟩
    intro _ assignment model decided
    have follows := follows_of_decisions ih model decided
    have middleModel := implied assignment model
    rw [← derives.contents aligned] at middleModel
    exact forces.holds middleAligned middleModel follows

end Workspace

end CnfSolver

import CnfSolver.Database
import CnfSolver.Proofs.CanonicalForm

/-!
# The occurrence index is exact

The index lists for every variable exactly the clauses that mention it, each
once and in increasing order. A change that leaves clauses without the variable
alone can therefore be made through the index or in every clause, with the same
result. With this, every operation on the shadow states of a database is an
operation on one valuation: `Database.under`.
-/

namespace CnfSolver

theorem Clause.Ordered.pairwise_eraseReps_vars {clause : Clause} (ordered : clause.Ordered) :
    clause.vars.eraseReps.Pairwise fun first second => first < second := by
  have sorted : clause.vars.Pairwise fun first second => first ≤ second := by
    simpa [Clause.vars, List.pairwise_map] using ordered.pairwise_slots
  have strict := pairwise_eraseReps (fun _ _ => Nat.le_antisymm) clause.vars sorted
  exact strict.imp fun both => Nat.lt_of_le_of_ne both.1 both.2

theorem Clause.Ordered.nodup_eraseReps_vars {clause : Clause} (ordered : clause.Ordered) :
    clause.vars.eraseReps.Nodup :=
  ordered.pairwise_eraseReps_vars.imp Nat.ne_of_lt

theorem Clause.Ordered.mem_eraseReps_vars {clause : Clause} (ordered : clause.Ordered) {var : Nat} :
    var ∈ clause.vars.eraseReps ↔ clause.mentions var = true := by
  rw [mem_eraseReps, ordered.mentions_iff]
  simp [Clause.vars, Clause.literals, Slot.var]

theorem Clause.mentions_congr {first second : Clause} (ordered : first.Ordered)
    (same : second.literals = first.literals) (var : Nat) :
    second.mentions var = first.mentions var := by
  rw [Bool.eq_iff_iff, (ordered.of_literals_eq same).mentions_iff, ordered.mentions_iff, same]

/-! ## Noting the variables of a clause -/

namespace Occurrences

theorem of_note (occurrences : Occurrences) (index var other : Nat) :
    (occurrences.note index var).of other =
      if other = var then (occurrences.of other).push index else occurrences.of other := by
  simp only [of, note, Array.getElem?_modify, Array.getElem?_append, Array.getElem?_replicate]
  by_cases inside : other < occurrences.table.size
  · by_cases same : other = var
    · subst same
      simp [inside]
    · simp [inside, same, Ne.symm same]
  · by_cases same : other = var
    · subst same
      have room : other - occurrences.table.size < other + 1 - occurrences.table.size := by omega
      simp [inside, room]
    · simp only [inside, same, Ne.symm same, if_false]
      split <;> simp [inside]

theorem of_foldl_note (occurrences : Occurrences) (index other : Nat) (vars : List Nat)
    (nodup : vars.Nodup) :
    (vars.foldl (fun occurrences var => occurrences.note index var) occurrences).of other =
      if other ∈ vars then (occurrences.of other).push index else occurrences.of other := by
  induction vars generalizing occurrences with
  | nil => rfl
  | cons head tail ih =>
    have parts := List.nodup_cons.mp nodup
    rw [List.foldl_cons, ih _ parts.2, of_note]
    by_cases isHead : other = head
    · subst isHead
      simp [parts.1]
    · simp [isHead]

theorem of_add (occurrences : Occurrences) {clause : Clause} (ordered : clause.Ordered)
    (index var : Nat) :
    (occurrences.add clause index).of var =
      if clause.mentions var then (occurrences.of var).push index else occurrences.of var := by
  unfold add
  rw [of_foldl_note _ _ _ _ ordered.nodup_eraseReps_vars]
  simp only [ordered.mem_eraseReps_vars]

end Occurrences

namespace Database

/-- The places of the clauses that mention `var`, in increasing order. -/
def mentioning (database : Database) (var : Nat) : List Nat :=
  (List.range database.length).filter fun index =>
    database.clauses[index]?.any fun clause => clause.mentions var

/-- Every clause is in order, and the index lists for every variable exactly the
clauses that mention it. -/
structure WellFormed (database : Database) : Prop where
  ordered : ∀ clause ∈ database.clauses, clause.Ordered
  indexed : ∀ var, (database.occurrences.of var).toList = database.mentioning var

theorem wellFormed_empty (numVars : Nat) : (empty numVars).WellFormed where
  ordered := by simp [empty]
  indexed := by
    intro var
    have nothing : (Occurrences.empty numVars).of var = #[] := by
      simp only [Occurrences.of, Occurrences.empty, Array.getElem?_replicate]
      split <;> rfl
    simp [empty, mentioning, length, nothing]

theorem mentioning_push (database : Database) (clause : Clause) (var : Nat) :
    (database.push clause).mentioning var =
      database.mentioning var ++ if clause.mentions var then [database.length] else [] := by
  have before : (List.range database.length).filter (fun index =>
      (database.clauses.push clause)[index]?.any fun clause => clause.mentions var) =
        database.mentioning var := by
    apply List.filter_congr
    intro index member
    have inside : index < database.clauses.size := List.mem_range.mp member
    rw [Array.getElem?_push, if_neg (by omega)]
  have size : (database.push clause).length = database.length + 1 := by simp [length, push]
  rw [mentioning, size, List.range_succ, List.filter_append]
  refine congrArg₂ (· ++ ·) before ?_
  cases mentioned : clause.mentions var <;> simp [push, length, mentioned]

theorem WellFormed.push {database : Database} (wellFormed : database.WellFormed)
    {clause : Clause} (ordered : clause.Ordered) : (database.push clause).WellFormed where
  ordered := by
    intro other member
    rcases Array.mem_push.mp member with earlier | rfl
    · exact wellFormed.ordered other earlier
    · exact ordered
  indexed := by
    intro var
    have indexed := wellFormed.indexed var
    rw [mentioning_push, ← indexed]
    simp only [Database.push, Occurrences.of_add _ ordered]
    cases clause.mentions var <;> simp [length]

theorem wellFormed_ofClauses (numVars : Nat) {clauses : List Clause}
    (ordered : ∀ clause ∈ clauses, clause.Ordered) : (ofClauses numVars clauses).WellFormed := by
  have folded : ∀ (rest : List Clause) (database : Database), database.WellFormed →
      (∀ clause ∈ rest, clause.Ordered) → (rest.foldl Database.push database).WellFormed := by
    intro rest
    induction rest with
    | nil => exact fun database wellFormed _ => wellFormed
    | cons head tail ih =>
      intro database wellFormed allOrdered
      have parts := List.forall_mem_cons.mp allOrdered
      exact ih _ (wellFormed.push parts.1) parts.2
  exact folded clauses _ (wellFormed_empty numVars) ordered

@[simp]
theorem toList_clauses_ofClauses (numVars : Nat) (clauses : List Clause) :
    (ofClauses numVars clauses).clauses.toList = clauses := by
  have folded : ∀ (rest : List Clause) (database : Database),
      (rest.foldl Database.push database).clauses.toList = database.clauses.toList ++ rest := by
    intro rest
    induction rest with
    | nil => simp
    | cons head tail ih =>
      intro database
      rw [List.foldl_cons, ih]
      simp [Database.push]
  exact folded clauses (empty numVars)

/-! ## Updates through the index -/

theorem getElem?_foldl_modify (clauses : Array Clause) (change : Clause → Clause)
    (indices : List Nat) (nodup : indices.Nodup) (place : Nat) :
    (indices.foldl (fun clauses index => clauses.modify index change) clauses)[place]? =
      if place ∈ indices then clauses[place]?.map change else clauses[place]? := by
  induction indices generalizing clauses with
  | nil => rfl
  | cons head tail ih =>
    have parts := List.nodup_cons.mp nodup
    rw [List.foldl_cons, ih _ parts.2, Array.getElem?_modify]
    by_cases isHead : place = head
    · subst isHead
      simp [parts.1]
    · simp [isHead, Ne.symm isHead]

/-- A change that leaves clauses without the variable alone may as well be made
in every clause. -/
theorem WellFormed.update_eq_map {database : Database} (wellFormed : database.WellFormed)
    (var : Nat) {change : Clause → Clause}
    (spared : ∀ clause, clause.mentions var = false → change clause = clause) :
    database.update (database.occurrences.of var) change =
      { database with clauses := database.clauses.map change } := by
  have nodup : (database.mentioning var).Nodup := List.nodup_range.filter _
  unfold update
  congr 1
  rw [← Array.foldl_toList, wellFormed.indexed]
  refine Array.ext_getElem? fun place => ?_
  rw [getElem?_foldl_modify _ _ _ nodup, Array.getElem?_map]
  split
  next listed => rfl
  next unlisted =>
    cases found : database.clauses[place]? with
    | none => rfl
    | some clause =>
      have inside : place < database.length := (Array.getElem?_eq_some_iff.mp found).1
      have absent : clause.mentions var = false := by
        simpa [mentioning, inside, found] using unlisted
      rw [Option.map_some, spared clause absent]

theorem WellFormed.assign_eq_map {database : Database} (wellFormed : database.WellFormed)
    (literal : Literal) :
    database.assign literal =
      { database with clauses := database.clauses.map fun clause => clause.assign literal } :=
  wellFormed.update_eq_map literal.var fun _ absent => Clause.assign_of_not_mentions absent

theorem WellFormed.retract_eq_map {database : Database} (wellFormed : database.WellFormed)
    (var : Nat) :
    database.retract var =
      { database with clauses := database.clauses.map fun clause => clause.retract var } :=
  wellFormed.update_eq_map var fun _ absent => Clause.retract_of_not_mentions absent

/-! ## Databases under a valuation -/

/-- The database with every clause in the state that a valuation puts it in. -/
def under (database : Database) (values : Valuation) : Database :=
  { database with clauses := database.clauses.map fun clause => clause.under values }

@[simp]
theorem under_under (database : Database) (first second : Valuation) :
    (database.under first).under second = database.under second := by
  simp [under, Function.comp_def]

theorem reset_eq_under (database : Database) : database.reset = database.under .blank := by
  simp [reset, under, Clause.reset_eq_under]

theorem under_blank_ofClauses (numVars : Nat) {clauses : List Clause}
    (fresh : ∀ clause ∈ clauses, clause.Fresh) :
    (ofClauses numVars clauses).under .blank = ofClauses numVars clauses := by
  have same : (ofClauses numVars clauses).clauses.map (fun clause => clause.under .blank) =
      (ofClauses numVars clauses).clauses := by
    rw [← Array.toList_inj, Array.toList_map, toList_clauses_ofClauses]
    exact (List.map_congr_left fun clause member => (fresh clause member).blank).trans
      (List.map_id clauses)
  unfold under
  rw [same]

/-- Whether the index is exact depends on the literals of the clauses alone. -/
theorem WellFormed.congr {database other : Database} (wellFormed : database.WellFormed)
    (literals : other.clauses.map Clause.literals = database.clauses.map Clause.literals)
    (occurrences : other.occurrences = database.occurrences) : other.WellFormed := by
  have alike : ∀ index : Nat, other.clauses[index]?.map Clause.literals =
      database.clauses[index]?.map Clause.literals := by
    intro index
    rw [← Array.getElem?_map, literals, Array.getElem?_map]
  refine ⟨?_, ?_⟩
  · intro clause member
    have inOther : clause.literals ∈ other.clauses.map Clause.literals :=
      Array.mem_map_of_mem member
    rw [literals] at inOther
    obtain ⟨source, sourceMember, same⟩ := Array.mem_map.mp inOther
    exact (wellFormed.ordered source sourceMember).of_literals_eq same.symm
  · intro var
    have size : other.length = database.length := by
      simpa [length] using congrArg Array.size literals
    rw [occurrences, wellFormed.indexed, mentioning, mentioning, size]
    refine List.filter_congr fun index _ => ?_
    have same := alike index
    cases found : database.clauses[index]? with
    | none =>
      rw [found, Option.map_none, Option.map_eq_none_iff] at same
      rw [same]
    | some clause =>
      rw [found, Option.map_some, Option.map_eq_some_iff] at same
      obtain ⟨counterpart, there, sameLiterals⟩ := same
      have ordered := wellFormed.ordered clause (Array.mem_of_getElem? found)
      rw [there, Option.any_some, Option.any_some, Clause.mentions_congr ordered sameLiterals]

theorem WellFormed.under {database : Database} (wellFormed : database.WellFormed)
    (values : Valuation) : (database.under values).WellFormed :=
  wellFormed.congr (by simp [Database.under, Function.comp_def]) rfl

theorem WellFormed.assign_under {database : Database} (wellFormed : database.WellFormed)
    (values : Valuation) (literal : Literal) :
    (database.under values).assign literal = database.under (values.extend literal) := by
  rw [(wellFormed.under values).assign_eq_map]
  simp only [Database.under, Array.map_map]
  congr 1
  exact Array.map_congr_left fun clause member =>
    Clause.assign_under (wellFormed.ordered clause member) values literal

theorem WellFormed.retract_under {database : Database} (wellFormed : database.WellFormed)
    (values : Valuation) (var : Nat) :
    (database.under values).retract var = database.under (values.forget var) := by
  rw [(wellFormed.under values).retract_eq_map]
  simp only [Database.under, Array.map_map]
  congr 1
  exact Array.map_congr_left fun clause member =>
    Clause.retract_under (wellFormed.ordered clause member) values var

theorem WellFormed.foldl_assign_under {database : Database} (wellFormed : database.WellFormed)
    (values : Valuation) (literals : List Literal) :
    literals.foldl assign (database.under values) =
      database.under (literals.foldl Valuation.extend values) := by
  induction literals generalizing values with
  | nil => rfl
  | cons head tail ih => rw [List.foldl_cons, wellFormed.assign_under, ih, List.foldl_cons]

theorem WellFormed.foldl_retract_under {database : Database} (wellFormed : database.WellFormed)
    (values : Valuation) (literals : List Literal) :
    literals.foldl (fun database literal => database.retract literal.var) (database.under values) =
      database.under (literals.foldl (fun values literal => values.forget literal.var) values) := by
  induction literals generalizing values with
  | nil => rfl
  | cons head tail ih => rw [List.foldl_cons, wellFormed.retract_under, ih, List.foldl_cons]

end Database

end CnfSolver

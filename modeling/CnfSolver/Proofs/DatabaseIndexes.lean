import CnfSolver.Proofs.Entailment

/-!
# The indexes of a database are exact

Beside the clauses a database keeps the occurrences of each variable, the literal lists
and the number of learned clauses. No change of clause states touches them, and appending
a clause enters it in all three, whatever variables were declared. So after any operations
the indexes are those of the clauses that were given, and an update through the
occurrences is an update of every clause.
-/

namespace CnfSolver

/-- What a clause is apart from its state is its literals and its mark. -/
theorem Clause.under_congr {first second : Clause} (literals : first.literals = second.literals)
    (learned : first.learned = second.learned) (values : Valuation) :
    first.under values = second.under values := by
  have slots : ∀ clause : Clause, clause.slots.map (fun slot => slot.under values) =
      clause.literals.map fun literal => ⟨literal, values literal.natAbs⟩ := by
    intro clause
    simp [Clause.literals, Slot.under, Slot.var]
  simp only [under, slots, literals, learned]

theorem Clause.blank_assign (clause : Clause) (literal : Literal) :
    (clause.assign literal).under .blank = clause.under .blank :=
  under_congr (literals_assign clause literal) rfl .blank

theorem Clause.blank_retract (clause : Clause) (var : Nat) :
    (clause.retract var).under .blank = clause.under .blank := by
  refine under_congr (literals_retract clause var) ?_ .blank
  unfold retract
  dsimp only
  split <;> rfl

theorem Clause.blank_foldl_assign (clause : Clause) (literals : List Literal) :
    (literals.foldl assign clause).under .blank = clause.under .blank := by
  apply List.foldlRecOn (motive := fun result : Clause =>
    result.under .blank = clause.under .blank) _ _ rfl
  intro result same literal _
  exact (result.blank_assign literal).trans same

namespace Database

/-- An operation on a database. A clause is stored in canonical form, in whatever state. -/
inductive Operation where
  | learn (clause : Clause) (canonical : clause.Canonical) (trail : Trail)
  | assign (literal : Literal)
  | retract (var : Nat)
  | reset
  | replay (trail : Trail)
  deriving DecidableEq

/-- The clause that an operation stores. -/
def Operation.stored? : Operation → Option Clause
  | learn clause _ _ => some clause
  | assign _ => none
  | retract _ => none
  | reset => none
  | replay _ => none

def apply (database : Database) : Operation → Database
  | .learn clause _ trail => database.learn clause trail
  | .assign literal => database.assign literal
  | .retract var => database.retract var
  | .reset => database.reset
  | .replay trail => database.replay trail

def applyAll (database : Database) (operations : List Operation) : Database :=
  operations.foldl apply database

/-- The database holds the given clauses, with their literals and their marks as given,
and each index agrees with them. Updating the clauses that the occurrences list is
updating all of them. -/
structure Exact (given : List Clause) (database : Database) : Prop where
  contents : database.contents = given.map Clause.literals
  marks : database.clauses.toList.map Clause.learned = given.map Clause.learned
  increasing : ∀ var, (database.occurrences.of var).toList.Pairwise (· < ·)
  occurs : ∀ var index, index ∈ database.occurrences.of var ↔
    ∃ clause, database.clauses[index]? = some clause ∧
      ∃ literal ∈ clause.literals, literal.natAbs = var
  contains : ∀ clause : Clause, clause.Canonical → (database.contains clause = true ↔
    ∃ stored ∈ database.clauses,
      ∀ literal, literal ∈ stored.literals ↔ literal ∈ clause.literals)
  learned : database.learned = database.clauses.toList.countP Clause.learned
  assign : ∀ literal, database.assign literal =
    { database with clauses := database.clauses.map fun clause => clause.assign literal }
  retract : ∀ var, database.retract var =
    { database with clauses := database.clauses.map fun clause => clause.retract var }

/-! ## No operation on states touches what is stored -/

theorem bare_update (database : Database) (indices : Array Nat) {change : Clause → Clause}
    (keeps : ∀ clause, (change clause).under .blank = clause.under .blank) :
    (database.update indices change).bare = database.bare := by
  have modified : ∀ (clauses : Array Clause) (index : Nat),
      (clauses.modify index change).map (fun clause => clause.under .blank) =
        clauses.map fun clause => clause.under .blank := by
    intro clauses index
    refine Array.ext_getElem? fun place => ?_
    rw [Array.getElem?_map, Array.getElem?_map, Array.getElem?_modify]
    split
    next modified => cases clauses[place]? <;> simp [keeps]
    next untouched => rfl
  refine congrArg (fun clauses => { database with clauses := clauses }) ?_
  rw [update, ← Array.foldl_toList]
  apply List.foldlRecOn (motive := fun clauses : Array Clause =>
    clauses.map (fun clause => clause.under .blank) =
      database.clauses.map fun clause => clause.under .blank) _ _ rfl
  intro clauses same index _
  exact (modified clauses index).trans same

theorem bare_assign (database : Database) (literal : Literal) :
    (database.assign literal).bare = database.bare :=
  bare_update database _ fun clause => clause.blank_assign literal

theorem bare_retract (database : Database) (var : Nat) :
    (database.retract var).bare = database.bare :=
  bare_update database _ fun clause => clause.blank_retract var

theorem bare_reset (database : Database) : database.reset.bare = database.bare := by
  rw [reset_eq_under, bare_under]

theorem bare_replay (database : Database) (trail : Trail) :
    (database.replay trail).bare = database.bare := by
  apply List.foldlRecOn (motive := fun result : Database => result.bare = database.bare) _ _
    database.bare_reset
  intro result same literal _
  exact (bare_assign result literal).trans same

theorem bare_learn (database : Database) (clause : Clause) (trail : Trail) :
    (database.learn clause trail).bare = (database.push clause).bare :=
  bare_update (database.push clause) _ fun added => added.blank_foldl_assign trail.toList

theorem bare_push_congr {first second : Database} (same : first.bare = second.bare)
    (clause : Clause) : (first.push clause).bare = (second.push clause).bare := by
  rw [bare, bare, push_under, push_under]
  exact congrArg (fun database => database.push (clause.under .blank)) same

/-- States apart, an operation adds the clause that it stores. -/
theorem bare_apply {database : Database} {numVars : Nat} {given : List Clause}
    (same : database.bare = (ofClauses numVars given).bare) (operation : Operation) :
    (database.apply operation).bare =
      (ofClauses numVars (given ++ operation.stored?.toList)).bare := by
  have onStates : operation.stored? = none → (database.apply operation).bare = database.bare →
      (database.apply operation).bare =
        (ofClauses numVars (given ++ operation.stored?.toList)).bare := by
    intro nothing unchanged
    rw [nothing, Option.toList_none, List.append_nil]
    exact unchanged.trans same
  cases operation with
  | learn clause canonical trail =>
    calc
      _ = (database.push clause).bare := bare_learn database clause trail
      _ = ((ofClauses numVars given).push clause).bare := bare_push_congr same clause
      _ = _ := congrArg bare (ofClauses_concat numVars given clause).symm
  | assign literal => exact onStates rfl (bare_assign database literal)
  | retract var => exact onStates rfl (bare_retract database var)
  | reset => exact onStates rfl database.bare_reset
  | replay trail => exact onStates rfl (bare_replay database trail)

/-- States apart, operations lead to the database of all clauses, given at once. -/
theorem bare_applyAll {database : Database} {numVars : Nat} {given : List Clause}
    (same : database.bare = (ofClauses numVars given).bare) (operations : List Operation) :
    (database.applyAll operations).bare =
      (ofClauses numVars (given ++ operations.filterMap Operation.stored?)).bare := by
  induction operations generalizing database given with
  | nil => rwa [List.filterMap_nil, List.append_nil]
  | cons operation rest ih =>
    have stored : (operation :: rest).filterMap Operation.stored? =
        operation.stored?.toList ++ rest.filterMap Operation.stored? := by
      rw [List.filterMap_cons]
      cases operation.stored? <;> rfl
    rw [stored, ← List.append_assoc]
    exact ih (bare_apply same operation)

theorem canonical_of_stored {operations : List Operation} {clause : Clause}
    (member : clause ∈ operations.filterMap Operation.stored?) : clause.Canonical := by
  obtain ⟨operation, _, stored⟩ := List.mem_filterMap.mp member
  cases operation with
  | learn added canonical trail =>
    cases stored
    exact canonical
  | assign literal => cases stored
  | retract var => cases stored
  | reset => cases stored
  | replay trail => cases stored

/-! ## What is stored determines the indexes -/

theorem marks_eq_of_bare {first second : Database} (same : first.bare = second.bare) :
    first.clauses.toList.map Clause.learned = second.clauses.toList.map Clause.learned := by
  have marks : ∀ database : Database, database.bare.clauses.toList.map Clause.learned =
      database.clauses.toList.map Clause.learned := by
    intro database
    simp [bare, under, Function.comp_def]
  rw [← marks first, ← marks second, same]

theorem WellFormed.of_bare {first second : Database} (wellFormed : first.WellFormed)
    (same : second.bare = first.bare) : second.WellFormed := by
  have sameOccurrences : second.bare.occurrences = first.bare.occurrences :=
    congrArg occurrences same
  refine wellFormed.congr ?_ sameOccurrences
  rw [← Array.toList_inj, Array.toList_map, Array.toList_map]
  exact contents_eq_of_bare same

theorem WellFormed.mem_occurrences_iff {database : Database} (wellFormed : database.WellFormed)
    {var index : Nat} :
    index ∈ database.occurrences.of var ↔
      ∃ clause, database.clauses[index]? = some clause ∧
        ∃ literal ∈ clause.literals, literal.natAbs = var := by
  rw [← Array.mem_toList_iff, wellFormed.indexed, mentioning, List.mem_filter, List.mem_range]
  constructor
  · rintro ⟨_, mentioned⟩
    obtain ⟨clause, there, mentions⟩ := (Option.any_eq_true _ _).mp mentioned
    have ordered := wellFormed.ordered clause (Array.mem_of_getElem? there)
    exact ⟨clause, there, (ordered.mentions_iff var).mp mentions⟩
  · rintro ⟨clause, there, mentions⟩
    have ordered := wellFormed.ordered clause (Array.mem_of_getElem? there)
    refine ⟨(Array.getElem?_eq_some_iff.mp there).1, ?_⟩
    exact (Option.any_eq_true _ _).mpr ⟨clause, there, (ordered.mentions_iff var).mpr mentions⟩

theorem contains_iff {database : Database} (known : database.known = database.contents.reverse)
    (canonical : ∀ stored ∈ database.clauses, stored.Canonical) {clause : Clause}
    (isCanonical : clause.Canonical) :
    database.contains clause = true ↔
      ∃ stored ∈ database.clauses,
        ∀ literal, literal ∈ stored.literals ↔ literal ∈ clause.literals := by
  rw [Database.contains, known, List.contains_iff_mem, List.mem_reverse, contents, List.mem_map]
  constructor
  · rintro ⟨stored, member, same⟩
    exact ⟨stored, Array.mem_toList_iff.mp member, fun literal => by rw [same]⟩
  · rintro ⟨stored, member, sameMembers⟩
    exact ⟨stored, Array.mem_toList_iff.mpr member,
      ((canonical stored member).literals_eq_iff isCanonical).mpr sameMembers⟩

theorem exact_of_bare {database : Database} {numVars : Nat} {given : List Clause}
    (canonical : ∀ clause ∈ given, clause.Canonical)
    (same : database.bare = (ofClauses numVars given).bare) : database.Exact given := by
  have contents : database.contents = given.map Clause.literals :=
    (contents_eq_of_bare same).trans (contents_ofClauses numVars given)
  have marks : database.clauses.toList.map Clause.learned = given.map Clause.learned := by
    rw [marks_eq_of_bare same, toList_clauses_ofClauses]
  have ordered : ∀ clause ∈ given, clause.Ordered := fun clause member =>
    (canonical clause member).ordered
  have wellFormed : database.WellFormed := (wellFormed_ofClauses numVars ordered).of_bare same
  have sameKnown : database.bare.known = (ofClauses numVars given).bare.known :=
    congrArg Database.known same
  have sameLearned : database.bare.learned = (ofClauses numVars given).bare.learned :=
    congrArg Database.learned same
  have known : database.known = database.contents.reverse := by
    rw [contents_eq_of_bare same, ← known_ofClauses]
    exact sameKnown
  have counted : database.learned = given.countP Clause.learned :=
    sameLearned.trans (learned_ofClauses numVars given)
  have storedCanonical : ∀ stored ∈ database.clauses, stored.Canonical := by
    intro stored member
    have listed := mem_contents member
    rw [contents] at listed
    obtain ⟨source, sourceMember, sameLiterals⟩ := List.mem_map.mp listed
    unfold Clause.Canonical
    rw [← sameLiterals]
    exact canonical source sourceMember
  refine ⟨contents, marks, ?_, ?_, ?_, ?_, ?_, ?_⟩
  · intro var
    rw [wellFormed.indexed]
    exact List.pairwise_lt_range.filter _
  · exact fun _ _ => wellFormed.mem_occurrences_iff
  · exact fun clause isCanonical => contains_iff known storedCanonical isCanonical
  · calc
      database.learned = (given.map Clause.learned).countP id := by
        rw [counted, List.countP_map, Function.id_comp]
      _ = database.clauses.toList.countP Clause.learned := by
        rw [← marks, List.countP_map, Function.id_comp]
  · exact wellFormed.assign_eq_map
  · exact wellFormed.retract_eq_map

/-- After any operations the indexes agree with the clauses that were given. -/
theorem indexes_exact {clauses : List Clause} (canonical : ∀ clause ∈ clauses, clause.Canonical)
    (numVars : Nat) (operations : List Operation) :
    ((ofClauses numVars clauses).applyAll operations).Exact
      (clauses ++ operations.filterMap Operation.stored?) := by
  refine exact_of_bare ?_ (bare_applyAll rfl operations)
  intro clause member
  rcases List.mem_append.mp member with isGiven | isStored
  · exact canonical clause isGiven
  · exact canonical_of_stored isStored

/-- Five and nine are beyond the declared variables, the first clause has both signs of one,
and the last two clauses have the same literals. -/
theorem indexes_exact_undeclared_vars :
    ((ofClauses 1 [.ofList [1, -1, 5], .ofList [-5, 9]]).applyAll
        [.assign (.decision 5 true), .learn (.learnedOfList [9, -5, 9]) (by decide)
          ((Trail.empty 1).push (.decision 5 true)), .retract 9, .reset]).Exact
      [.ofList [1, -1, 5], .ofList [-5, 9], .learnedOfList [9, -5, 9]] ∧
    (((ofClauses 1 [.ofList [1, -1, 5], .ofList [-5, 9]]).applyAll
        [.learn (.learnedOfList [9, -5, 9]) (by decide) (.empty 1)]).occurrences.of 5).toList =
      [0, 1, 2] := by
  have canonical : ∀ clause ∈ [Clause.ofList [1, -1, 5], .ofList [-5, 9]], clause.Canonical := by
    decide
  refine ⟨indexes_exact canonical 1 [.assign (.decision 5 true),
    .learn (.learnedOfList [9, -5, 9]) (by decide) ((Trail.empty 1).push (.decision 5 true)),
    .retract 9, .reset], by decide⟩

end Database

end CnfSolver

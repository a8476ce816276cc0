import CnfSolver.Clause
import Mathlib.Data.List.Nodup
import Mathlib.Data.List.TakeWhile

/-!
# Clause states as functions of a valuation

A valuation gives some of the variables a value. The state of a clause, that is
the values at its positions, the count of open positions and the satisfied flag,
is determined by a valuation: `Clause.under`. Entering and withdrawing an
assignment in a clause changes the valuation behind its state and nothing else.
This rests on the positions on one variable lying next to each other.
-/

namespace CnfSolver

/-! ## The canonical order -/

theorem precedes_trans {first second third : Int} (earlier : precedes first second = true)
    (later : precedes second third = true) : precedes first third = true := by
  simp only [precedes, Bool.or_eq_true, Bool.and_eq_true, decide_eq_true_eq, beq_iff_eq] at *
  omega

theorem precedes_of_not_precedes {first second : Int} (different : first ≠ second)
    (behind : ¬precedes first second = true) : precedes second first = true := by
  simp only [precedes, Bool.or_eq_true, Bool.and_eq_true, decide_eq_true_eq, beq_iff_eq] at *
  omega

theorem natAbs_le_of_precedes {first second : Int} (earlier : precedes first second = true) :
    first.natAbs ≤ second.natAbs := by
  simp only [precedes, Bool.or_eq_true, Bool.and_eq_true, decide_eq_true_eq, beq_iff_eq] at earlier
  omega

theorem pairwise_insertLiteral (literal : Int) {literals : List Int}
    (ordered : literals.Pairwise fun first second => precedes first second = true) :
    (insertLiteral literal literals).Pairwise
      fun first second => precedes first second = true := by
  induction literals with
  | nil => simp [insertLiteral]
  | cons head tail ih =>
    rw [List.pairwise_cons] at ordered
    unfold insertLiteral
    split
    next same => exact List.pairwise_cons.mpr ordered
    next different =>
      split
      next earlier =>
        refine List.pairwise_cons.mpr ⟨?_, List.pairwise_cons.mpr ordered⟩
        intro other member
        rcases List.mem_cons.mp member with equality | inTail
        · exact equality ▸ earlier
        · exact precedes_trans earlier (ordered.1 other inTail)
      next behind =>
        refine List.pairwise_cons.mpr ⟨?_, ih ordered.2⟩
        intro other member
        rcases mem_insertLiteral.mp member with equality | inTail
        · exact equality ▸ precedes_of_not_precedes different behind
        · exact ordered.1 other inTail

/-- A normalised list is strictly increasing in the canonical order. -/
theorem pairwise_normalise (literals : List Int) :
    (normalise literals).Pairwise fun first second => precedes first second = true := by
  induction literals with
  | nil => exact .nil
  | cons head tail ih => exact pairwise_insertLiteral head ih

theorem nodup_normalise (literals : List Int) : (normalise literals).Nodup := by
  apply (pairwise_normalise literals).imp
  rintro first second earlier rfl
  simp [precedes] at earlier

theorem insertLiteral_of_precedes {literal : Int} {literals : List Int}
    (leads : ∀ other ∈ literals, precedes literal other = true) :
    insertLiteral literal literals = literal :: literals := by
  cases literals with
  | nil => rfl
  | cons head tail =>
    have before := leads head List.mem_cons_self
    have different : literal ≠ head := by
      rintro rfl
      simp [precedes] at before
    rw [insertLiteral, if_neg different, if_pos before]

/-- A strictly increasing list is in canonical form. -/
theorem normalise_of_pairwise {literals : List Int}
    (ordered : literals.Pairwise fun first second => precedes first second = true) :
    normalise literals = literals := by
  induction literals with
  | nil => rfl
  | cons head tail ih =>
    obtain ⟨leads, tailOrdered⟩ := List.pairwise_cons.mp ordered
    have unfolded : normalise (head :: tail) = insertLiteral head (normalise tail) := rfl
    rw [unfolded, ih tailOrdered, insertLiteral_of_precedes leads]

/-! ## Valuations -/

/-- Values for some of the variables. -/
abbrev Valuation := Nat → Option Bool

namespace Valuation

/-- Give a variable a value, unless it has one. -/
def extend (values : Valuation) (literal : Literal) : Valuation := fun var =>
  if var = literal.var then (values var).or (some literal.value) else values var

/-- Take the value of a variable away. -/
def forget (values : Valuation) (removed : Nat) : Valuation := fun var =>
  if var = removed then none else values var

/-- The valuation without any value. -/
def blank : Valuation := fun _ => none

end Valuation

namespace Slot

/-- The position with the value that a valuation gives its variable. -/
def under (slot : Slot) (values : Valuation) : Slot := ⟨slot.literal, values slot.var⟩

@[simp]
theorem literal_under (slot : Slot) (values : Valuation) :
    (slot.under values).literal = slot.literal := rfl

@[simp]
theorem var_under (slot : Slot) (values : Valuation) : (slot.under values).var = slot.var := rfl

theorem fill_under (slot : Slot) (values : Valuation) (literal : Literal) :
    (if (slot.under values).var = literal.var then (slot.under values).fill literal.value
      else slot.under values) = slot.under (values.extend literal) := by
  rw [var_under]
  unfold under Valuation.extend
  split
  next same => cases found : values slot.var <;> simp [fill]
  next different => rfl

theorem isOpen_extend (slot : Slot) (values : Valuation) (literal : Literal) :
    (slot.under (values.extend literal)).isOpen =
      ((slot.under values).isOpen && !(slot.var == literal.var)) := by
  unfold isOpen under Valuation.extend
  by_cases same : slot.var = literal.var <;> simp [same]

theorem isTrue_extend (slot : Slot) (values : Valuation) (literal : Literal) :
    (slot.under (values.extend literal)).isTrue =
      ((slot.under values).isTrue || ((slot.under values).isOpen && slot.var == literal.var &&
        polarity slot.literal == literal.value)) := by
  unfold isTrue isOpen under Valuation.extend
  by_cases same : slot.var = literal.var
  · cases found : values slot.var <;> simp [same, Bool.beq_comm]
  · simp [same]

theorem clear_under (slot : Slot) (values : Valuation) (removed : Nat) :
    (if (slot.under values).var = removed then (slot.under values).clear
      else slot.under values) = slot.under (values.forget removed) := by
  rw [var_under]
  unfold under Valuation.forget
  split <;> rfl

theorem isOpen_forget (slot : Slot) (values : Valuation) (removed : Nat) :
    (slot.under (values.forget removed)).isOpen =
      ((slot.under values).isOpen || (!(slot.under values).isOpen && slot.var == removed)) := by
  unfold isOpen under Valuation.forget
  by_cases same : slot.var = removed
  · cases found : values slot.var <;> simp [same]
  · simp [same]

end Slot

namespace Clause

/-- The clause in the state that a valuation puts it in. -/
def under (clause : Clause) (values : Valuation) : Clause :=
  let slots := clause.slots.map fun slot => slot.under values
  { slots := slots
    satisfied := slots.any Slot.isTrue
    unassigned := slots.countP Slot.isOpen
    learned := clause.learned }

@[simp]
theorem literals_under (clause : Clause) (values : Valuation) :
    (clause.under values).literals = clause.literals := by
  simp [literals, under, Function.comp_def]

@[simp]
theorem learned_under (clause : Clause) (values : Valuation) :
    (clause.under values).learned = clause.learned := rfl

@[simp]
theorem under_under (clause : Clause) (first second : Valuation) :
    (clause.under first).under second = clause.under second := by
  simp [under, Function.comp_def, Slot.under, Slot.var]

theorem vars_eq (clause : Clause) : clause.vars = clause.literals.map Int.natAbs := by
  simp [vars, literals, Slot.var]

/-- The positions of the clause are in order of their variables. -/
def Ordered (clause : Clause) : Prop :=
  clause.literals.Pairwise fun first second => first.natAbs ≤ second.natAbs

theorem Ordered.of_literals_eq {first second : Clause} (ordered : first.Ordered)
    (same : second.literals = first.literals) : second.Ordered := by
  unfold Ordered at *
  rwa [same]

theorem ordered_of_literals_eq_normalise {clause : Clause} {literals : List Int}
    (normal : clause.literals = normalise literals) : clause.Ordered := by
  unfold Ordered
  rw [normal]
  exact (pairwise_normalise literals).imp natAbs_le_of_precedes

theorem ordered_ofList (literals : List Int) : (ofList literals).Ordered :=
  ordered_of_literals_eq_normalise (literals_ofList literals)

theorem ordered_learnedOfList (literals : List Int) : (learnedOfList literals).Ordered :=
  ordered_of_literals_eq_normalise (literals_ofList literals)

/-- The literals of the clause are in canonical form. -/
def Canonical (clause : Clause) : Prop := normalise clause.literals = clause.literals

instance (clause : Clause) : Decidable clause.Canonical :=
  inferInstanceAs (Decidable (normalise clause.literals = clause.literals))

theorem Canonical.pairwise {clause : Clause} (canonical : clause.Canonical) :
    clause.literals.Pairwise fun first second => precedes first second = true :=
  canonical ▸ pairwise_normalise clause.literals

theorem Canonical.ordered {clause : Clause} (canonical : clause.Canonical) : clause.Ordered :=
  ordered_of_literals_eq_normalise canonical.symm

theorem canonical_of_literals_eq_normalise {clause : Clause} {literals : List Int}
    (normal : clause.literals = normalise literals) : clause.Canonical := by
  unfold Canonical
  rw [normal]
  exact normalise_of_pairwise (pairwise_normalise literals)

theorem canonical_ofList (literals : List Int) : (ofList literals).Canonical :=
  canonical_of_literals_eq_normalise (literals_ofList literals)

theorem Ordered.pairwise_slots {clause : Clause} (ordered : clause.Ordered) :
    clause.slots.Pairwise fun first second => first.var ≤ second.var := by
  simpa [Ordered, literals, List.pairwise_map, Slot.var] using ordered

/-! ## The positions on one variable -/

theorem var_lt_of_mem_before {clause : Clause} {var : Nat} {slot : Slot}
    (member : slot ∈ (clause.cut var).before) : slot.var < var := by
  simpa using List.mem_takeWhile_imp member

theorem var_eq_of_mem_own {clause : Clause} {var : Nat} {slot : Slot}
    (member : slot ∈ (clause.cut var).own) : slot.var = var := by
  simpa using List.mem_takeWhile_imp member

/-- In a list where a predicate only ever turns from true to false, dropping the
leading elements that satisfy it drops all of them. -/
theorem eq_false_of_mem_dropWhile {Element : Type} {holds : Element → Bool}
    {elements : List Element} {element : Element}
    (falling : elements.Pairwise fun first second => holds second = true → holds first = true)
    (member : element ∈ elements.dropWhile holds) : holds element = false := by
  induction elements with
  | nil => simp at member
  | cons head tail ih =>
    rw [List.pairwise_cons] at falling
    rw [List.dropWhile_cons] at member
    split at member
    next headHolds => exact ih falling.2 member
    next headFails =>
      rcases List.mem_cons.mp member with equality | inTail
      · simpa [equality] using headFails
      · have tailFails : ¬holds element = true := fun passes =>
          headFails (falling.1 element inTail passes)
        simpa using tailFails

theorem Ordered.var_lt_of_mem_after {clause : Clause} (ordered : clause.Ordered) {var : Nat}
    {slot : Slot} (member : slot ∈ (clause.cut var).after) : var < slot.var := by
  have sorted := ordered.pairwise_slots
  have restSorted := sorted.sublist (List.dropWhile_sublist fun slot : Slot => slot.var < var)
  have reaches : ∀ other ∈ clause.slots.dropWhile fun slot => slot.var < var, var ≤ other.var := by
    intro other inRest
    have falling : clause.slots.Pairwise fun first second =>
        decide (second.var < var) = true → decide (first.var < var) = true :=
      sorted.imp fun {first second} le small => by
        simp only [decide_eq_true_eq] at *
        omega
    simpa using eq_false_of_mem_dropWhile falling inRest
  have falling : (clause.slots.dropWhile fun slot => slot.var < var).Pairwise
      fun first second => (second.var == var) = true → (first.var == var) = true := by
    apply restSorted.imp_of_mem
    intro first second firstIn _ le same
    have lower := reaches first firstIn
    simp only [beq_iff_eq] at same ⊢
    omega
  have differs := eq_false_of_mem_dropWhile falling member
  have lower := reaches slot ((List.dropWhile_sublist _).subset member)
  simp only [beq_eq_false_iff_ne] at differs
  omega

/-- Changing the positions that the cut singles out changes exactly the
positions on the variable. -/
theorem Ordered.map_own {clause : Clause} (ordered : clause.Ordered) (var : Nat)
    (change : Slot → Slot) :
    (clause.cut var).before ++ (clause.cut var).own.map change ++ (clause.cut var).after =
      clause.slots.map fun slot => if slot.var = var then change slot else slot := by
  have others : ∀ part : List Slot, (∀ slot ∈ part, slot.var ≠ var) →
      part.map (fun slot => if slot.var = var then change slot else slot) = part := by
    intro part apart
    exact (List.map_congr_left fun slot member => if_neg (apart slot member)).trans
      (List.map_id part)
  have own : (clause.cut var).own.map (fun slot => if slot.var = var then change slot else slot) =
      (clause.cut var).own.map change :=
    List.map_congr_left fun slot member => if_pos (var_eq_of_mem_own member)
  calc
    _ = ((clause.cut var).before ++ (clause.cut var).own ++ (clause.cut var).after).map
          fun slot => if slot.var = var then change slot else slot := by
        rw [List.map_append, List.map_append, own,
          others _ fun slot member => (var_lt_of_mem_before member).ne,
          others _ fun slot member => (ordered.var_lt_of_mem_after member).ne']
    _ = _ := by rw [clause.cut_append]

theorem Ordered.own_eq_filter {clause : Clause} (ordered : clause.Ordered) (var : Nat) :
    (clause.cut var).own = clause.slots.filter fun slot => slot.var == var := by
  have none : ∀ part : List Slot, (∀ slot ∈ part, slot.var ≠ var) →
      part.filter (fun slot => slot.var == var) = [] := by
    intro part apart
    exact List.filter_eq_nil_iff.mpr fun slot member => by simpa using apart slot member
  have all : (clause.cut var).own.filter (fun slot => slot.var == var) = (clause.cut var).own :=
    List.filter_eq_self.mpr fun slot member => by simpa using var_eq_of_mem_own member
  rw [← clause.cut_append var, List.filter_append, List.filter_append, all,
    none _ fun slot member => (var_lt_of_mem_before member).ne,
    none _ fun slot member => (ordered.var_lt_of_mem_after member).ne']
  simp

theorem Ordered.mentions_iff {clause : Clause} (ordered : clause.Ordered) (var : Nat) :
    clause.mentions var = true ↔ ∃ literal ∈ clause.literals, literal.natAbs = var := by
  simp [mentions, ordered.own_eq_filter, literals, List.filter_eq_nil_iff, Slot.var]

/-! ## Entering and withdrawing assignments -/

theorem Ordered.assign_eq {clause : Clause} (ordered : clause.Ordered) (literal : Literal) :
    clause.assign literal =
      { clause with
        slots := clause.slots.map fun slot =>
          if slot.var = literal.var then slot.fill literal.value else slot
        unassigned := clause.unassigned -
          clause.slots.countP fun slot => slot.isOpen && slot.var == literal.var
        satisfied := clause.satisfied || clause.slots.any fun slot =>
          slot.isOpen && slot.var == literal.var && polarity slot.literal == literal.value } := by
  unfold assign
  dsimp only
  rw [ordered.map_own, ordered.own_eq_filter, List.filter_filter, ← List.countP_eq_length_filter,
    List.any_filter]

theorem Ordered.retract_eq {clause : Clause} (ordered : clause.Ordered) (var : Nat)
    (present : clause.mentions var = true) :
    clause.retract var =
      { clause with
        slots := clause.slots.map fun slot => if slot.var = var then slot.clear else slot
        unassigned := clause.unassigned +
          clause.slots.countP fun slot => !slot.isOpen && slot.var == var
        satisfied := (clause.slots.map fun slot =>
          if slot.var = var then slot.clear else slot).any Slot.isTrue } := by
  have nonempty : ¬(clause.cut var).own.isEmpty = true := by simpa [mentions] using present
  unfold retract
  simp only [if_neg nonempty]
  rw [ordered.map_own, ordered.own_eq_filter, List.filter_filter, ← List.countP_eq_length_filter]

theorem own_eq_nil_of_not_mentions {clause : Clause} {var : Nat}
    (absent : clause.mentions var = false) : (clause.cut var).own = [] := by
  simpa [mentions] using absent

theorem assign_of_not_mentions {clause : Clause} {literal : Literal}
    (absent : clause.mentions literal.var = false) : clause.assign literal = clause := by
  have none := own_eq_nil_of_not_mentions absent
  have whole := clause.cut_append literal.var
  rw [none, List.append_nil] at whole
  simp [assign, none, whole]

theorem retract_of_not_mentions {clause : Clause} {var : Nat}
    (absent : clause.mentions var = false) : clause.retract var = clause := by
  simp [retract, own_eq_nil_of_not_mentions absent]

theorem ordered_under {clause : Clause} (ordered : clause.Ordered) (values : Valuation) :
    (clause.under values).Ordered :=
  ordered.of_literals_eq (literals_under clause values)

theorem countP_and_add_countP_and_not {Element : Type} (first second : Element → Bool)
    (elements : List Element) :
    (elements.countP fun element => first element && second element) +
        (elements.countP fun element => first element && !second element) =
      elements.countP first := by
  rw [List.countP_eq_countP_filter_add elements first second, List.countP_filter,
    List.countP_filter]

theorem countP_add_countP_not_and {Element : Type} (first second : Element → Bool)
    (elements : List Element) :
    elements.countP first + (elements.countP fun element => !first element && second element) =
      elements.countP fun element => first element || (!first element && second element) := by
  induction elements with
  | nil => rfl
  | cons head tail ih =>
    simp only [List.countP_cons]
    cases first head <;> cases second head <;> simp <;> omega

theorem any_or_any {Element : Type} (first second : Element → Bool) (elements : List Element) :
    (elements.any first || elements.any second) =
      elements.any fun element => first element || second element := by
  induction elements with
  | nil => rfl
  | cons head tail ih =>
    simp only [List.any_cons, ← ih]
    ac_rfl

/-- Assigning a clause extends the valuation behind its state. -/
theorem assign_under {clause : Clause} (ordered : clause.Ordered) (values : Valuation)
    (literal : Literal) :
    (clause.under values).assign literal = clause.under (values.extend literal) := by
  have counted := countP_and_add_countP_and_not (fun slot : Slot => (slot.under values).isOpen)
    (fun slot => slot.var == literal.var) clause.slots
  rw [(ordered_under ordered values).assign_eq]
  simp only [under, List.map_map, List.countP_map, List.any_map, Function.comp_def,
    Slot.isOpen_extend, Slot.isTrue_extend, Slot.var_under, Slot.literal_under]
  congr 1
  · exact List.map_congr_left fun slot _ => slot.fill_under values literal
  · exact any_or_any _ _ _
  · omega

/-- Retracting a variable in a clause takes it out of the valuation behind its
state. -/
theorem retract_under {clause : Clause} (ordered : clause.Ordered) (values : Valuation)
    (removed : Nat) :
    (clause.under values).retract removed = clause.under (values.forget removed) := by
  have cleared : (clause.under values).slots.map
      (fun slot => if slot.var = removed then slot.clear else slot) =
        clause.slots.map fun slot => slot.under (values.forget removed) := by
    simp only [under, List.map_map]
    exact List.map_congr_left fun slot _ => slot.clear_under values removed
  by_cases present : (clause.under values).mentions removed = true
  · have counted := countP_add_countP_not_and (fun slot : Slot => (slot.under values).isOpen)
      (fun slot => slot.var == removed) clause.slots
    rw [(ordered_under ordered values).retract_eq removed present, cleared]
    simp only [under, List.countP_map, Function.comp_def, Slot.isOpen_forget, Slot.var_under,
      counted]
  · have apart : ∀ slot ∈ clause.slots, slot.under (values.forget removed) = slot.under values := by
      intro slot member
      have different : slot.var ≠ removed := by
        intro same
        refine present (((ordered_under ordered values).mentions_iff removed).mpr ?_)
        rw [literals_under]
        exact ⟨slot.literal, List.mem_map_of_mem member, same⟩
      simp [Slot.under, Valuation.forget, different]
    rw [retract_of_not_mentions (by simpa using present)]
    simp only [under, List.map_congr_left apart]

/-- Resetting a clause withdraws every value. -/
theorem reset_eq_under (clause : Clause) : clause.reset = clause.under .blank := by
  simp [reset, under, Slot.under, Slot.clear, Slot.unset, Valuation.blank, Slot.isTrue,
    Slot.isOpen, Function.comp_def]

/-- A clause in order, with every position open. -/
structure Fresh (clause : Clause) : Prop where
  ordered : clause.Ordered
  blank : clause.under .blank = clause

theorem fresh_ofList (literals : List Int) : (ofList literals).Fresh where
  ordered := ordered_ofList literals
  blank := by
    simp [ofList, under, Slot.under, Slot.unset, Valuation.blank, Slot.isTrue, Slot.isOpen,
      Function.comp_def]

@[simp]
theorem learnedOfList_under_blank (literals : List Int) :
    (learnedOfList literals).under .blank = learnedOfList literals := by
  simp [learnedOfList, ofList, under, Slot.under, Slot.unset, Valuation.blank, Slot.isTrue,
    Slot.isOpen, Function.comp_def]

/-! ## What the cached state says -/

theorem satisfied_under {clause : Clause} {values : Valuation} :
    (clause.under values).satisfied = true ↔
      ∃ literal ∈ clause.literals, values literal.natAbs = some (polarity literal) := by
  simp [under, literals, Slot.isTrue, Slot.under, Slot.var]

theorem unassigned_under (clause : Clause) (values : Valuation) :
    (clause.under values).unassigned =
      clause.literals.countP fun literal => (values literal.natAbs).isNone := by
  simp [under, literals, Slot.isOpen, Slot.under, Slot.var, Function.comp_def]

theorem eq_some_not_of_ne {value : Option Bool} {sign : Bool} (assigned : value ≠ none)
    (differs : value ≠ some sign) : value = some (!sign) := by
  cases value with
  | none => exact absurd rfl assigned
  | some given => cases given <;> cases sign <;> simp_all

/-- Without an open position and without a true one, every literal is false. -/
theorem isFalsified_under {clause : Clause} {values : Valuation} :
    (clause.under values).isFalsified = true ↔
      ∀ literal ∈ clause.literals, values literal.natAbs = some (!polarity literal) := by
  have flag : (clause.under values).satisfied = false ↔
      ∀ literal ∈ clause.literals, values literal.natAbs ≠ some (polarity literal) := by
    simp [← Bool.not_eq_true, satisfied_under]
  simp only [isFalsified, Bool.and_eq_true, beq_iff_eq, Bool.not_eq_true', unassigned_under,
    List.countP_eq_zero, Option.isNone_iff_eq_none, flag]
  constructor
  · rintro ⟨assigned, differs⟩ literal member
    exact eq_some_not_of_ne (assigned literal member) (differs literal member)
  · intro isFalse
    exact ⟨fun literal member => by simp [isFalse literal member],
      fun literal member => by simp [isFalse literal member]⟩

/-- A clause forces a literal only at its last open position, and only while it is not
satisfied. -/
theorem exists_open_of_unit? {clause : Clause} {unit : Int} (found : clause.unit? = some unit) :
    ¬clause.satisfied = true ∧ clause.unassigned = 1 ∧
      ∃ slot ∈ clause.slots, slot.isOpen = true ∧ slot.literal = unit := by
  unfold unit? at found
  split at found
  next decided => cases found
  next undecided =>
    simp only [Bool.or_eq_true, bne_iff_ne, ne_eq, not_or, not_not] at undecided
    obtain ⟨slot, first, rfl⟩ := Option.map_eq_some_iff.mp found
    exact ⟨undecided.1, undecided.2, slot, List.mem_of_find?_eq_some first,
      List.find?_some first, rfl⟩

/-- The literal that a clause forces is open, and every other literal of the
clause is false. -/
theorem unit?_under {clause : Clause} {values : Valuation} {unit : Int}
    (found : (clause.under values).unit? = some unit) :
    unit ∈ clause.literals ∧ values unit.natAbs = none ∧
      ∀ literal ∈ clause.literals, literal ≠ unit →
        values literal.natAbs = some (!polarity literal) := by
  obtain ⟨unsatisfied, oneOpen, slot, slotMember, slotOpen, rfl⟩ := exists_open_of_unit? found
  rw [satisfied_under] at unsatisfied
  rw [unassigned_under] at oneOpen
  obtain ⟨source, member, rfl⟩ := List.mem_map.mp slotMember
  have unitMember : source.literal ∈ clause.literals := List.mem_map_of_mem member
  have unitOpen : values source.literal.natAbs = none := by
    simpa [Slot.isOpen, Slot.under, Slot.var] using slotOpen
  refine ⟨unitMember, unitOpen, ?_⟩
  intro literal literalMember different
  refine eq_some_not_of_ne ?_ fun holds => unsatisfied ⟨literal, literalMember, holds⟩
  intro literalOpen
  -- A second open literal would count twice.
  obtain ⟨only, single⟩ := List.length_eq_one_iff.mp
    (List.countP_eq_length_filter.symm.trans oneOpen)
  have unitIs : source.literal ∈ [only] := by
    rw [← single]
    exact List.mem_filter.mpr ⟨unitMember, by simp [unitOpen]⟩
  have literalIs : literal ∈ [only] := by
    rw [← single]
    exact List.mem_filter.mpr ⟨literalMember, by simp [literalOpen]⟩
  exact different ((List.mem_singleton.mp literalIs).trans (List.mem_singleton.mp unitIs).symm)

/-- An open literal is forced if every other literal of the clause is false. -/
theorem Canonical.unit?_under {clause : Clause} (canonical : clause.Canonical) {values : Valuation}
    {unit : Int} (member : unit ∈ clause.literals) (isOpen : values unit.natAbs = none)
    (othersFalse : ∀ literal ∈ clause.literals, literal ≠ unit →
      values literal.natAbs = some (!polarity literal)) :
    (clause.under values).unit? = some unit := by
  have onlyOpen : ∀ literal ∈ clause.literals, values literal.natAbs = none → literal = unit := by
    intro literal literalMember literalOpen
    by_contra different
    rw [othersFalse literal literalMember different] at literalOpen
    cases literalOpen
  have unsatisfied : (clause.under values).satisfied = false := by
    rw [Bool.eq_false_iff, Ne, satisfied_under]
    rintro ⟨literal, literalMember, isTrue⟩
    by_cases same : literal = unit
    · rw [same, isOpen] at isTrue
      cases isTrue
    · rw [othersFalse literal literalMember same] at isTrue
      simp at isTrue
  have single : (clause.under values).unassigned = 1 := by
    have nodup : clause.literals.Nodup := canonical ▸ nodup_normalise clause.literals
    rw [unassigned_under, ← List.count_eq_one_of_mem nodup member, List.count]
    apply List.countP_congr
    intro literal literalMember
    rw [Option.isNone_iff_eq_none, beq_iff_eq]
    refine ⟨onlyOpen literal literalMember, ?_⟩
    rintro rfl
    exact isOpen
  have found : ((clause.under values).slots.find? Slot.isOpen).isSome = true := by
    obtain ⟨slot, slotMember, rfl⟩ := List.mem_map.mp member
    rw [List.find?_isSome]
    refine ⟨slot.under values, List.mem_map_of_mem slotMember, ?_⟩
    exact Option.isNone_iff_eq_none.mpr isOpen
  obtain ⟨slot, first⟩ := Option.isSome_iff_exists.mp found
  have slotOpen := List.find?_some first
  obtain ⟨source, sourceMember, rfl⟩ := List.mem_map.mp (List.mem_of_find?_eq_some first)
  have isUnit : source.literal = unit :=
    onlyOpen source.literal (List.mem_map_of_mem sourceMember)
      (Option.isNone_iff_eq_none.mp slotOpen)
  rw [unit?, unsatisfied, single, first, ← isUnit]
  rfl

end Clause

end CnfSolver

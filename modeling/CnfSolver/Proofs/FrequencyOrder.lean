import CnfSolver.Formula
import CnfSolver.Search
import Mathlib.Data.List.Basic

/-!
# The order by frequency

The frequency table of a formula counts for every variable the clauses that
mention it. The order made from it holds every variable of the formula once, and
a variable stands before another if more clauses mention it, or equally many and
its number is smaller.
-/

namespace CnfSolver

/-- The number of clauses with a literal on the variable. -/
def clauseCount (clauses : List (List Int)) (var : Nat) : Nat :=
  clauses.countP fun clause => (clause.map Int.natAbs).contains var

theorem nodup_eraseDups {Element : Type} [BEq Element] [LawfulBEq Element]
    (elements : List Element) : elements.eraseDups.Nodup := by
  induction length : elements.length using Nat.strongRecOn generalizing elements with
  | ind size ih =>
    cases elements with
    | nil => simp
    | cons head tail =>
      rw [List.eraseDups_cons, List.nodup_cons]
      refine ⟨?_, ih _ ?_ _ rfl⟩
      · simp [List.mem_eraseDups]
      · have shorter := List.length_filter_le (fun other => !other == head) tail
        rw [List.length_cons] at length
        omega

namespace Formula

/-! ## The frequency table -/

theorem countVar_of_lt {table : Array Nat} {var : Nat} (inside : var < table.size) :
    countVar table var = .ok (table.modify var (· + 1)) := if_pos inside

theorem getD_modify {table : Array Nat} {var : Nat} (inside : var < table.size) (other : Nat) :
    ((table.modify var (· + 1))[other]?).getD 0 =
      (table[other]?).getD 0 + if other = var then 1 else 0 := by
  rw [Array.getElem?_modify]
  by_cases same : other = var
  · subst same
    simp [inside]
  · simp [same, Ne.symm same]

theorem foldlM_countVar {table : Array Nat} {vars : List Nat} (distinct : vars.Nodup)
    (inside : ∀ var ∈ vars, var < table.size) :
    ∃ counted, vars.foldlM countVar table = .ok counted ∧ counted.size = table.size ∧
      ∀ var, (counted[var]?).getD 0 = (table[var]?).getD 0 + if var ∈ vars then 1 else 0 := by
  induction vars generalizing table with
  | nil => exact ⟨table, rfl, rfl, by simp⟩
  | cons head tail ih =>
    obtain ⟨fresh, tailDistinct⟩ := List.nodup_cons.mp distinct
    obtain ⟨headInside, tailInside⟩ := List.forall_mem_cons.mp inside
    have stillInside : ∀ var ∈ tail, var < (table.modify head (· + 1)).size := by
      simpa using tailInside
    obtain ⟨counted, folded, size, counts⟩ := ih tailDistinct stillInside
    refine ⟨counted, ?_, by simpa using size, ?_⟩
    · rw [List.foldlM_cons, countVar_of_lt headInside]
      exact folded
    · intro var
      rw [counts, getD_modify headInside]
      by_cases isHead : var = head
      · subst isHead
        simp [fresh]
      · simp [isHead]

theorem countClause_ok {table : Array Nat} {clause : List Int}
    (inside : ∀ literal ∈ clause, literal.natAbs < table.size) :
    ∃ counted, countClause table clause = .ok counted ∧ counted.size = table.size ∧
      ∀ var, (counted[var]?).getD 0 =
        (table[var]?).getD 0 + if (clause.map Int.natAbs).contains var then 1 else 0 := by
  have varsInside : ∀ var ∈ (clause.map Int.natAbs).eraseDups, var < table.size := by
    intro var member
    obtain ⟨literal, isLiteral, rfl⟩ := List.mem_map.mp (List.mem_eraseDups.mp member)
    exact inside literal isLiteral
  obtain ⟨counted, folded, size, counts⟩ := foldlM_countVar (nodup_eraseDups _) varsInside
  refine ⟨counted, folded, size, ?_⟩
  simpa only [List.mem_eraseDups, List.contains_iff_mem] using counts

theorem foldlM_countClause {table : Array Nat} {clauses : List (List Int)}
    (inside : ∀ clause ∈ clauses, ∀ literal ∈ clause, literal.natAbs < table.size) :
    ∃ counted, clauses.foldlM countClause table = .ok counted ∧ counted.size = table.size ∧
      ∀ var, (counted[var]?).getD 0 = (table[var]?).getD 0 + clauseCount clauses var := by
  induction clauses generalizing table with
  | nil => exact ⟨table, rfl, rfl, by simp [clauseCount]⟩
  | cons head tail ih =>
    obtain ⟨headInside, tailInside⟩ := List.forall_mem_cons.mp inside
    obtain ⟨first, firstFolded, firstSize, firstCounts⟩ := countClause_ok headInside
    rw [← firstSize] at tailInside
    obtain ⟨counted, folded, size, counts⟩ := ih tailInside
    refine ⟨counted, ?_, size.trans firstSize, ?_⟩
    · rw [List.foldlM_cons, firstFolded]
      exact folded
    · intro var
      rw [counts, firstCounts, clauseCount, clauseCount, List.countP_cons]
      omega

theorem largestVar_le_iff {clauses : List (List Int)} {bound : Nat} :
    largestVar clauses ≤ bound ↔
      ∀ clause ∈ clauses, ∀ literal ∈ clause, literal.natAbs ≤ bound := by
  have members : (∀ var ∈ clauses.flatten.map Int.natAbs, var ≤ bound) ↔
      ∀ clause ∈ clauses, ∀ literal ∈ clause, literal.natAbs ≤ bound := by
    simp only [List.forall_mem_map, List.mem_flatten]
    grind
  rw [← members, largestVar]
  cases largest : (clauses.flatten.map Int.natAbs).max? with
  | none =>
    rw [List.max?_eq_none_iff] at largest
    simp [largest]
  | some most =>
    obtain ⟨attained, upper⟩ := List.max?_eq_some_iff.mp largest
    constructor
    · intro bounded var isVar
      exact Nat.le_trans (upper var isVar) bounded
    · intro all
      exact all most attained

/-- Every clause of the formula is over the variables up to `numVars`. -/
theorem natAbs_le_numVars (numVars : Nat) {clauses : List (List Int)} {clause : List Int}
    (member : clause ∈ clauses) {literal : Int} (isLiteral : literal ∈ clause) :
    literal.natAbs ≤ (ofClauses numVars clauses).numVars :=
  largestVar_le_iff.mp (Nat.le_max_right _ _) clause member literal isLiteral

/-- The table of a formula has an entry for each of its variables, the number of
clauses that mention it. -/
theorem frequencies_ofClauses (numVars : Nat) (clauses : List (List Int)) :
    ∃ table, (ofClauses numVars clauses).frequencies = .ok table ∧
      table.size = (ofClauses numVars clauses).numVars + 1 ∧
      ∀ var, (table[var]?).getD 0 = clauseCount clauses var := by
  have inside : ∀ clause ∈ clauses, ∀ literal ∈ clause, literal.natAbs <
      (Array.replicate ((ofClauses numVars clauses).numVars + 1) 0).size := by
    intro clause member literal isLiteral
    have bounded := natAbs_le_numVars numVars member isLiteral
    rw [Array.size_replicate]
    omega
  obtain ⟨table, folded, size, counts⟩ := foldlM_countClause inside
  refine ⟨table, folded, by simpa using size, ?_⟩
  intro var
  rw [counts, Array.getElem?_replicate]
  split <;> simp

end Formula

/-! ## The order -/

namespace BranchOrder

theorem before_trans {table : Array Nat} (first second third : Nat)
    (earlier : before table first second = true) (later : before table second third = true) :
    before table first third = true := by
  simp only [before, Bool.or_eq_true, Bool.and_eq_true, decide_eq_true_eq, beq_iff_eq] at *
  omega

theorem before_total {table : Array Nat} (first second : Nat) :
    (before table first second || before table second first) = true := by
  simp only [before, Bool.or_eq_true, Bool.and_eq_true, decide_eq_true_eq, beq_iff_eq]
  omega

theorem pairwise_ofFrequencies (table : Array Nat) :
    (ofFrequencies table).vars.Pairwise fun first second => before table first second = true :=
  List.pairwise_mergeSort before_trans before_total _

theorem mem_ofFrequencies {table : Array Nat} {var : Nat} :
    var ∈ (ofFrequencies table).vars ↔ 1 ≤ var ∧ var < table.size := by
  rw [ofFrequencies, List.mem_mergeSort, List.mem_range'_1]
  omega

end BranchOrder

end CnfSolver

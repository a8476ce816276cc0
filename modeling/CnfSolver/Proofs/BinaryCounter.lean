import CnfSolver.Enumeration
import CnfSolver.Semantics
import Mathlib.Algebra.Order.Ring.Nat
import Mathlib.Data.List.Basic

/-!
# Counting in binary

The bits of a counter stand for a number, and the number names an assignment, the
values of the variables being its bits. Carrying through the low ones adds one, and
there is nothing to carry into exactly at the greatest number of the width. So the
counter goes through all numbers of its width, each once and in order.
-/

namespace CnfSolver

/-- The assignment with the given number. -/
def Assignment.ofNumber (number : Nat) : Assignment := fun var => number.testBit (var - 1)

/-- The literal on each variable up to `numVars` that the assignment with the given
number makes true, in order of the variables. -/
def literalsOfNumber (numVars number : Nat) : List Int :=
  (List.range' 1 numVars).map fun var =>
    if Assignment.ofNumber number var then (var : Int) else -(var : Int)

namespace Counter

/-- The number that bits stand for, the lowest one first. -/
def numberOf : List Bool → Nat
  | [] => 0
  | bit :: rest => bit.toNat + 2 * numberOf rest

def number (counter : Counter) : Nat := numberOf counter.bits

def width (counter : Counter) : Nat := counter.bits.length

theorem numberOf_lt (bits : List Bool) : numberOf bits < 2 ^ bits.length := by
  induction bits with
  | nil => decide
  | cons bit rest ih =>
    have small := bit.toNat_le
    rw [numberOf, List.length_cons, Nat.pow_succ]
    omega

theorem number_lt (counter : Counter) : counter.number < 2 ^ counter.width :=
  numberOf_lt counter.bits

theorem testBit_numberOf (bits : List Bool) (place : Nat) :
    (numberOf bits).testBit place = (bits[place]?).getD false := by
  induction bits generalizing place with
  | nil => simp [numberOf]
  | cons bit rest ih =>
    cases place with
    | zero => cases bit <;> simp [numberOf, Nat.testBit_zero]
    | succ place =>
      have half : (bit.toNat + 2 * numberOf rest) / 2 = numberOf rest := by
        have small := bit.toNat_le
        omega
      rw [numberOf, Nat.testBit_add_one, half, ih, List.getElem?_cons_succ]

theorem ofNumber_number (counter : Counter) (place : Nat) :
    Assignment.ofNumber counter.number (place + 1) = (counter.bits[place]?).getD false :=
  testBit_numberOf counter.bits place

/-! ## One more -/

theorem numberOf_incrementBits? {bits next : List Bool}
    (incremented : incrementBits? bits = some next) :
    numberOf next = numberOf bits + 1 ∧ next.length = bits.length := by
  induction bits generalizing next with
  | nil => cases incremented
  | cons bit rest ih =>
    cases bit with
    | false =>
      cases incremented
      simp [numberOf, Nat.add_comm]
    | true =>
      obtain ⟨later, carried, rfl⟩ := Option.map_eq_some_iff.mp incremented
      obtain ⟨counted, sameLength⟩ := ih carried
      simp [numberOf, counted, sameLength]
      omega

theorem incrementBits?_eq_none_iff {bits : List Bool} :
    incrementBits? bits = none ↔ numberOf bits + 1 = 2 ^ bits.length := by
  induction bits with
  | nil => simp [incrementBits?, numberOf]
  | cons bit rest ih =>
    rw [numberOf, List.length_cons, Nat.pow_succ]
    cases bit with
    | false =>
      simp only [incrementBits?, reduceCtorEq, Bool.toNat_false, false_iff]
      omega
    | true =>
      simp only [incrementBits?, Option.map_eq_none_iff, ih, Bool.toNat_true]
      omega

theorem number_increment? {counter next : Counter} (incremented : counter.increment? = some next) :
    next.number = counter.number + 1 ∧ next.width = counter.width := by
  obtain ⟨bits, carried, rfl⟩ := Option.map_eq_some_iff.mp incremented
  exact numberOf_incrementBits? carried

/-- Only the greatest number of the width has no next one. -/
theorem increment?_eq_none_iff {counter : Counter} :
    counter.increment? = none ↔ counter.number + 1 = 2 ^ counter.width := by
  unfold increment?
  rw [Option.map_eq_none_iff]
  exact incrementBits?_eq_none_iff

theorem number_zero (width : Nat) : (zero width).number = 0 := by
  unfold number zero
  induction width with
  | zero => rfl
  | succ width ih =>
    dsimp only at ih ⊢
    rw [List.replicate_succ, numberOf, ih]
    rfl

theorem width_zero (width : Nat) : (zero width).width = width := List.length_replicate

/-! ## The assignment of a counter -/

theorem satisfies_iff {counter : Counter} {signed : Int} :
    counter.satisfies signed = true ↔
      signed ≠ 0 ∧ signed.natAbs ≤ counter.width ∧
        (Assignment.ofNumber counter.number).Holds signed := by
  unfold satisfies Assignment.Holds
  cases var : signed.natAbs with
  | zero => simp [Int.natAbs_eq_zero.mp var]
  | succ place =>
    have nonzero : signed ≠ 0 := by
      rintro rfl
      cases var
    rw [ofNumber_number]
    by_cases inside : place < counter.bits.length
    · have bound : place + 1 ≤ counter.width := inside
      simp [nonzero, inside, bound]
    · have beyond : ¬place + 1 ≤ counter.width := inside
      simp [inside, beyond]

theorem map_zipIdx_bits (counter : Counter) :
    ((counter.bits.zipIdx 1).map fun (value, var) => if value then (var : Int) else -(var : Int)) =
      literalsOfNumber counter.width counter.number := by
  apply List.ext_getElem?
  intro place
  rw [literalsOfNumber, List.getElem?_map, List.getElem?_map, List.getElem?_zipIdx]
  by_cases inside : place < counter.width
  · have value := counter.ofNumber_number place
    rw [List.getElem?_eq_getElem inside, Option.getD_some] at value
    rw [List.getElem?_eq_getElem inside, List.getElem?_range' inside]
    simp [Nat.add_comm 1 place, value]
  · have outside : counter.width ≤ place := Nat.not_lt.mp inside
    rw [List.getElem?_eq_none outside, List.getElem?_eq_none (by simpa using outside)]
    rfl

/-- The literals are in order already, so the model lists them as they are. -/
theorem toList_model (counter : Counter) :
    counter.model.toList = literalsOfNumber counter.width counter.number := by
  have sorted : (literalsOfNumber counter.width counter.number).Pairwise
      fun first second => decide (first.natAbs ≤ second.natAbs) = true := by
    have increasing : (List.range' 1 counter.width).Pairwise (· < ·) := List.pairwise_lt_range'
    unfold literalsOfNumber
    rw [List.pairwise_map]
    apply increasing.imp
    intro first second smaller
    split <;> split <;> simp <;> omega
  unfold model Model.ofList Model.toList
  rw [map_zipIdx_bits, List.mergeSort_of_pairwise sorted]

end Counter

end CnfSolver

import CnfSolver.Text
import Mathlib.Data.Nat.Init

/-!
# Numerals read back

Reading accepts a number only within its bounds, and reading the decimal form of a
number within the bounds gives the number again. The digits read so far never count
for more than all of them, so no place on the way leaves the bounds.
-/

namespace CnfSolver.Text

/-- The value lies within the bounds. -/
def Bounds.Admits (bounds : Bounds) (value : Int) : Prop :=
  bounds.least ≤ value ∧ value ≤ bounds.greatest

instance (bounds : Bounds) (value : Int) : Decidable (bounds.Admits value) :=
  inferInstanceAs (Decidable (_ ∧ _))

theorem Bounds.unsigned64_admits {value : Int} :
    Bounds.unsigned64.Admits value ↔ 0 ≤ value ∧ value < words64 := by
  show 0 ≤ value ∧ value ≤ (words64 : Int) - 1 ↔ _
  omega

/-! ## What is read lies within the bounds -/

theorem admits_of_readDigits {bounds : Bounds} {sign start value : Int} {digits : List Char}
    (starts : bounds.Admits start) (read : readDigits bounds sign start digits = .ok value) :
    bounds.Admits value := by
  fun_induction readDigits bounds sign start digits with
  | case1 start =>
    cases read
    exact starts
  | case2 => cases read
  | case3 => cases read
  | case4 start char rest isDigit next notAbove notBelow ih =>
    apply ih _ read
    unfold Bounds.Admits
    omega
  | case5 => cases read

theorem admits_of_readInteger {bounds : Bounds} (zero : bounds.Admits 0) {text : List Char}
    {value : Int} (read : readInteger bounds text = .ok value) : bounds.Admits value := by
  unfold readInteger at read
  split at read
  · cases read
  · cases read
  · cases read
  · exact admits_of_readDigits zero read
  · split at read
    next admitted => exact admits_of_readDigits zero read
    next refused => cases read
  · exact admits_of_readDigits zero read

theorem admits_of_readLiteral {text : List Char} {literal : Int}
    (read : readLiteral text = .ok literal) : Bounds.signed32.Admits literal :=
  admits_of_readInteger (by decide) read

theorem lt_of_readCount {text : List Char} {count : Nat} (read : readCount text = .ok count) :
    count < words64 := by
  unfold readCount at read
  cases result : readInteger .unsigned64 text with
  | error error =>
    rw [result] at read
    cases read
  | ok value =>
    rw [result] at read
    cases read
    have admitted := Bounds.unsigned64_admits.mp (admits_of_readInteger (by decide) result)
    omega

/-! ## Decimal forms -/

theorem le_ofDigitChars (digits : List Char) (start : Nat) :
    start ≤ Nat.ofDigitChars 10 digits start := by
  induction digits generalizing start with
  | nil => exact Nat.le_of_eq Nat.ofDigitChars_nil.symm
  | cons char rest ih =>
    rw [Nat.ofDigitChars_cons]
    exact Nat.le_trans (by omega) (ih _)

/-- Digits whose value lies within the bounds are read, with either sign. -/
theorem readDigits_eq_ok {bounds : Bounds} (zero : bounds.Admits 0) {sign : Int}
    (unit : sign = 1 ∨ sign = -1) {digits : List Char}
    (areDigits : ∀ char ∈ digits, char.isDigit = true) {start : Nat}
    (admitted : bounds.Admits (sign * Nat.ofDigitChars 10 digits start)) :
    readDigits bounds sign (sign * start) digits =
      .ok (sign * Nat.ofDigitChars 10 digits start) := by
  induction digits generalizing start with
  | nil => rw [readDigits, Nat.ofDigitChars_nil]
  | cons char rest ih =>
    obtain ⟨isDigit, areRest⟩ := List.forall_mem_cons.mp areDigits
    rw [Nat.ofDigitChars_cons] at admitted ⊢
    have next : sign * start * 10 + sign * digitValue char =
        sign * (10 * start + (char.toNat - '0'.toNat) : Nat) := by
      unfold digitValue
      grind
    -- The number so far lies between zero and the whole number.
    have bounded := le_ofDigitChars rest (10 * start + (char.toNat - '0'.toNat))
    have within : bounds.Admits (sign * (10 * start + (char.toNat - '0'.toNat) : Nat)) := by
      unfold Bounds.Admits at zero admitted ⊢
      rcases unit with rfl | rfl <;> omega
    unfold readDigits
    dsimp only
    rw [if_pos isDigit, next, if_neg (Int.not_lt.mpr within.2), if_neg (Int.not_lt.mpr within.1)]
    exact ih areRest admitted

/-- The decimal form of a number: its digits, none of them a sign. -/
theorem decimal_cases (number : Nat) :
    ∃ char rest, Nat.toDigits 10 number = char :: rest ∧ char ≠ '+' ∧ char ≠ '-' ∧
      ∀ other ∈ char :: rest, other.isDigit = true := by
  have nonempty : Nat.toDigits 10 number ≠ [] := Nat.toDigits_ne_nil
  obtain ⟨char, rest, parts⟩ := List.exists_cons_of_ne_nil nonempty
  have areDigits : ∀ other ∈ char :: rest, other.isDigit = true := by
    rw [← parts]
    exact fun _ member => Nat.isDigit_of_mem_toDigits (by decide) (by decide) member
  have isDigit := areDigits char List.mem_cons_self
  refine ⟨char, rest, parts, ?_, ?_, areDigits⟩
  · rintro rfl
    cases isDigit
  · rintro rfl
    cases isDigit

theorem readDigits_decimal {bounds : Bounds} (zero : bounds.Admits 0) {sign : Int}
    (unit : sign = 1 ∨ sign = -1) (number : Nat) (admitted : bounds.Admits (sign * number)) :
    readDigits bounds sign 0 (Nat.toDigits 10 number) = .ok (sign * number) := by
  obtain ⟨char, rest, parts, _, _, areDigits⟩ := decimal_cases number
  rw [← parts] at areDigits
  have value := Nat.ofDigitChars_ten_toDigits (n := number)
  rw [← value] at admitted
  have read := readDigits_eq_ok zero unit areDigits admitted
  rw [value] at read
  simpa using read

theorem readInteger_decimal {bounds : Bounds} (zero : bounds.Admits 0) {number : Nat}
    (admitted : bounds.Admits number) :
    readInteger bounds (Nat.toDigits 10 number) = .ok (number : Int) := by
  have read := readDigits_decimal zero (.inl rfl) number (by simpa using admitted)
  obtain ⟨char, rest, parts, notPlus, notMinus, _⟩ := decimal_cases number
  rw [Int.one_mul, parts] at read
  rw [parts]
  unfold readInteger
  split <;> simp_all

theorem readInteger_negative {bounds : Bounds} (zero : bounds.Admits 0) {number : Nat}
    (signed : bounds.least < 0) (admitted : bounds.Admits (-number)) :
    readInteger bounds ('-' :: Nat.toDigits 10 number) = .ok (-number : Int) := by
  have read := readDigits_decimal zero (.inr rfl) number (by simpa using admitted)
  obtain ⟨char, rest, parts, _, _, _⟩ := decimal_cases number
  rw [Int.neg_one_mul, parts] at read
  rw [parts]
  unfold readInteger
  split <;> simp_all

/-- A count is read back. -/
theorem readCount_decimal {number : Nat} (small : number < words64) :
    readCount (Nat.toDigits 10 number) = .ok number := by
  have admitted : Bounds.unsigned64.Admits number := by
    rw [Bounds.unsigned64_admits]
    omega
  unfold readCount
  rw [readInteger_decimal (by decide) admitted]
  rfl

/-- A literal as it is written. -/
def numeral (literal : Int) : List Char := (toString literal).toList

/-- The decimal form of a literal: that of its variable, after a minus sign if the
literal is negative. -/
theorem numeral_eq (literal : Int) :
    numeral literal =
      if literal < 0 then '-' :: Nat.toDigits 10 literal.natAbs
      else Nat.toDigits 10 literal.natAbs := by
  cases literal with
  | ofNat number => exact Nat.toList_repr
  | negSucc number =>
    have form : toString (Int.negSucc number) = "-" ++ (number + 1).repr := rfl
    rw [numeral, form, String.toList_append, Nat.toList_repr, if_pos (Int.negSucc_lt_zero number)]
    rfl

/-- A literal is read back. -/
theorem readLiteral_numeral {literal : Int} (admitted : Bounds.signed32.Admits literal) :
    readLiteral (numeral literal) = .ok literal := by
  rw [numeral_eq]
  split
  next negative =>
    have value : (-literal.natAbs : Int) = literal := by omega
    rw [← value] at admitted
    have read := readInteger_negative (by decide) (by decide) admitted
    rw [value] at read
    exact read
  next positive =>
    have value : (literal.natAbs : Int) = literal := by omega
    rw [← value] at admitted
    have read := readInteger_decimal (by decide) admitted
    rw [value] at read
    exact read

end CnfSolver.Text

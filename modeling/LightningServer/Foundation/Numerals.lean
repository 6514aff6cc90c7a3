import Mathlib.Data.List.TakeWhile
import Mathlib.Algebra.Order.Group.Int
import Mathlib.Algebra.Order.Ring.Nat

/-!
# Decimal text and the bounded conversions of the C++ library

`decimal` is `std::to_string`.  `stoul` and `stoi` are the throwing
conversions: leading blanks, an optional sign, the longest run of decimal
digits, anything after it ignored.  Both are for a 64-bit `long`.
-/

namespace LightningServer.Foundation.Numerals

/-! ## Exceptions -/

/-- The exceptions of the standard library and of code that uses it. -/
inductive StdException where
  /-- `std::invalid_argument`, also of a failed numeric conversion -/
  | invalidArgument
  /-- `std::out_of_range`, also of a numeric conversion that overflows -/
  | outOfRange
  /-- anything else, with its `what()` -/
  | other (what : List Char)
deriving DecidableEq

/-! ## Rendering -/

/-- `std::to_string` of an unsigned number. -/
def decimalNat (number : Nat) : List Char :=
  Nat.toDigits 10 number

/-- `std::to_string` of a signed number. -/
def decimal (number : Int) : List Char :=
  if number < 0 then '-' :: decimalNat number.natAbs
  else decimalNat number.natAbs

theorem decimalNat_isDigit (number : Nat) :
    ∀ symbol ∈ decimalNat number, symbol.isDigit = true :=
  fun _ member => Nat.isDigit_of_mem_toDigits (by decide) (by decide) member

theorem decimalNat_nonempty (number : Nat) :
    decimalNat number ≠ [] :=
  Nat.toDigits_ne_nil

theorem ofDigitChars_decimalNat (number : Nat) :
    Nat.ofDigitChars 10 (decimalNat number) 0 = number :=
  Nat.ofDigitChars_toDigits (by decide) (by decide)

theorem decimalNat_injective : Function.Injective decimalNat := by
  intro left right equal
  rw [← ofDigitChars_decimalNat left, equal, ofDigitChars_decimalNat]

theorem minus_notMem_decimalNat (number : Nat) :
    '-' ∉ decimalNat number := by
  intro member
  exact absurd (decimalNat_isDigit number '-' member) (by decide)

theorem decimalNat_ne_minus (number : Nat) (rest : List Char) :
    decimalNat number ≠ '-' :: rest := by
  intro equal
  exact minus_notMem_decimalNat number (by simp [equal])

theorem decimal_injective : Function.Injective decimal := by
  intro left right equal
  have magnitude :
      left.natAbs = right.natAbs ∧ (left < 0 ↔ right < 0) := by
    unfold decimal at equal
    by_cases leftNegative : left < 0 <;> by_cases rightNegative : right < 0
    · simp only [leftNegative, rightNegative, if_true,
        List.cons.injEq, true_and] at equal
      exact ⟨decimalNat_injective equal, by simp [leftNegative, rightNegative]⟩
    · simp only [leftNegative, rightNegative, if_true, if_false] at equal
      exact absurd equal.symm (decimalNat_ne_minus _ _)
    · simp only [leftNegative, rightNegative, if_true, if_false] at equal
      exact absurd equal (decimalNat_ne_minus _ _)
    · simp only [leftNegative, rightNegative, if_false] at equal
      exact ⟨decimalNat_injective equal, by simp [leftNegative, rightNegative]⟩
  omega

/-! ## Conversions between number types -/

/-- `static_cast<int>` of a 64-bit number. -/
def toInt32 (number : Int) : Int :=
  (number + 2 ^ 31) % 2 ^ 32 - 2 ^ 31

/-- The nearest natural number with a 53-bit mantissa, ties to even. -/
def roundMantissa (number : Nat) : Nat :=
  let unit := 2 ^ (Nat.log2 number + 1 - 53)
  let quotient := number / unit
  let rest := number % unit
  if 2 * rest < unit ∨ (2 * rest = unit ∧ quotient % 2 = 0) then
    quotient * unit
  else (quotient + 1) * unit

/-- A 64-bit number converted to `double`; the result is an integer. -/
def toDouble (number : Int) : Int :=
  if number < 0 then -roundMantissa number.natAbs
  else roundMantissa number.natAbs

/-- A number below 2^53 is a `double`. -/
theorem toDouble_of_lt
    {number : Int} (low : 0 ≤ number) (high : number < 2 ^ 53) :
    toDouble number = number := by
  have small : number.natAbs < 2 ^ 53 := by omega
  have digits : Nat.log2 number.natAbs + 1 - 53 = 0 := by
    by_cases zero : number.natAbs = 0
    · rw [zero]
      decide
    · have log := (Nat.log2_lt zero).mpr small
      omega
  have unrounded : roundMantissa number.natAbs = number.natAbs := by
    simp [roundMantissa, digits, Nat.mod_one]
  rw [toDouble, if_neg (Int.not_lt.mpr low), unrounded]
  omega

/-! ## Reading -/

/-- `isspace` in the "C" locale. -/
def isSpace (symbol : Char) : Bool :=
  symbol = ' ' || (9 ≤ symbol.toNat && symbol.toNat ≤ 13)

/-- The sign (true for minus) and the digits that a conversion reads. -/
def readSigned (text : List Char) : Bool × List Char :=
  match text.dropWhile isSpace with
  | '-' :: rest => (true, rest.takeWhile Char.isDigit)
  | '+' :: rest => (false, rest.takeWhile Char.isDigit)
  | digits => (false, digits.takeWhile Char.isDigit)

/-- `std::stoul`: a minus sign negates modulo 2^64. -/
def stoul (text : List Char) : Except StdException Nat :=
  let (negative, digits) := readSigned text
  let magnitude := Nat.ofDigitChars 10 digits 0
  if digits = [] then .error .invalidArgument
  else if 2 ^ 64 ≤ magnitude then .error .outOfRange
  else .ok (if negative then (2 ^ 64 - magnitude) % 2 ^ 64 else magnitude)

/-- The range of a 32-bit `int`. -/
def IsInt (number : Int) : Prop :=
  -2 ^ 31 ≤ number ∧ number < 2 ^ 31

instance (number : Int) : Decidable (IsInt number) :=
  inferInstanceAs (Decidable (_ ∧ _))

/-- `std::stoi`. -/
def stoi (text : List Char) : Except StdException Int :=
  let (negative, digits) := readSigned text
  let magnitude : Int := Nat.ofDigitChars 10 digits 0
  let number := if negative then -magnitude else magnitude
  if digits = [] then .error .invalidArgument
  else if IsInt number then .ok number
  else .error .outOfRange

/-- A number that is an `int` is unchanged by the cast to `int`. -/
theorem toInt32_of_isInt {number : Int} (fits : IsInt number) :
    toInt32 number = number := by
  rcases fits with ⟨low, high⟩
  rw [toInt32]
  omega

/-- Redis's own conversion: exactly the decimal text of a 64-bit number. -/
def strictInteger (text : List Char) : Option Int :=
  let (negative, digits) := readSigned text
  let magnitude : Int := Nat.ofDigitChars 10 digits 0
  let number := if negative then -magnitude else magnitude
  if decimal number = text ∧ -2 ^ 63 ≤ number ∧ number < 2 ^ 63 then
    some number
  else none

theorem isSpace_of_isDigit {symbol : Char}
    (digit : symbol.isDigit = true) :
    isSpace symbol = false := by
  simp only [Char.isDigit, Bool.and_eq_true, decide_eq_true_eq] at digit
  have low : 48 ≤ symbol.toNat := digit.1
  have notBlank : symbol ≠ ' ' := by
    rintro rfl
    exact absurd low (by decide)
  simp only [isSpace, notBlank, decide_false, Bool.false_or,
    Bool.and_eq_false_iff, decide_eq_false_iff_not]
  right
  omega

theorem readSigned_digits
    {digits : List Char}
    (nonempty : digits ≠ [])
    (clean : ∀ symbol ∈ digits, symbol.isDigit = true) :
    readSigned digits = (false, digits) := by
  obtain ⟨first, rest, rfl⟩ := List.exists_cons_of_ne_nil nonempty
  have firstDigit := clean first (by simp)
  have taken : (first :: rest).takeWhile Char.isDigit = first :: rest :=
    List.takeWhile_eq_self_iff.mpr clean
  have notMinus : first ≠ '-' := by
    rintro rfl
    exact absurd firstDigit (by decide)
  have notPlus : first ≠ '+' := by
    rintro rfl
    exact absurd firstDigit (by decide)
  rw [readSigned, List.dropWhile_cons_of_neg
    (by simp [isSpace_of_isDigit firstDigit])]
  split
  · next equal => exact absurd (List.cons.inj equal).1 notMinus
  · next equal => exact absurd (List.cons.inj equal).1 notPlus
  · rw [taken]

@[simp]
theorem readSigned_decimalNat (number : Nat) :
    readSigned (decimalNat number) = (false, decimalNat number) :=
  readSigned_digits (decimalNat_nonempty number) (decimalNat_isDigit number)

theorem readSigned_minus (number : Nat) :
    readSigned ('-' :: decimalNat number) = (true, decimalNat number) := by
  have notBlank : isSpace '-' = false := by decide
  simp [readSigned, notBlank,
    List.takeWhile_eq_self_iff.mpr (decimalNat_isDigit number)]

/-- Digits alone are read as the number that they name, if it fits. -/
theorem stoul_digits
    {digits : List Char} (nonempty : digits ≠ [])
    (clean : ∀ symbol ∈ digits, symbol.isDigit = true)
    (fits : Nat.ofDigitChars 10 digits 0 < 2 ^ 64) :
    stoul digits = .ok (Nat.ofDigitChars 10 digits 0) := by
  simp only [stoul, readSigned_digits nonempty clean, nonempty, if_false,
    Nat.not_le.mpr fits, Bool.false_eq_true]

/-- An unsigned number that fits is read back from its decimal text. -/
theorem stoul_decimalNat {number : Nat} (fits : number < 2 ^ 64) :
    stoul (decimalNat number) = .ok number := by
  have value := ofDigitChars_decimalNat number
  have read :=
    stoul_digits (decimalNat_nonempty number) (decimalNat_isDigit number)
      (value.trans_lt fits)
  rw [read, value]

/-- The sign and magnitude of a decimal text give its number. -/
theorem readSigned_decimal (number : Int) :
    (readSigned (decimal number)).2 ≠ [] ∧
      (if (readSigned (decimal number)).1 then
          -(Nat.ofDigitChars 10 (readSigned (decimal number)).2 0 : Int)
        else Nat.ofDigitChars 10 (readSigned (decimal number)).2 0) =
        number := by
  by_cases negative : number < 0
  · have value : -(number.natAbs : Int) = number := by omega
    simp only [decimal, negative, if_true, readSigned_minus,
      ofDigitChars_decimalNat, value]
    exact ⟨decimalNat_nonempty _, trivial⟩
  · have value : (number.natAbs : Int) = number := by omega
    simp only [decimal, negative, if_false, readSigned_decimalNat,
      ofDigitChars_decimalNat, value, Bool.false_eq_true]
    exact ⟨decimalNat_nonempty _, trivial⟩

/-- An `int` is read back from its decimal text; a wider number throws. -/
theorem stoi_decimal (number : Int) :
    stoi (decimal number) =
      if IsInt number then .ok number else .error .outOfRange := by
  rcases readSigned_decimal number with ⟨digits, value⟩
  simp only [stoi, digits, value, if_false]

/-- What `stoi` returns is an `int`. -/
theorem isInt_of_stoi
    {text : List Char} {number : Int} (read : stoi text = .ok number) :
    IsInt number := by
  simp only [stoi] at read
  generalize
    (if (readSigned text).1 = true then
      -(Nat.ofDigitChars 10 (readSigned text).2 0 : Int)
    else Nat.ofDigitChars 10 (readSigned text).2 0) = value at read
  split at read
  · cases read
  by_cases fits : IsInt value
  · rw [if_pos fits] at read
    cases read
    exact fits
  · rw [if_neg fits] at read
    cases read

theorem strictInteger_decimal
    {number : Int} (low : -2 ^ 63 ≤ number) (high : number < 2 ^ 63) :
    strictInteger (decimal number) = some number := by
  rcases readSigned_decimal number with ⟨digits, value⟩
  simp only [strictInteger, value]
  rw [if_pos ⟨trivial, low, high⟩]

end LightningServer.Foundation.Numerals

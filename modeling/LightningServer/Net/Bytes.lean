import LightningServer.Foundation.Numerals
import LightningServer.Foundation.Framing

/-!
# Byte strings of the network layer

A `std::string` that comes from or goes to a socket is a list of bytes.  The
character classes are those of the "C" locale, the only one the program runs
in.
-/

namespace LightningServer.Net

open LightningServer.Foundation

/-- The contents of a `std::string` or of a range of `char`. -/
abbrev Bytes := List UInt8

/-- The bytes of an ASCII literal or of a number's decimal text. -/
def ofChars (text : List Char) : Bytes :=
  text.map fun symbol => UInt8.ofNat symbol.toNat

/-- The bytes of an ASCII string literal. -/
def ascii (literal : String) : Bytes :=
  ofChars literal.toList

/-- Each byte as the character with its code, for the numeric conversions. -/
def chars (data : Bytes) : List Char :=
  data.map fun byte => Char.ofNat byte.toNat

/-- `std::to_string(n)` as bytes. -/
def decimalBytes (number : Nat) : Bytes :=
  ofChars (Numerals.decimalNat number)

def space : UInt8 := 32
def colon : UInt8 := 58
def carriageReturn : UInt8 := 13
def lineFeed : UInt8 := 10

/-- `isspace`. -/
def isspace (byte : UInt8) : Bool :=
  byte = 32 || (9 ≤ byte && byte ≤ 13)

/-- A decimal digit. -/
def isdigit (byte : UInt8) : Bool :=
  48 ≤ byte && byte ≤ 57

/--
`::tolower`.  Bytes from 128 on reach it as negative `int` values, which the
C library maps to themselves.
-/
def tolower (byte : UInt8) : UInt8 :=
  if 65 ≤ byte && byte ≤ 90 then byte + 32 else byte

/-- A property of every byte of a literal, by evaluation. -/
theorem forall_of_all
    {property : UInt8 → Prop} [DecidablePred property] {data : Bytes}
    (holds : data.all (fun byte => decide (property byte)) = true) :
    ∀ byte ∈ data, property byte := by
  intro byte member
  exact of_decide_eq_true (List.all_eq_true.mp holds byte member)

theorem toNat_ofNat_of_isDigit {symbol : Char}
    (digit : symbol.isDigit = true) :
    (UInt8.ofNat symbol.toNat).toNat = symbol.toNat := by
  simp only [Char.isDigit, Bool.and_eq_true, decide_eq_true_eq] at digit
  have high : symbol.toNat ≤ 57 := digit.2
  rw [UInt8.toNat_ofNat', Nat.mod_eq_of_lt]
  omega

/-- The bytes of digits are the characters of digits. -/
theorem isDigit_chars
    {digits : Bytes} (clean : ∀ byte ∈ digits, isdigit byte = true) :
    ∀ symbol ∈ chars digits, symbol.isDigit = true := by
  intro symbol member
  rcases List.mem_map.mp member with ⟨byte, inDigits, rfl⟩
  have range := clean byte inDigits
  simp only [isdigit, Bool.and_eq_true, decide_eq_true_eq] at range
  have low : 48 ≤ byte.toNat := UInt8.le_iff_toNat_le.mp range.1
  have high : byte.toNat ≤ 57 := UInt8.le_iff_toNat_le.mp range.2
  have valid : byte.toNat.isValidChar := Or.inl (by omega)
  have code : (Char.ofNat byte.toNat).toNat = byte.toNat := by
    rw [Char.ofNat, dif_pos valid]
    rfl
  simp only [Char.isDigit, Bool.and_eq_true, decide_eq_true_eq]
  constructor
  · exact UInt32.le_iff_toNat_le.mpr (low.trans_eq code.symm)
  · exact UInt32.le_iff_toNat_le.mpr (code.trans_le high)

/-- Decimal text survives the passage through bytes. -/
theorem chars_ofChars_of_isDigit
    {digits : List Char}
    (clean : ∀ symbol ∈ digits, symbol.isDigit = true) :
    chars (ofChars digits) = digits := by
  induction digits with
  | nil => rfl
  | cons symbol rest induction =>
      have head : Char.ofNat (UInt8.ofNat symbol.toNat).toNat = symbol := by
        rw [toNat_ofNat_of_isDigit (clean symbol (by simp)),
          Char.ofNat_toNat]
      have tail := induction fun other member =>
        clean other (List.mem_cons_of_mem symbol member)
      simp only [chars, ofChars, List.map_cons, List.map_map] at tail ⊢
      rw [head, tail]

@[simp]
theorem chars_decimalBytes (number : Nat) :
    chars (decimalBytes number) = Numerals.decimalNat number :=
  chars_ofChars_of_isDigit (Numerals.decimalNat_isDigit number)

theorem decimalBytes_range (number : Nat) :
    ∀ byte ∈ decimalBytes number, 48 ≤ byte.toNat ∧ byte.toNat ≤ 57 := by
  intro byte member
  obtain ⟨symbol, isDigit, rfl⟩ := List.mem_map.mp member
  have digit := Numerals.decimalNat_isDigit number symbol isDigit
  rw [toNat_ofNat_of_isDigit digit]
  simp only [Char.isDigit, Bool.and_eq_true, decide_eq_true_eq] at digit
  exact digit

theorem isdigit_decimalBytes (number : Nat) :
    ∀ byte ∈ decimalBytes number, isdigit byte = true := by
  intro byte member
  have range := decimalBytes_range number byte member
  rw [isdigit, Bool.and_eq_true, decide_eq_true_eq, decide_eq_true_eq,
    UInt8.le_iff_toNat_le, UInt8.le_iff_toNat_le]
  exact range

theorem decimalBytes_ne_nil (number : Nat) : decimalBytes number ≠ [] := by
  intro empty
  have none := chars_decimalBytes number
  rw [empty] at none
  exact Numerals.decimalNat_nonempty number none.symm

end LightningServer.Net

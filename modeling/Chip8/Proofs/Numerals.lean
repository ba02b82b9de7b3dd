import Chip8.Text.Decimal
import Chip8.Text.Hexadecimal
import Mathlib

/-!
# Numbers read back from their digits

The text of a number, in base sixteen or ten, is put together from its digits alone and gives the
number back, however many zeros stand in front. A number below a power of sixteen has exactly as
many digits as the power once it is filled up to that width; these are its `Hexadecimal.lastDigits`.
-/

namespace Chip8

namespace Hexadecimal

/-- The sixteen digits in order. -/
def numerals : List Char :=
  ['0', '1', '2', '3', '4', '5', '6', '7', '8', '9', 'A', 'B', 'C', 'D', 'E', 'F']

/-- The digit of a number below sixteen. -/
def digit (number : Nat) : Char := numerals.getD number '0'

/-- The number that a digit stands for. -/
def digitValue (char : Char) : Nat := numerals.idxOf char

/-- The number that digits write, most significant first. -/
def value (text : List Char) : Nat :=
  text.foldl (fun number char => 16 * number + digitValue char) 0

/-- The byte that digits write. -/
def byteValue (text : List Char) : UInt8 := UInt8.ofNat (value text)

/-- The word that digits write. -/
def wordValue (text : List Char) : UInt16 := UInt16.ofNat (value text)

/-- The last digits of a number, as many as asked for. -/
def lastDigits : Nat → Nat → List Char
  | 0, _ => []
  | width + 1, number => lastDigits width (number / 16) ++ [digit (number % 16)]

variable {number : Nat} {char : Char}

theorem digit_mem (number : Nat) : digit number ∈ numerals := by
  by_cases below : number < numerals.length
  · rw [digit, List.getD_eq_getElem _ _ below]
    exact List.getElem_mem below
  · rw [digit, List.getD_eq_default _ _ (by omega)]
    decide

theorem digitValue_digit (below : number < 16) : digitValue (digit number) = number := by
  interval_cases number <;> rfl

theorem toUpper_digitChar (below : number < 16) :
    (Nat.digitChar number).toUpper = digit number := by
  interval_cases number <;> rfl

@[simp]
theorem value_append_singleton (text : List Char) (char : Char) :
    value (text ++ [char]) = 16 * value text + digitValue char := by
  simp [value]

/-- The last digit of a number comes off the end of its text. -/
theorem digits_eq (number : Nat) :
    digits number =
      (if number < 16 then [] else digits (number / 16)) ++ [digit (number % 16)] := by
  rw [digits, Nat.toDigits_eq_if (by decide)]
  split
  · rename_i below
    rw [Nat.mod_eq_of_lt below, ← toUpper_digitChar below]
    rfl
  · rw [List.map_append, List.map_singleton, toUpper_digitChar (Nat.mod_lt number (by decide))]
    rfl

theorem value_digits (number : Nat) : value (digits number) = number := by
  induction number using Nat.strong_induction_on with
  | _ number ih =>
      have last := digitValue_digit (Nat.mod_lt number (by decide : 0 < 16))
      rw [digits_eq, value_append_singleton, last]
      split
      · rename_i below
        simp [value, Nat.mod_eq_of_lt below]
      · rw [ih (number / 16) (by omega)]
        omega

theorem mem_numerals_of_mem_digits (mem : char ∈ digits number) : char ∈ numerals := by
  induction number using Nat.strong_induction_on with
  | _ number ih =>
      rw [digits_eq, List.mem_append, List.mem_singleton] at mem
      rcases mem with front | rfl
      · split at front
        · cases front
        · exact ih (number / 16) (by omega) front
      · exact digit_mem _

@[simp]
theorem digits_ne_nil (number : Nat) : digits number ≠ [] := by
  rw [digits_eq]
  simp

theorem toList_padded (width number : Nat) :
    (padded width number).toList =
      List.replicate (width - (digits number).length) '0' ++ digits number := by
  simp [padded, List.leftpad]

@[simp]
theorem padded_ne_empty (width number : Nat) : padded width number ≠ "" := by
  rw [← String.toList_inj.ne, toList_padded]
  simp

@[simp]
theorem byte_ne_empty (value : UInt8) : byte value ≠ "" := padded_ne_empty 2 value.toNat

theorem mem_numerals_of_mem_padded {width : Nat} (mem : char ∈ (padded width number).toList) :
    char ∈ numerals := by
  rw [toList_padded, List.mem_append] at mem
  rcases mem with zero | own
  · rw [List.eq_of_mem_replicate zero]
    decide
  · exact mem_numerals_of_mem_digits own

theorem not_mem_padded {width : Nat} (foreign : char ∉ numerals) :
    char ∉ (padded width number).toList := by
  intro mem
  exact foreign (mem_numerals_of_mem_padded mem)

theorem toList_padded_ne {width : Nat} {text : List Char} (mem : char ∈ text)
    (foreign : char ∉ numerals) : (padded width number).toList ≠ text := by
  rintro rfl
  exact not_mem_padded foreign mem

theorem value_padded (width number : Nat) : value (padded width number).toList = number := by
  have zeros : ∀ count, value (List.replicate count '0') = 0 := by
    intro count
    induction count with
    | zero => rfl
    | succ count ih =>
        rw [List.replicate_succ', value_append_singleton, ih]
        rfl
  rw [toList_padded, value, List.foldl_append, ← value, zeros]
  exact value_digits number

@[simp]
theorem byteValue_padded (width : Nat) (byte : UInt8) :
    byteValue (padded width byte.toNat).toList = byte := by
  rw [byteValue, value_padded, UInt8.ofNat_toNat]

@[simp]
theorem byteValue_byte (value : UInt8) : byteValue (byte value).toList = value :=
  byteValue_padded 2 value

@[simp]
theorem wordValue_padded (width : Nat) (word : UInt16) :
    wordValue (padded width word.toNat).toList = word := by
  rw [wordValue, value_padded, UInt16.ofNat_toNat]

@[simp]
theorem padded_inj {width other : Nat} :
    padded width number = padded width other ↔ number = other := by
  constructor
  · intro same
    rw [← value_padded width number, same, value_padded]
  · rintro rfl
    rfl

@[simp]
theorem byte_inj {first second : UInt8} : byte first = byte second ↔ first = second := by
  rw [byte, byte, padded_inj, UInt8.toNat_inj]

/-- A number that fits a width has exactly that many digits in it. -/
theorem toList_padded_eq_lastDigits {width : Nat} (fits : number < 16 ^ (width + 1)) :
    (padded (width + 1) number).toList = lastDigits (width + 1) number := by
  have zeros : ∀ count, List.replicate count '0' = lastDigits count 0 := by
    intro count
    induction count with
    | zero => rfl
    | succ count ih =>
        rw [List.replicate_succ', ih]
        rfl
  induction width generalizing number with
  | zero =>
      have below : number < 16 := by simpa using fits
      rw [toList_padded, digits_eq, if_pos below]
      rfl
  | succ width ih =>
      rw [toList_padded, digits_eq, lastDigits]
      split
      · rename_i below
        rw [Nat.div_eq_of_lt below, ← zeros]
        rfl
      · have shorter : number / 16 < 16 ^ (width + 1) := by
          rw [pow_succ] at fits
          omega
        rw [← ih shorter, toList_padded, List.length_append, List.length_singleton,
          Nat.add_sub_add_right, List.append_assoc]

end Hexadecimal

namespace Decimal

theorem digits?_toDigits (number : Nat) : digits? (Nat.toDigits 10 number) = some number := by
  have numeric : (Nat.toDigits 10 number).all Char.isDigit := by
    rw [List.all_eq_true]
    exact fun _ mem => Nat.isDigit_of_mem_toDigits (by decide) (by decide) mem
  rw [digits?, if_pos ⟨Nat.toDigits_ne_nil, numeric⟩, ← Nat.ofDigitChars_eq_foldl,
    Nat.ofDigitChars_ten_toDigits]

@[simp]
theorem toDigits_inj {number other : Nat} :
    Nat.toDigits 10 number = Nat.toDigits 10 other ↔ number = other := by
  constructor
  · intro same
    have read := congrArg digits? same
    rw [digits?_toDigits, digits?_toDigits] at read
    exact Option.some.inj read
  · rintro rfl
    rfl

end Decimal

end Chip8

import Chip8.Instruction.Decode
import Chip8.Instruction.Encode
import Mathlib

/-!
# Reading what was written

Writing an instruction with fitting operands and reading the word gives the instruction back. Only
two routines of the host's machine code are out of reach, for their words clear the screen and
return, and a word kept as data is read as data only if it has no other meaning.

This goes through the four nibbles of the word, of which the readers of `NibbleReader` are given
here in their simplest form.
-/

namespace Chip8

namespace NibbleReader

variable {α β : Type}

@[simp]
theorem take_one (first : Nat) (rest : List Nat) :
    take 1 (first :: rest) = some (first, rest) := by
  simp [take, Nibbles.value]

@[simp]
theorem take_two (first second : Nat) (rest : List Nat) :
    take 2 (first :: second :: rest) = some (16 * first + second, rest) := by
  simp [take, Nibbles.value]

@[simp]
theorem take_three (first second third : Nat) (rest : List Nat) :
    take 3 (first :: second :: third :: rest) =
      some (16 * (16 * first + second) + third, rest) := by
  simp [take, Nibbles.value]

@[simp]
theorem run_pure (value : α) (nibbles : List Nat) :
    (pure value : NibbleReader α) nibbles = some (value, nibbles) := rfl

@[simp]
theorem run_bind (reader : NibbleReader α) (next : α → NibbleReader β) (nibbles : List Nat) :
    (reader >>= next) nibbles = (reader nibbles).bind fun (value, rest) => next value rest := rfl

@[simp]
theorem run_map (f : α → β) (reader : NibbleReader α) (nibbles : List Nat) :
    (f <$> reader) nibbles = (reader nibbles).map fun (value, rest) => (f value, rest) := by
  cases read : reader nibbles <;> simp [Functor.map, StateT.map, read]

end NibbleReader

namespace Combination

theorem toNat_digit_of_ofDigit? {digit : Nat} {operation : Combination}
    (named : ofDigit? digit = some operation) : operation.digit.toNat = digit := by
  unfold ofDigit? at named
  split at named
  case h_10 => cases named
  all_goals
    cases named
    rfl

@[simp]
theorem ofDigit?_digit (operation : Combination) :
    ofDigit? operation.digit.toNat = some operation := by
  cases operation <;> rfl

theorem toNat_digit_lt (operation : Combination) : operation.digit.toNat < 16 := by
  cases operation <;> decide

end Combination

namespace Instruction

open NibbleReader

theorem toNat_wordXNN (family : UInt16) (x byte : UInt8) :
    (wordXNN family x byte).toNat =
      (family.toNat * 4096 + x.toNat * 256 + byte.toNat) % 65536 := by
  simp [wordXNN]

theorem toNat_wordXYN (family : UInt16) (x y : UInt8) (digit : UInt16) :
    (wordXYN family x y digit).toNat =
      (family.toNat * 4096 + x.toNat * 256 + y.toNat * 16 + digit.toNat) % 65536 := by
  simp [wordXYN]

theorem ofWord_wordXNN {family : UInt16} {x byte : UInt8} (family_lt : family.toNat < 16)
    (fits : x.toNat < 16) :
    Nibbles.ofWord (wordXNN family x byte) =
      [family.toNat, x.toNat, byte.toNat / 16, byte.toNat % 16] := by
  have bound := byte.toNat_lt
  simp only [Nibbles.ofWord, toNat_wordXNN, List.cons.injEq, and_true]
  omega

theorem ofWord_wordXYN {family digit : UInt16} {x y : UInt8} (family_lt : family.toNat < 16)
    (fitsX : x.toNat < 16) (fitsY : y.toNat < 16) (digit_lt : digit.toNat < 16) :
    Nibbles.ofWord (wordXYN family x y digit) =
      [family.toNat, x.toNat, y.toNat, digit.toNat] := by
  simp only [Nibbles.ofWord, toNat_wordXYN, List.cons.injEq, and_true]
  omega

theorem ofWord_add_address {base : UInt16} {address : Address} (family : Nat)
    (base_eq : base.toNat = family * 4096) (family_lt : family < 16)
    (fits : address.toNat < 4096) :
    Nibbles.ofWord (base + address) =
      [family, address.toNat / 256, address.toNat / 16 % 16, address.toNat % 16] := by
  simp only [Nibbles.ofWord, UInt16.toNat_add, base_eq, List.cons.injEq, and_true]
  omega

theorem register_toNat (x : UInt8) (rest : List Nat) :
    register (x.toNat :: rest) = some (x, rest) := by
  simp [register]

theorem take_two_toNat (value : UInt8) (rest : List Nat) :
    take 2 (value.toNat / 16 :: value.toNat % 16 :: rest) = some (value.toNat, rest) := by
  simp
  omega

theorem byte_toNat (value : UInt8) (rest : List Nat) :
    byte (value.toNat / 16 :: value.toNat % 16 :: rest) = some (value, rest) := by
  rw [byte, run_bind, take_two_toNat]
  simp

theorem address_toNat (target : Address) :
    address [target.toNat / 256, target.toNat / 16 % 16, target.toNat % 16] =
      some (target, []) := by
  have whole : 16 * (16 * (target.toNat / 256) + target.toNat / 16 % 16) + target.toNat % 16 =
      target.toNat := by
    omega
  rw [address, run_bind, take_three, whole]
  simp

theorem decode_eq_of_ofNibbles {word : UInt16} {instruction : Instruction}
    (read : ∃ rest, ofNibbles word (Nibbles.ofWord word) = some (instruction, rest)) :
    decode word = instruction := by
  rcases read with ⟨rest, read⟩
  simp [decode, decode?, StateT.run', read]

/-- Reading the word of an instruction with fitting operands gives the instruction back, but for
the words that have another meaning. -/
theorem decode_encode {instruction : Instruction} (fits : instruction.Encodable)
    (notClear : instruction ≠ machineCall 0x00E0) (notReturn : instruction ≠ machineCall 0x00EE)
    (known : ∀ word, instruction ≠ unknown word) :
    decode instruction.encode = instruction := by
  apply decode_eq_of_ofNibbles
  cases instruction with
  | clearScreen => exact ⟨_, rfl⟩
  | ret => exact ⟨_, rfl⟩
  | unknown word => exact absurd rfl (known word)
  | machineCall target =>
      have start : encode (machineCall target) = 0x0000 + target := by simp [encode]
      simp only [ne_eq, machineCall.injEq] at notClear notReturn
      rw [start, ofWord_add_address 0 (by decide) (by decide) fits]
      simp [ofNibbles, nibble, address_toNat]
  | jump target =>
      rw [encode, ofWord_add_address 1 rfl (by decide) fits]
      simp [ofNibbles, nibble, address_toNat]
  | call target =>
      rw [encode, ofWord_add_address 2 rfl (by decide) fits]
      simp [ofNibbles, nibble, address_toNat]
  | setIndex target =>
      rw [encode, ofWord_add_address 10 rfl (by decide) fits]
      simp [ofNibbles, nibble, address_toNat]
  | jumpOffset target =>
      rw [encode, ofWord_add_address 11 rfl (by decide) fits]
      simp [ofNibbles, nibble, address_toNat]
  | skip condition =>
      cases condition with
      | equalsRegister x y | differsFromRegister x y =>
          rw [encode, ofWord_wordXYN (by decide) fits.1 fits.2 (by decide)]
          simp [ofNibbles, nibble, register_toNat]
      | equalsByte x value | differsFromByte x value =>
          rw [encode, ofWord_wordXNN (by decide) fits]
          simp [ofNibbles, nibble, register_toNat, byte_toNat]
      | keyDown x | keyUp x =>
          rw [encode, ofWord_wordXNN (by decide) fits]
          simp [ofNibbles, nibble, register_toNat]
  | combine operation x y =>
      rw [encode, ofWord_wordXYN (by decide) fits.1 fits.2 operation.toNat_digit_lt]
      simp [ofNibbles, nibble, register_toNat]
  | draw x y height =>
      have bound : height.toUInt16.toNat < 16 := by simpa using fits.2.2
      rw [encode, ofWord_wordXYN (by decide) fits.1 fits.2.1 bound]
      simp [ofNibbles, nibble, register_toNat]
  | setByte x value | addByte x value | random x value =>
      rw [encode, ofWord_wordXNN (by decide) fits]
      simp [ofNibbles, nibble, register_toNat, byte_toNat]
  | _ x =>
      rw [encode, ofWord_wordXNN (by decide) fits]
      simp [ofNibbles, nibble, register_toNat, ofSelector?]

end Instruction

end Chip8

import Chip8.Machine.Basic
import Chip8.Proofs.Forms
import Mathlib

/-!
# The instruction that is due

The word due is written by two bytes of memory, the first high; past the last byte of memory
comes the first. Which instruction a word is can be told from its number alone, for an
instruction is read from exactly one word.
-/

namespace Chip8

/-- The number that two bytes of memory write, the first at `place`. -/
def Memory.number (memory : Memory) (place : Nat) : Nat :=
  256 * memory.bytes[place % 4096].toNat + memory.bytes[(place + 1) % 4096].toNat

theorem Memory.number_write (memory : Memory) (start place : Nat) (image : List UInt8)
    {high low : UInt8} (inside : place + 1 < 4096) (after : start ≤ place)
    (first : image[place - start]? = some high) (second : image[place + 1 - start]? = some low) :
    (memory.write start image).number place = 256 * high.toNat + low.toNat := by
  have here : place % 4096 = place := Nat.mod_eq_of_lt (by omega)
  have next : (place + 1) % 4096 = place + 1 := Nat.mod_eq_of_lt inside
  simp [number, write, here, next, after, Nat.le_add_right_of_le after, first, second]

/-- A word at the last byte of memory goes on at the first. -/
theorem Memory.number_write_last (memory : Memory) (high low : UInt8) :
    ((memory.write 4095 [high]).write 0 [low]).number 4095 = 256 * high.toNat + low.toNat := by
  simp [number, write]

/-- The word at the program counter has the number of its two bytes. -/
theorem Machine.toNat_currentWord (machine : Machine) :
    machine.currentWord.toNat = machine.memory.number machine.pc.toNat := by
  have next : (machine.pc + 1).cell.val = (machine.pc.toNat + 1) % 4096 := by
    simp [UInt16.toNat_add]
  have high := machine.memory.bytes[machine.pc.toNat % 4096].toNat_lt
  have low := machine.memory.bytes[(machine.pc.toNat + 1) % 4096].toNat_lt
  simp only [currentWord, Memory.word, Memory.get, Memory.number, Fin.getElem_fin, next,
    Address.val_cell, UInt16.toNat_add, UInt16.toNat_mul, UInt8.toNat_toUInt16]
  simp
  omega

/-- The word due where a program starts is written by the first two bytes of the program. -/
theorem Machine.toNat_currentWord_of_write {machine : Machine} {memory : Memory}
    {high low : UInt8} {rest : List UInt8}
    (loaded : machine.memory = memory.write 512 (high :: low :: rest))
    (pc_eq : machine.pc = 0x200) :
    machine.currentWord.toNat = 256 * high.toNat + low.toNat := by
  have start : UInt16.toNat 0x200 = 512 := rfl
  rw [toNat_currentWord, loaded, pc_eq, start]
  exact memory.number_write 512 512 _ (by omega) le_rfl rfl rfl

namespace Instruction

variable {word : UInt16}

/-- An instruction is read from its own word only. -/
theorem decode_eq_iff (instruction : Instruction) (fits : instruction.Encodable)
    (notClear : instruction ≠ machineCall 0x00E0) (notReturn : instruction ≠ machineCall 0x00EE)
    (known : ∀ word, instruction ≠ unknown word) :
    decode word = instruction ↔ word.toNat = instruction.encode.toNat := by
  rw [UInt16.toNat_inj]
  constructor
  · rintro rfl
    exact (encode_decode word).symm
  · rintro rfl
    exact decode_encode fits notClear notReturn known

theorem decode_eq_ret_iff : decode word = ret ↔ word.toNat = 0x00EE :=
  decode_eq_iff ret trivial (by simp) (by simp) (by simp)

theorem decode_eq_awaitKey_iff {x : UInt8} (fits : x.toNat < 16) :
    decode word = awaitKey x ↔ word.toNat = 0xF00A + 256 * x.toNat := by
  have written : (encode (awaitKey x)).toNat = 0xF00A + 256 * x.toNat := by
    simp only [encode, toNat_wordXNN]
    simp
    omega
  rw [decode_eq_iff (awaitKey x) fits (by simp) (by simp) (by simp), written]

theorem exists_decode_eq_call_iff :
    (∃ target, decode word = call target) ↔ word.toNat / 0x1000 = 2 := by
  have written : ∀ target : Address, target.toNat < 4096 →
      (encode (call target)).toNat = 0x2000 + target.toNat := by
    intro target fits
    simp [encode, UInt16.toNat_add]
    omega
  constructor
  · rintro ⟨target, read⟩
    have fits : target.toNat < 4096 := by
      have := encodable_decode word
      rwa [read] at this
    have own := encode_decode word
    rw [read, ← UInt16.toNat_inj, written target fits] at own
    omega
  · intro family
    have bound : (UInt16.ofNat (word.toNat % 4096)).toNat = word.toNat % 4096 := by
      simp
      omega
    have fits : (UInt16.ofNat (word.toNat % 4096)).toNat < 4096 := by omega
    refine ⟨UInt16.ofNat (word.toNat % 4096), ?_⟩
    rw [decode_eq_iff (call _) fits (by simp) (by simp) (by simp), written _ fits]
    omega

end Instruction

end Chip8

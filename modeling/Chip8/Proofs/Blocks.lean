import Chip8.Machine.Execute
import Chip8.Proofs.Script
import Chip8.Proofs.Transfers
import Mathlib

/-!
# Blocks of registers in memory

The registers V0 to VX go to memory and come back in the same order, so the block that was stored
can be loaded into any registers again, and a block that was loaded can be stored without a trace.
Given by the host, X may go beyond VF: the registers are then passed again and again, and each comes
with the same byte every time. The digits of a register are a block of three bytes.
-/

namespace Chip8

namespace Registers

/-- The bytes of V0 to VX, starting over after VF. -/
def block (registers : Registers) (x : UInt8) : List UInt8 :=
  (List.range (x.toNat + 1)).map fun number =>
    registers.bytes.get (Nibble.low (UInt8.ofNat number))

@[simp]
theorem length_block (registers : Registers) (x : UInt8) :
    (registers.block x).length = x.toNat + 1 := by
  simp [block]

theorem first_eq_block (registers : Registers) (x : UInt8) :
    registers.first (x.toNat + 1) = registers.block x := rfl

/-- A block restores the registers that it holds. -/
theorem bytes_fill_block (registers other : Registers) {x : UInt8} {register : Nibble}
    (held : register.val ≤ x.toNat) :
    (other.fill 0 (registers.block x)).bytes.get register = registers.bytes.get register := by
  apply bytes_fill_of_agree
  · refine ⟨register.val, ?_, ?_⟩
    · rw [length_block]
      omega
    · simp
  · -- Beyond VF the block holds the same registers again, so no later byte is another one.
    intro offset within same
    have named : Nibble.low (UInt8.ofNat offset) = register := by
      apply Fin.ext
      simpa using same
    rw [← named]
    simp [block]

/-- A block leaves the registers alone that it does not reach. -/
theorem bytes_fill_of_above (registers : Registers) {bytes : List UInt8} {register : Nibble}
    (above : bytes.length ≤ register.val) :
    (registers.fill 0 bytes).bytes.get register = registers.bytes.get register := by
  apply bytes_fill_of_apart
  intro offset within same
  rw [UInt8.toNat_zero] at same
  omega

/-- Registers that were loaded without starting over hold the bytes that were loaded. -/
theorem block_fill (registers : Registers) {x : UInt8} {bytes : List UInt8}
    (length_eq : bytes.length = x.toNat + 1) (small : x.toNat < 16) :
    (registers.fill 0 bytes).block x = bytes := by
  apply List.ext_getElem
  · rw [length_block, length_eq]
  · intro number _ within
    simp only [block, List.getElem_map, List.getElem_range]
    apply bytes_fill_of_agree
    · refine ⟨number, within, ?_⟩
      simp
    · intro offset offset_within same
      have only : offset = number := by
        rw [UInt8.toNat_zero, Nibble.val_low, UInt8.toNat_ofNat'] at same
        omega
      simp only [only]

end Registers

namespace Memory

theorem Written.load {before after : Memory} {start : Address} {bytes : List UInt8}
    (written : before.Written after start bytes) : after.load start bytes.length = bytes := by
  rw [load_eq_map]
  apply List.ext_getElem
  · simp
  · intro offset _ within
    simpa using written.inside offset within

end Memory

namespace Machine

theorem decimalDigits_eq (value : UInt8) :
    ∃ a b c : UInt8, decimalDigits value = [a, b, c] ∧ a ≤ 9 ∧ b ≤ 9 ∧ c ≤ 9 ∧
      100 * a.toNat + 10 * b.toNat + c.toNat = value.toNat := by
  have value_lt := value.toNat_lt
  refine ⟨_, _, _, rfl, ?_, ?_, ?_, ?_⟩
  · rw [UInt8.le_iff_toNat_le]
    simp
    omega
  · rw [UInt8.le_iff_toNat_le]
    simp
    omega
  · rw [UInt8.le_iff_toNat_le]
    simp
    omega
  · simp
    omega

variable {machine : Machine} {x : UInt8} {pc : Address}

theorem written_storeRegisters (machine : Machine) (x : UInt8) (pc : Address) :
    machine.memory.Written (machine.execute (.storeRegisters x) pc).machine.memory machine.index
      (machine.registers.block x) := by
  have x_lt := x.toNat_lt
  rw [← Registers.first_eq_block]
  apply Memory.written_store
  rw [Registers.length_first]
  omega

/-- Storing a block writes its bytes and nothing else, and so does storing the digits of a register.
A block that was stored comes back into any registers from the same place, with nothing else
touched; a block that was loaded is stored without a trace. -/
theorem blocks_come_back (machine : Machine) (x : UInt8) (pc : Address) :
    let stored := (machine.execute (.storeRegisters x) pc).machine
    let loaded := (machine.execute (.loadRegisters x) pc).machine
    let written := (machine.execute (.storeDecimal x) pc).machine
    (machine.memory.Written stored.memory machine.index (machine.registers.block x) ∧
        stored = { machine with memory := stored.memory }) ∧
      (∀ later : Machine, later.memory = stored.memory → later.index = machine.index →
        ∀ pc, let restored := (later.execute (.loadRegisters x) pc).machine
          (∀ register : Nibble, register.val ≤ x.toNat →
              restored.registers.bytes.get register = machine.registers.bytes.get register) ∧
            (∀ register : Nibble, x.toNat < register.val →
              restored.registers.bytes.get register = later.registers.bytes.get register) ∧
            restored = { later with registers := restored.registers }) ∧
      (x.toNat < 16 → ∀ pc,
        (loaded.execute (.storeRegisters x) pc).machine.memory = machine.memory) ∧
      ∃ a b c : UInt8, a ≤ 9 ∧ b ≤ 9 ∧ c ≤ 9 ∧
        100 * a.toNat + 10 * b.toNat + c.toNat = (machine.registers.get x).toNat ∧
        machine.memory.Written written.memory machine.index [a, b, c] ∧
        written = { machine with memory := written.memory } := by
  intro stored loaded written
  have block_written := machine.written_storeRegisters x pc
  refine ⟨⟨block_written, rfl⟩, ?_, ?_, ?_⟩
  · intro later same_memory same_index pc restored
    have block_eq : later.memory.load later.index (x.toNat + 1) = machine.registers.block x := by
      rw [same_memory, same_index, ← Registers.length_block machine.registers x]
      exact block_written.load
    have restored_eq : restored.registers = later.registers.fill 0 (machine.registers.block x) := by
      rw [← block_eq]
      rfl
    rw [restored_eq]
    refine ⟨?_, ?_, ?_⟩
    · intro register held
      exact machine.registers.bytes_fill_block later.registers held
    · intro register above
      apply Registers.bytes_fill_of_above
      rw [Registers.length_block]
      omega
    · rw [← restored_eq]
      rfl
  · intro small pc
    have bytes_eq := machine.registers.block_fill
      (machine.memory.length_load machine.index (x.toNat + 1)) small
    rw [← Registers.first_eq_block] at bytes_eq
    calc (loaded.execute (.storeRegisters x) pc).machine.memory
        = machine.memory.store machine.index (loaded.registers.first (x.toNat + 1)) := rfl
      _ = machine.memory.store machine.index (machine.memory.load machine.index (x.toNat + 1)) :=
          congrArg _ bytes_eq
      _ = machine.memory := machine.memory.store_load machine.index (by omega)
  · rcases decimalDigits_eq (machine.registers.get x) with ⟨a, b, c, digits_eq, digits⟩
    have digits_written : machine.memory.Written written.memory machine.index [a, b, c] := by
      have three := machine.memory.written_store machine.index
        (show (decimalDigits (machine.registers.get x)).length ≤ 4096 by simp [digits_eq])
      rw [← digits_eq]
      exact three
    exact ⟨a, b, c, digits.1, digits.2.1, digits.2.2.1, digits.2.2.2, digits_written, rfl⟩

/-- V2 holds seven, and the index register is at the end of its range. -/
def lucky : Machine :=
  (Machine.new .standard (.constant 0) .zero).play
    [⟨.zero, .execute (.setByte 2 7) 0⟩, ⟨.zero, .execute (.setIndex 0xFFFF) 0⟩]

/-- The block goes on at the start of memory, passes the registers more than once and comes back
into empty registers; a block that does not pass them again is put back. -/
theorem seven_comes_back :
    (lucky.execute (.storeRegisters 20) 0).machine.memory.bytes.get 1 = 7 ∧
      (({ (lucky.execute (.storeRegisters 20) 0).machine with registers := .empty } :
        Machine).execute (.loadRegisters 20) 0).machine.registers.bytes.get 2 = 7 ∧
      ((lucky.execute (.loadRegisters 3) 0).machine.execute (.storeRegisters 3) 0).machine.memory =
        lucky.memory := by
  have index_eq : lucky.index = 0xFFFF := rfl
  have seven : lucky.registers.bytes.get 2 = 7 := by decide
  rcases blocks_come_back lucky 20 0 with ⟨⟨stored, _⟩, restored, _, _⟩
  rcases blocks_come_back lucky 3 0 with ⟨_, _, put_back, _⟩
  refine ⟨?_, ?_, put_back (by decide) 0⟩
  · have third := stored.inside 2 (by decide)
    rw [index_eq] at third
    exact third.trans (by decide)
  · rw [← seven]
    exact (restored { (lucky.execute (.storeRegisters 20) 0).machine with registers := .empty } rfl
      rfl 0).1 2 (by decide)

end Machine

end Chip8

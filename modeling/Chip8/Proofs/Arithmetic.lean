import Chip8.Proofs.Executing
import Chip8.Proofs.Footprint
import Chip8.Registers.Combine
import Mathlib

/-!
# Arithmetic and its flags

Sums, differences and shifts leave a byte in VX and a flag in VF. Each has a rule that ties the two
to the operands, and a rule has one solution in a byte and a bit. The flag is written last, so of VF
as a destination only the flag is left; the operands are read before either is written, so VF may be
an operand as well. The logic instructions put zero into VF in the dialect that clears it and leave
it alone in all others.
-/

namespace Chip8

namespace Registers

/-- VX and VF hold a byte and a bit under a rule; if VX is VF itself, only the bit is left. -/
def Carries (after : Registers) (x : UInt8) (rule : Nat → Nat → Prop) : Prop :=
  ∃ value bit, value < 256 ∧ bit < 2 ∧ rule value bit ∧ (after.get flag).toNat = bit ∧
    (Nibble.low x ≠ Nibble.low flag → (after.get x).toNat = value)

/-- VX holds a byte, and VF is as it was unless it is VX. -/
def Receives (before after : Registers) (x : UInt8) (value : Nat) : Prop :=
  (after.get x).toNat = value ∧
    (Nibble.low x ≠ Nibble.low flag → after.get flag = before.get flag)

/-- The same in the dialects that leave VF alone; in the others VF is zero. -/
def Decides (before after : Registers) (dialect : Dialect) (x : UInt8) (result : Nat) : Prop :=
  if dialect.logicClearsFlag then
    after.Carries x fun value bit => value = result ∧ bit = 0
  else
    before.Receives after x result

/-- The registers `after` are what an operation on VX and VY makes of the registers `before`. -/
def Computes (before after : Registers) (dialect : Dialect) (operation : Combination)
    (x y : UInt8) : Prop :=
  let a := (before.get x).toNat
  let b := (before.get y).toNat
  let source := if dialect.shiftsY then b else a
  match operation with
  | .copy => before.Receives after x b
  | .or => before.Decides after dialect x (a ||| b)
  | .and => before.Decides after dialect x (a &&& b)
  | .xor => before.Decides after dialect x (a ^^^ b)
  | .add => after.Carries x fun value bit => 256 * bit + value = a + b
  | .subtract => after.Carries x fun value bit =>
      (value : ℤ) = ((a : ℤ) - b) % 256 ∧ (bit = 1 ↔ b ≤ a)
  | .shiftRight => after.Carries x fun value bit => 2 * value + bit = source
  | .subtractReverse => after.Carries x fun value bit =>
      (value : ℤ) = ((b : ℤ) - a) % 256 ∧ (bit = 1 ↔ a ≤ b)
  | .shiftLeft => after.Carries x fun value bit => 256 * bit + value = 2 * source

variable {registers : Registers} {dialect : Dialect} {operation : Combination} {x y : UInt8}
variable {rule : Nat → Nat → Prop}

/-! ## Writing a byte and a flag -/

theorem carries_setFlag {value : UInt8} {told : Bool} (obeys : rule value.toNat told.toNat) :
    ((registers.set x value).setFlag told).Carries x rule := by
  refine ⟨value.toNat, told.toNat, value.toNat_lt, told.toNat_lt, obeys, ?_, ?_⟩
  · cases told <;> simp [setFlag]
  · intro apart
    simp [setFlag, get_set, apart.symm]

theorem receives_set (value : UInt8) :
    registers.Receives (registers.set x value) x value.toNat := by
  refine ⟨by simp, ?_⟩
  intro apart
  simp [get_set, apart]

theorem decides_afterLogic (value : UInt8) :
    registers.Decides ((registers.set x value).afterLogic dialect) dialect x value.toNat := by
  unfold Decides afterLogic
  split
  · exact @carries_setFlag _ x _ value false ⟨rfl, rfl⟩
  · exact receives_set value

/-! ## Rules -/

theorem carry_of_add (a b : UInt8) :
    256 * (decide (a.toNat + b.toNat ≥ 256)).toNat + (a + b).toNat = a.toNat + b.toNat := by
  have a_lt := a.toNat_lt
  have b_lt := b.toNat_lt
  rw [UInt8.toNat_add]
  by_cases carries : a.toNat + b.toNat ≥ 256
  · simp [carries]
    omega
  · simp [carries]
    omega

theorem borrow_of_sub (a b : UInt8) :
    ((a - b).toNat : ℤ) = ((a.toNat : ℤ) - b.toNat) % 256 ∧
      ((decide (a ≥ b)).toNat = 1 ↔ b.toNat ≤ a.toNat) := by
  have a_lt := a.toNat_lt
  have b_lt := b.toNat_lt
  constructor
  · rw [UInt8.toNat_sub]
    omega
  · simp [UInt8.le_iff_toNat_le]

theorem bit_of_shiftRight (source : UInt8) :
    2 * (source >>> 1).toNat + (decide (source % 2 = 1)).toNat = source.toNat := by
  have half : (source >>> 1).toNat = source.toNat / 2 := by
    simp [Nat.shiftRight_eq_div_pow]
  have odd : source % 2 = 1 ↔ source.toNat % 2 = 1 := by
    simp [← UInt8.toNat_inj]
  simp only [half, odd]
  by_cases lost : source.toNat % 2 = 1
  · simp [lost]
    omega
  · simp [lost]
    omega

theorem bit_of_shiftLeft (source : UInt8) :
    256 * (decide (source ≥ 128)).toNat + (source <<< 1).toNat = 2 * source.toNat := by
  have source_lt := source.toNat_lt
  have double : (source <<< 1).toNat = 2 * source.toNat % 256 := by
    simp [Nat.shiftLeft_eq, Nat.mul_comm]
  have high : source ≥ 128 ↔ 128 ≤ source.toNat := by
    simp [UInt8.le_iff_toNat_le]
  simp only [double, high]
  by_cases lost : 128 ≤ source.toNat
  · simp [lost]
    omega
  · simp [lost]
    omega

theorem computes_combine (registers : Registers) (dialect : Dialect) (operation : Combination)
    (x y : UInt8) :
    registers.Computes (registers.combine dialect operation x y) dialect operation x y := by
  have source : (registers.shiftSource dialect x y).toNat =
      if dialect.shiftsY then (registers.get y).toNat else (registers.get x).toNat := by
    unfold shiftSource
    split <;> rfl
  cases operation with
  | copy => exact receives_set _
  | or | and | xor => exact decides_afterLogic _
  | add => exact carries_setFlag (carry_of_add _ _)
  | subtract => exact carries_setFlag (borrow_of_sub _ _)
  | subtractReverse => exact carries_setFlag (borrow_of_sub _ _)
  | shiftRight =>
      apply carries_setFlag
      rw [← source]
      exact bit_of_shiftRight _
  | shiftLeft =>
      apply carries_setFlag
      rw [← source]
      exact bit_of_shiftLeft _

/-- No operation writes a register other than VX and VF. -/
theorem bytes_combine_of_apart {register : Nibble} (notX : register ≠ Nibble.low x)
    (notFlag : register ≠ Nibble.low flag) :
    (registers.combine dialect operation x y).bytes.get register =
      registers.bytes.get register := by
  cases operation with
  | copy => exact registers.bytes_set_of_ne _ notX
  | or | and | xor =>
      exact (Machine.bytes_afterLogic _ fun same => absurd same notFlag).trans
        (registers.bytes_set_of_ne _ notX)
  | add | subtract | subtractReverse | shiftRight | shiftLeft =>
      exact (Machine.bytes_setFlag_of_ne _ _ notFlag).trans (registers.bytes_set_of_ne _ notX)

end Registers

namespace Machine

variable {machine : Machine} {action : Action} {now : Time} {operation : Combination}
variable {x y byte : UInt8}

theorem registers_perform_of_combine (executes : machine.Executes action (.combine operation x y))
    (now : Time) :
    (machine.perform now action).machine.registers =
      machine.registers.combine machine.dialect operation x y := by
  rcases exists_perform_eq_of_executes executes (fun _ => rfl) now with ⟨_, _, _, performed⟩
  rw [performed]
  rfl

theorem registers_perform_of_addByte (executes : machine.Executes action (.addByte x byte))
    (now : Time) :
    (machine.perform now action).machine.registers = machine.registers.add x byte := by
  rcases exists_perform_eq_of_executes executes (fun _ => rfl) now with ⟨_, _, _, performed⟩
  rw [performed]
  rfl

/-- Whether a word in memory or the host makes a machine combine VX and VY, it gets the result and
the flag of the operation, also if X or Y is F or both are the same. To add a constant leaves the
flag alone. No other register changes. -/
theorem arithmetic_flags (machine : Machine) (now : Time) (action : Action) (x : UInt8) :
    let before := machine.registers
    let after := (machine.perform now action).machine.registers
    (∀ operation y, machine.Executes action (.combine operation x y) →
        before.Computes after machine.dialect operation x y ∧
          ∀ register, register ≠ Nibble.low x → register ≠ Nibble.low Registers.flag →
            after.bytes.get register = before.bytes.get register) ∧
      ∀ byte, machine.Executes action (.addByte x byte) →
        before.Receives after x (((before.get x).toNat + byte.toNat) % 256) ∧
          ∀ register, register ≠ Nibble.low x →
            after.bytes.get register = before.bytes.get register := by
  intro before after
  constructor
  · intro operation y executes
    have combined : after = before.combine machine.dialect operation x y :=
      registers_perform_of_combine executes now
    rw [combined]
    refine ⟨before.computes_combine machine.dialect operation x y, ?_⟩
    intro register notX notFlag
    exact Registers.bytes_combine_of_apart notX notFlag
  · intro byte executes
    have added : after = before.add x byte := registers_perform_of_addByte executes now
    rw [added, ← UInt8.toNat_add]
    refine ⟨Registers.receives_set _, ?_⟩
    intro register notX
    exact before.bytes_set_of_ne _ notX

/-- A program that adds V1 to VF, of which each holds a large number. -/
def summing : Machine :=
  (Machine.new .standard (.constant 0) .zero).play
    [⟨.zero, .loadProgram [0x8F, 0x14]⟩, ⟨.zero, .execute (.setByte 0xF 200) 0⟩,
      ⟨.zero, .execute (.setByte 1 100) 0⟩]

/-- The sum of 300 is lost and only its carry is left, and V1 still holds its part. -/
theorem carry_in_place_of_sum :
    summing.Executes .step (.combine .add 0xF 1) ∧
      (summing.perform .zero .step).machine.registers.get 0xF = 1 ∧
      (summing.perform .zero .step).machine.registers.bytes.get 1 = 100 := by
  have memory_eq : summing.memory = Memory.empty.write 512 [0x8F, 0x14] := rfl
  have word : summing.currentWord = 0x8F14 := by
    rw [← UInt16.toNat_inj]
    exact toNat_currentWord_of_write memory_eq rfl
  have executes : summing.Executes .step (.combine .add 0xF 1) := by
    rw [executes_step_iff, word]
    exact ⟨rfl, rfl⟩
  rcases (arithmetic_flags summing .zero .step 0xF).1 .add 1 executes with ⟨added, others⟩
  rcases added with ⟨value, bit, value_lt, bit_lt, sum, told, _⟩
  have operands : summing.registers.get 0xF = 200 ∧ summing.registers.get 1 = 100 := by decide
  rw [operands.1, operands.2] at sum
  change 256 * bit + value = 300 at sum
  refine ⟨executes, ?_, ?_⟩
  · rw [← UInt8.toNat_inj]
    change _ = 1
    exact told.trans (by omega)
  · exact others 1 (by decide) (by decide)

end Machine

end Chip8

import Chip8.Proofs.Fetching
import Chip8.Proofs.WellFormed
import Mathlib

/-!
# Steps at fault

A step of a running machine is at fault exactly if it calls with a full call stack or returns
with an empty one. It then changes nothing but the state of execution. That the program counter
is back where it was rests on its bound, for going back to an instruction drops the four high
bits of its address.
-/

namespace Chip8

namespace Machine

variable {machine : Machine} {word : UInt16} {pc : Address} {now : Time}

theorem obstacle_decode_eq_some_iff (depth_le : machine.stack.depth ≤ 16) {failure : Failure} :
    machine.obstacle pc (.decode word) = some failure ↔
      (word.toNat / 0x1000 = 2 ∧ machine.stack.depth = 16 ∧
          failure = .fault (.stackOverflow pc)) ∨
        (word.toNat = 0x00EE ∧ machine.stack.depth = 0 ∧
          failure = .fault (.stackUnderflow pc)) := by
  rw [← Instruction.exists_decode_eq_call_iff, ← Instruction.decode_eq_ret_iff,
    ← CallStack.top?_eq_none_iff depth_le]
  constructor
  · intro found
    have overflows := obstacle_decode machine pc word
    rw [found] at overflows
    cases read : Instruction.decode word with
    | call target =>
        left
        simp only [read, obstacle, Option.ite_none_right_eq_some, Option.some.injEq] at found
        exact ⟨⟨target, rfl⟩, by omega, found.2.symm⟩
    | ret =>
        right
        simp only [read, obstacle, Option.ite_none_right_eq_some, Option.some.injEq] at found
        exact ⟨rfl, found.1, found.2.symm⟩
    | jumpOffset target =>
        simp only [read, obstacle, Option.ite_none_right_eq_some, Option.some.injEq] at found
        simp [← found.2] at overflows
    | _ => simp [read, obstacle] at found
  · rintro (⟨⟨target, read⟩, full, rfl⟩ | ⟨read, empty, rfl⟩)
    · simp [obstacle, read, full]
    · simp [obstacle, read, empty]

/-- A step of a running machine is at fault exactly on a call with a full stack and a return with
an empty one, and then changes nothing but the state of execution. -/
theorem step_atomic {word : Nat} (reachable : machine.Reachable Action.Bounded)
    (running : machine.state = .running)
    (due : machine.memory.number machine.pc.toNat = word) (now : Time) :
    (∀ failure, (machine.step now).result = .error failure ↔
      (word / 0x1000 = 2 ∧ machine.stack.depth = 16 ∧
          failure = .fault (.stackOverflow machine.pc)) ∨
        (word = 0x00EE ∧ machine.stack.depth = 0 ∧
          failure = .fault (.stackUnderflow machine.pc))) ∧
      ∀ fault, (machine.step now).result = .error (.fault fault) →
        (machine.step now).machine = { machine with state := .faulted fault } := by
  have wellFormed := reachable.wellFormed
  simp only [← due, ← machine.toNat_currentWord,
    ← obstacle_decode_eq_some_iff wellFormed.stack.depth_le]
  rcases obstacle_decode machine machine.pc machine.currentWord with free | ⟨cause, blocked⟩
  · have stepped := step_of_obstacle_eq_none now running free
    rw [stepped.1, free]
    constructor <;> simp
  · have stepped := step_of_obstacle_eq_fault now running blocked
    -- Only here is the bound of the program counter needed.
    have back : machine.pc.wrap = machine.pc := Address.wrap_eq_self_iff.mpr wellFormed.pc_lt
    rw [stepped.1, stepped.2, blocked, back]
    constructor
    · simp
    · rintro fault ⟨⟩
      rfl

/-- A program that calls itself has done so sixteen times. -/
def nested : Machine :=
  (Machine.new .standard (.constant 0) .zero).play
    (⟨.zero, .loadProgram [0x22, 0x00]⟩ :: List.replicate 16 ⟨.zero, .execute (.call 0x200) 0x200⟩)

/-- The seventeenth of nested calls is at fault, and the sixteen before it stand. -/
theorem step_atomic_at_seventeenth_call :
    (nested.step .zero).result = .error (.fault (.stackOverflow 0x200)) ∧
      (nested.step .zero).machine = { nested with state := .faulted (.stackOverflow 0x200) } := by
  have reachable : nested.Reachable Action.Bounded :=
    ⟨.standard, .constant 0, .zero, _, by simp [Action.Bounded], rfl⟩
  have memory_eq : nested.memory = Memory.empty.write 512 [0x22, 0x00] := rfl
  have pc_eq : nested.pc = 0x200 := rfl
  have loaded : nested.memory.number nested.pc.toNat = 0x2200 := by
    have place : UInt16.toNat 0x200 = 512 := rfl
    rw [memory_eq, pc_eq, place,
      Memory.number_write .empty 512 512 [0x22, 0x00] (by omega) le_rfl rfl rfl]
    rfl
  have atomic := step_atomic reachable rfl loaded .zero
  have failed := (atomic.1 (.fault (.stackOverflow 0x200))).mpr (Or.inl ⟨rfl, rfl, rfl⟩)
  exact ⟨failed, atomic.2 _ failed⟩

end Machine

end Chip8

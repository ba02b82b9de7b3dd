import Chip8.Proofs.Calls
import Chip8.Proofs.Forms
import Mathlib

/-!
# Where execution goes on

A step goes on at the next word, at the one after it, at an address of the word or of the call
stack, or stays where it is. `Machine.successor` says which, by the form of the word due and by the
registers and keys before the step. All places are taken modulo the size of memory, so a program
that runs off its end goes on at the start.
-/

namespace Chip8

namespace Machine

/-- The word asks a question about registers or keys of which the answer is yes. -/
def skips (machine : Machine) (word : Nat) : Bool :=
  let vx := machine.registers.bytes.get (Nibble.low (Word.x word))
  let vy := machine.registers.bytes.get (Nibble.low (Word.y word))
  let down := machine.keypad.keys.getD (vx.toNat % 16) false
  match Word.family word with
  | 0x3 => vx == Word.byte word
  | 0x4 => vx != Word.byte word
  | 0x5 => Word.digit word == 0 && vx == vy
  | 0x9 => Word.digit word == 0 && vx != vy
  | 0xE => Word.ending word == 0x9E && down || Word.ending word == 0xA1 && !down
  | _ => false

/-- The byte that a jump with offset adds to its target. -/
def offset (machine : Machine) (word : Nat) : UInt8 :=
  machine.registers.bytes.get (Nibble.low (if machine.dialect.jumpsByX then Word.x word else 0))

/-- The place where execution goes on after a word at the program counter. -/
def successor (machine : Machine) (word : Nat) : Nat :=
  let next := (machine.pc.toNat + 2) % 4096
  match Word.family word with
  | 0x0 => if word = 0x00EE then (machine.stack.toList.getLastD 0).toNat else next
  | 0x1 | 0x2 => word % 0x1000
  | 0xB => (word % 0x1000 + (machine.offset word).toNat) % 4096
  | 0xF => if Word.ending word = 0x0A then machine.pc.toNat else next
  | _ => if machine.skips word then (machine.pc.toNat + 4) % 4096 else next

variable {machine : Machine} {instruction : Instruction} {word : Nat} {now : Time}

@[simp]
theorem toNat_pc_advance (machine : Machine) :
    machine.advance.pc.toNat = (machine.pc.toNat + 2) % 4096 := by
  simp [advance, UInt16.toNat_add]

/-! ## Skips -/

theorem isPressed_eq_getD (keypad : Keypad) (key : UInt8) :
    keypad.isPressed key = keypad.keys.getD (key.toNat % 16) false :=
  Nibble.select_eq_getD keypad.keys key false

theorem pc_execute_skip {condition : Condition}
    (asked : machine.holds condition = machine.skips word)
    (asks : machine.successor word =
      if machine.skips word then (machine.pc.toNat + 4) % 4096
      else (machine.pc.toNat + 2) % 4096) :
    (machine.advance.execute (.skip condition) machine.pc).machine.pc.toNat =
      machine.successor word := by
  have same : machine.advance.holds condition = machine.holds condition := by
    cases condition <;> rfl
  simp only [execute, done, same, asked, asks]
  split
  · simp
  · simp

/-! ## Jumps -/

/-- The field X of a word is the high nibble of its field NNN. -/
theorem jumpOffset_address (machine : Machine) (word : Nat) :
    machine.jumpOffset (Word.address word) = machine.offset word := by
  have named : (Word.address word >>> 8).toUInt8 = Word.x word := by
    rw [← UInt8.toNat_inj, Word.toNat_x]
    simp [Nat.shiftRight_eq_div_pow]
    omega
  simp only [jumpOffset, offset, named]
  split <;> rfl

theorem pc_execute_jumpOffset (machine : Machine) (word : Nat) :
    (machine.advance.execute (.jumpOffset (Word.address word)) machine.pc).machine.pc.toNat =
      (word % 0x1000 + (machine.offset word).toNat) % 4096 := by
  have same : machine.advance.jumpOffset (Word.address word) = machine.offset word :=
    machine.jumpOffset_address word
  have offset_lt := (machine.offset word).toNat_lt
  have fits : (Word.address word).toNat + (machine.offset word).toNat < 65536 := by
    rw [Word.toNat_address]
    omega
  simp only [execute, done, same]
  rw [if_pos fits]
  simp [jump, UInt16.toNat_add]

/-! ## Calls and returns -/

/-- A return takes the newest address off the call stack and goes on there. -/
theorem toList_execute_ret (wellFormed : machine.WellFormed)
    (free : machine.obstacle machine.pc .ret = none) :
    let executed := (machine.advance.execute .ret machine.pc).machine
    machine.stack.toList = executed.stack.toList ++ [executed.pc] := by
  have same : machine.advance.stack = machine.stack := rfl
  cases held : machine.stack.top? with
  | none => simp [obstacle, held] at free
  | some address =>
      have popped : machine.stack.pop machine.pc =
          .ok (address, { machine.stack with depth := machine.stack.depth - 1 }) := by
        simp [CallStack.pop, held]
      have bound := (wellFormed.stack.pop popped).2
      simp only [execute, same, popped, done, jump, Address.wrap_eq_self_iff.mpr bound]
      exact CallStack.toList_pop wellFormed.stack.depth_le popped

theorem pc_execute_call {target : Address}
    (free : machine.obstacle machine.pc (.call target) = none) :
    (machine.advance.execute (.call target) machine.pc).machine.pc = target.wrap := by
  have room : machine.advance.stack.depth < 16 := by
    change machine.stack.depth < 16
    simpa [obstacle] using free
  simp [execute, CallStack.push, room, done, jump]

/-! ## All words -/

theorem successor_of_not_isDefined (undefined : ¬Word.IsDefined word) :
    machine.successor word = (machine.pc.toNat + 2) % 4096 := by
  unfold Word.IsDefined at undefined
  split at undefined
  case h_6 => exact absurd trivial undefined
  all_goals
    rename_i family
    simp_all [successor, skips]

theorem pc_execute (form : instruction.Form word) (wellFormed : machine.WellFormed)
    (free : machine.obstacle machine.pc instruction = none) :
    (machine.advance.execute instruction machine.pc).machine.pc.toNat =
      machine.successor word := by
  cases form with
  | ret same =>
      have popped := toList_execute_ret wellFormed free
      subst same
      simp [successor, Word.family, popped]
  | jump family => simp [execute, done, jump, successor, family]
  | call family => simp [pc_execute_call free, successor, family]
  | equalsByte family | differsFromByte family =>
      apply pc_execute_skip
      · simp [holds, skips, family, Registers.get_eq_get_bytes]
      · simp [successor, family]
  | equalsRegister family last | differsFromRegister family last =>
      apply pc_execute_skip
      · simp [holds, skips, family, last, Registers.get_eq_get_bytes]
      · simp [successor, family]
  | keyDown family last | keyUp family last =>
      apply pc_execute_skip
      · simp [holds, skips, family, last, Registers.get_eq_get_bytes, isPressed_eq_getD]
      · simp [successor, family]
  | jumpOffset family => simp [pc_execute_jumpOffset, successor, family]
  | awaitKey family last =>
      have back : machine.pc.wrap = machine.pc := Address.wrap_eq_self_iff.mpr wellFormed.pc_lt
      simp [execute, jump, successor, family, last, back]
  | unknown undefined =>
      rw [successor_of_not_isDefined undefined]
      exact machine.toNat_pc_advance
  | machineCall family notClear notReturn =>
      simp [execute, done, successor, family, notReturn]
  | clearScreen same =>
      subst same
      exact machine.toNat_pc_advance
  | combine operation family last =>
      simp [execute, done, successor, family, skips]
  | setByte family | addByte family | setIndex family | random family | draw family =>
      simp [execute, done, setRegister, successor, family, skips]
  | readDelay family last | setDelay family last | setSound family last | addIndex family last
  | pointGlyph family last | storeDecimal family last | storeRegisters family last
  | loadRegisters family last =>
      simp [execute, done, setRegister, successor, family, last]

/-- A step that succeeds goes on where the form of the word due says. A call has then left the
address after it on the call stack, a return has taken the address off where it goes on, and a jump
with offset has added two numbers whose sum fits sixteen bits. -/
theorem step_goes_on {permitted : Action → Prop} {outcome : Outcome}
    (reachable : machine.Reachable permitted) (running : machine.state = .running)
    (due : machine.memory.number machine.pc.toNat = word) (now : Time)
    (succeeded : (machine.step now).result = .ok outcome) :
    (machine.step now).machine.pc.toNat = machine.successor word ∧
      (Word.family word = 0x2 →
        (machine.step now).machine.stack.toList =
          machine.stack.toList ++ [(machine.pc + 2).wrap]) ∧
      (word = 0x00EE →
        machine.stack.toList =
          (machine.step now).machine.stack.toList ++ [(machine.step now).machine.pc]) ∧
      (Word.family word = 0xB → word % 0x1000 + (machine.offset word).toNat < 65536) := by
  have wellFormed := reachable.wellFormed
  rw [← toNat_currentWord] at due
  subst due
  have free := obstacle_of_step_eq_ok running succeeded
  have machine_eq := (step_of_obstacle_eq_none now running free).2
  refine ⟨?_, ?_, ?_, ?_⟩
  · rw [machine_eq]
    exact pc_execute (Instruction.form_decode _) wellFormed free
  · intro family
    rcases Instruction.exists_decode_eq_call_iff.mpr family with ⟨target, read⟩
    have room : machine.stack.depth < 16 := by
      simpa [read, obstacle] using free
    exact (step_of_call running read room now).2
  · intro same
    have read := Instruction.decode_eq_ret_iff.mpr same
    rw [read] at free machine_eq
    rw [machine_eq]
    exact toList_execute_ret wellFormed free
  · intro _
    have offset_lt := (machine.offset machine.currentWord.toNat).toNat_lt
    omega

/-- A program of one word that lies across the end of memory: skip if VF equals 5. -/
def edge : Machine :=
  (Machine.new .standard (.constant 0) .zero).play
    [⟨.zero, .writeMemory 4095 [0x3F]⟩, ⟨.zero, .writeMemory 0 [0x05]⟩,
      ⟨.zero, .execute (.setByte 0xF 5) 0⟩, ⟨.zero, .execute (.jump 0xFFF) 0⟩]

/-- A program of one word that asks for a key, which V5 names by a byte above 15. -/
def asking (ending : UInt8) (pressed : Bool) : Machine :=
  (Machine.new .standard (.constant 0) .zero).play
    [⟨.zero, .loadProgram [0xE5, ending]⟩, ⟨.zero, .execute (.setByte 5 0x1B) 0⟩,
      ⟨.zero, .setKey 0xB pressed⟩]

theorem currentWord_asking {ending : UInt8} {word : UInt16} (pressed : Bool)
    (same : word.toNat = 0xE500 + ending.toNat) : (asking ending pressed).currentWord = word := by
  have memory_eq : (asking ending pressed).memory = Memory.empty.write 512 [0xE5, ending] := rfl
  rw [← UInt16.toNat_inj, toNat_currentWord_of_write memory_eq rfl, same]
  rfl

/-- The skip at the last byte of memory reads its constant from the first byte and passes over the
word at the second. With 1B in V5, the skips on a key ask for the key B. -/
theorem step_goes_on_past_end :
    edge.pc = 0xFFF ∧ edge.memory.number edge.pc.toNat = 0x3F05 ∧
      (edge.step .zero).machine.pc.toNat = 3 ∧
      ((asking 0x9E true).step .zero).machine.pc.toNat = 516 ∧
      ((asking 0x9E false).step .zero).machine.pc.toNat = 514 ∧
      ((asking 0xA1 true).step .zero).machine.pc.toNat = 514 ∧
      ((asking 0xA1 false).step .zero).machine.pc.toNat = 516 := by
  have goes_on : ∀ {machine : Machine} {word : UInt16}, machine.Reachable Action.Bounded →
      machine.state = .running → machine.currentWord = word →
      machine.obstacle machine.pc (.decode word) = none →
      (machine.step .zero).machine.pc.toNat = machine.successor word.toNat := by
    rintro machine _ reachable running rfl free
    have succeeded := (step_of_obstacle_eq_none .zero running free).1
    exact (step_goes_on reachable running machine.toNat_currentWord.symm .zero succeeded).1
  have reachable_edge : edge.Reachable Action.Bounded :=
    ⟨.standard, .constant 0, .zero, _, by simp [Action.Bounded], rfl⟩
  have memory_eq : edge.memory = (Memory.empty.write 4095 [0x3F]).write 0 [0x05] := rfl
  have place : edge.pc.toNat = 4095 := rfl
  have due : edge.memory.number edge.pc.toNat = 0x3F05 := by
    rw [place, memory_eq, Memory.number_write_last]
    rfl
  have read : edge.currentWord = 0x3F05 := by
    rw [← UInt16.toNat_inj, toNat_currentWord, due]
    rfl
  have reachable : ∀ ending pressed, (asking ending pressed).Reachable Action.Bounded := by
    intro ending pressed
    exact ⟨.standard, .constant 0, .zero, _, by simp [Action.Bounded], rfl⟩
  have down : ∀ pressed, (asking 0x9E pressed).currentWord = 0xE59E := by
    intro pressed
    exact currentWord_asking pressed rfl
  have up : ∀ pressed, (asking 0xA1 pressed).currentWord = 0xE5A1 := by
    intro pressed
    exact currentWord_asking pressed rfl
  refine ⟨by decide, due, ?_, ?_, ?_, ?_, ?_⟩
  · rw [goes_on reachable_edge rfl read rfl]
    decide
  · rw [goes_on (reachable 0x9E true) rfl (down true) rfl]
    decide
  · rw [goes_on (reachable 0x9E false) rfl (down false) rfl]
    decide
  · rw [goes_on (reachable 0xA1 true) rfl (up true) rfl]
    decide
  · rw [goes_on (reachable 0xA1 false) rfl (up false) rfl]
    decide

end Machine

end Chip8

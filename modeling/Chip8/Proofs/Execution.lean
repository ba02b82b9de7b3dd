import Chip8.Machine.Step
import Chip8.Proofs.Forms
import Chip8.Proofs.Timing
import Mathlib

/-!
# What an instruction and a step come to

Three instructions can meet an obstacle: a return on an empty call stack, a call on a full one,
and a jump whose moved target leaves sixteen bits. `Machine.obstacle` says when, and every result
of `Machine.execute` follows from it. An instruction that meets an obstacle leaves the machine as
it is, so a step at fault has nothing to undo but the move of the program counter.

The lemmas on `Machine.step` have one equation for each thing a step can do, and
`Machine.stepCase` says that there is nothing else. Later proofs cite them and do not unfold the
step.
-/

namespace Chip8

/-- What a step tells of an instruction that was carried out. -/
def Instruction.outcome : Instruction → Outcome
  | .awaitKey _ => .awaitingKey
  | .unknown word => .unrecognized word
  | instruction => .executed instruction

theorem Instruction.eq_of_outcome_eq_executed {instruction other : Instruction}
    (same : instruction.outcome = .executed other) : instruction = other := by
  cases instruction with
  | awaitKey x | unknown word => cases same
  | _ => exact Outcome.executed.inj same

/-- The instruction does nothing but choose where to go on. -/
def Instruction.Branches : Instruction → Prop
  | .ret | .jump _ | .call _ | .skip _ | .jumpOffset _ => True
  | _ => False

namespace Machine

/-- What keeps an instruction at `pc` from being carried out, if anything does. -/
def obstacle (machine : Machine) (pc : Address) : Instruction → Option Failure
  | .ret => if machine.stack.top? = none then some (.fault (.stackUnderflow pc)) else none
  | .call _ => if 16 ≤ machine.stack.depth then some (.fault (.stackOverflow pc)) else none
  | .jumpOffset target =>
      if 65536 ≤ target.toNat + (machine.jumpOffset target).toNat then
        some (.overflow .address)
      else
        none
  | _ => none

variable {machine : Machine} {instruction : Instruction} {pc : Address}

/-- An instruction gives its outcome unless there is an obstacle, which is then its result. -/
theorem result_execute (machine : Machine) (instruction : Instruction) (pc : Address) :
    (machine.execute instruction pc).result =
      match machine.obstacle pc instruction with
      | some failure => .error failure
      | none => .ok instruction.outcome := by
  cases instruction with
  | ret =>
      cases held : machine.stack.top? <;>
        simp [execute, obstacle, CallStack.pop, held, done, Instruction.outcome]
  | call address =>
      by_cases room : machine.stack.depth < 16
      · have free : ¬16 ≤ machine.stack.depth := by omega
        simp [execute, obstacle, CallStack.push, room, free, done, Instruction.outcome]
      · have full : 16 ≤ machine.stack.depth := by omega
        simp [execute, obstacle, CallStack.push, room, full]
  | jumpOffset target =>
      by_cases fits : target.toNat + (machine.jumpOffset target).toNat < 65536
      · have below : ¬65536 ≤ target.toNat + (machine.jumpOffset target).toNat := by omega
        simp [execute, obstacle, fits, below, done, Instruction.outcome]
      · have beyond : 65536 ≤ target.toNat + (machine.jumpOffset target).toNat := by omega
        simp [execute, obstacle, fits, beyond]
  | _ => rfl

theorem machine_execute_of_obstacle {failure : Failure}
    (blocked : machine.obstacle pc instruction = some failure) :
    (machine.execute instruction pc).machine = machine := by
  cases instruction with
  | ret =>
      cases held : machine.stack.top? with
      | none => simp [execute, CallStack.pop, held]
      | some address => simp [obstacle, held] at blocked
  | call address =>
      by_cases room : machine.stack.depth < 16
      · have free : ¬16 ≤ machine.stack.depth := by omega
        simp [obstacle, free] at blocked
      · simp [execute, CallStack.push, room]
  | jumpOffset target =>
      by_cases fits : target.toNat + (machine.jumpOffset target).toNat < 65536
      · have below : ¬65536 ≤ target.toNat + (machine.jumpOffset target).toNat := by omega
        simp [obstacle, below] at blocked
      · simp [execute, fits]
  | _ => cases blocked

/-- An instruction that only chooses where to go on reaches the program counter and the call
stack, and nothing else. -/
theorem exists_execute_eq_of_branches (machine : Machine) (instruction : Instruction)
    (pc : Address) (branches : instruction.Branches) :
    ∃ next stack, (machine.execute instruction pc).machine =
      { machine with pc := next, stack } := by
  cases instruction with
  | jump address => exact ⟨_, _, rfl⟩
  | ret | call | skip | jumpOffset =>
      simp only [execute]
      split
      · exact ⟨_, _, rfl⟩
      · exact ⟨_, _, rfl⟩
  | _ => cases branches

/-- So whatever can be told of a machine without them is as it was. -/
theorem part_execute_of_branches {Part : Type} (part : Machine → Part)
    (blind : ∀ next stack, part { machine with pc := next, stack } = part machine)
    (branches : instruction.Branches) :
    part (machine.execute instruction pc).machine = part machine := by
  rcases machine.exists_execute_eq_of_branches instruction pc branches with
    ⟨next, stack, executed⟩
  rw [executed]
  exact blind next stack

theorem state_execute (machine : Machine) (instruction : Instruction) (pc : Address) :
    (machine.execute instruction pc).machine.state =
      match instruction with
      | .awaitKey x => .awaitingKey x machine.keypad.mask
      | _ => machine.state := by
  cases instruction with
  | ret | jump | call | skip | jumpOffset =>
      exact part_execute_of_branches (·.state) (fun _ _ => rfl) trivial
  | _ => rfl

@[simp]
theorem obstacle_advance : machine.advance.obstacle pc instruction =
    machine.obstacle pc instruction := by
  cases instruction <;> rfl

/-- A jump with offset is the only instruction that can overflow, and only if its target leaves
no room for a byte. -/
theorem obstacle_ne_overflow (kind : Overflow)
    (room : ∀ target, instruction = .jumpOffset target → target.toNat ≤ 0xFF00) :
    machine.obstacle pc instruction ≠ some (.overflow kind) := by
  cases instruction with
  | ret =>
      simp only [obstacle]
      split <;> simp
  | call address =>
      simp only [obstacle]
      split <;> simp
  | jumpOffset target =>
      have target_le := room target rfl
      have offset_lt := (machine.jumpOffset target).toNat_lt
      simp only [obstacle]
      split
      · omega
      · simp
  | _ => simp [obstacle]

/-- Nothing but the call stack can be in the way of an instruction that was read from a word. -/
theorem obstacle_decode (machine : Machine) (pc : Address) (word : UInt16) :
    machine.obstacle pc (.decode word) = none ∨
      ∃ fault, machine.obstacle pc (.decode word) = some (.fault fault) := by
  have room : ∀ target, Instruction.decode word = .jumpOffset target → target.toNat ≤ 0xFF00 := by
    intro target read
    have fits := Instruction.encodable_decode word
    rw [read] at fits
    exact Nat.le_of_lt (Nat.lt_trans fits (by decide))
  cases found : machine.obstacle pc (.decode word) with
  | none => exact Or.inl rfl
  | some failure =>
      cases failure with
      | fault fault => exact Or.inr ⟨fault, rfl⟩
      | overflow kind => exact absurd found (obstacle_ne_overflow kind room)

/-! ## Steps -/

/-- A step without an obstacle executes the instruction and brings the timers up to date. -/
theorem step_of_obstacle_eq_none (now : Time) (running : machine.state = .running)
    (free : machine.obstacle machine.pc (.decode machine.currentWord) = none) :
    (machine.step now).result = .ok (Instruction.decode machine.currentWord).outcome ∧
      (machine.step now).machine =
        let executed :=
          (machine.advance.execute (.decode machine.currentWord) machine.pc).machine
        { executed with timers := executed.timers.settled now } := by
  have result := result_execute machine.advance (.decode machine.currentWord) machine.pc
  simp only [obstacle_advance, free] at result
  have succeeded : machine.runInstruction.result =
      .ok (Instruction.decode machine.currentWord).outcome := by
    simp [runInstruction, fetch, result]
  rw [step, running]
  simp only
  rw [Report.synced_of_ok succeeded]
  refine ⟨succeeded, ?_⟩
  simp [runInstruction, fetch, result]

/-- A step that meets an obstacle goes back to its instruction and stands still from then on. -/
theorem step_of_obstacle_eq_fault {fault : Fault} (now : Time)
    (running : machine.state = .running)
    (blocked : machine.obstacle machine.pc (.decode machine.currentWord) = some (.fault fault)) :
    (machine.step now).result = .error (.fault fault) ∧
      (machine.step now).machine =
        { machine with pc := machine.pc.wrap, state := .faulted fault } := by
  have result := result_execute machine.advance (.decode machine.currentWord) machine.pc
  have unchanged := machine_execute_of_obstacle (obstacle_advance.trans blocked)
  simp only [obstacle_advance, blocked] at result
  have failed : machine.runInstruction.result = .error (.fault fault) := by
    simp [runInstruction, fetch, result]
  rw [step, running]
  simp only
  rw [Report.synced_of_error failed]
  refine ⟨failed, ?_⟩
  simp only [runInstruction, fetch, result, unchanged]
  rfl

theorem step_of_lowest?_eq_none {register : UInt8} {held : UInt16} (now : Time)
    (waiting : machine.state = .awaitingKey register held)
    (quiet : Keypad.lowest? (machine.keypad.mask &&& ~~~held) = none) :
    (machine.step now).result = .ok .awaitingKey ∧
      (machine.step now).machine =
        { machine with
          state := .awaitingKey register machine.keypad.mask
          timers := machine.timers.settled now } := by
  have succeeded : (machine.pollKey register held).result = .ok .awaitingKey := by
    simp [pollKey, quiet]
  rw [step, waiting]
  simp only
  rw [Report.synced_of_ok succeeded]
  refine ⟨succeeded, ?_⟩
  simp [pollKey, quiet]

theorem step_of_lowest?_eq_some {register : UInt8} {held : UInt16} {key : Nibble} (now : Time)
    (waiting : machine.state = .awaitingKey register held)
    (pressed : Keypad.lowest? (machine.keypad.mask &&& ~~~held) = some key) :
    (machine.step now).result = .ok (.executed (.awaitKey register)) ∧
      (machine.step now).machine =
        { machine with
          registers := machine.registers.set register (UInt8.ofNat key.val)
          pc := (machine.pc + 2).wrap
          state := .running
          timers := machine.timers.settled now } := by
  have succeeded : (machine.pollKey register held).result =
      .ok (.executed (.awaitKey register)) := by
    simp [pollKey, pressed]
  rw [step, waiting]
  simp only
  rw [Report.synced_of_ok succeeded]
  refine ⟨succeeded, ?_⟩
  simp [pollKey, pressed, setRegister, advance]

theorem step_of_faulted {cause : Fault} (now : Time) (halted : machine.state = .faulted cause) :
    machine.step now = ⟨machine, .error (.fault (.halted cause)), []⟩ := by
  rw [step, halted]

/-- The ways a step can go. -/
inductive StepCase (machine : Machine) (now : Time) : Prop
  | executed (running : machine.state = .running)
      (free : machine.obstacle machine.pc (.decode machine.currentWord) = none)
      (result_eq : (machine.step now).result =
        .ok (Instruction.decode machine.currentWord).outcome)
      (machine_eq : (machine.step now).machine =
        let executed :=
          (machine.advance.execute (.decode machine.currentWord) machine.pc).machine
        { executed with timers := executed.timers.settled now })
  | blocked (fault : Fault) (running : machine.state = .running)
      (blocked : machine.obstacle machine.pc (.decode machine.currentWord) =
        some (.fault fault))
      (result_eq : (machine.step now).result = .error (.fault fault))
      (machine_eq : (machine.step now).machine =
        { machine with pc := machine.pc.wrap, state := .faulted fault })
  | waited (register : UInt8) (held : UInt16)
      (waiting : machine.state = .awaitingKey register held)
      (quiet : Keypad.lowest? (machine.keypad.mask &&& ~~~held) = none)
      (result_eq : (machine.step now).result = .ok .awaitingKey)
      (machine_eq : (machine.step now).machine =
        { machine with
          state := .awaitingKey register machine.keypad.mask
          timers := machine.timers.settled now })
  | taken (register : UInt8) (held : UInt16) (key : Nibble)
      (waiting : machine.state = .awaitingKey register held)
      (pressed : Keypad.lowest? (machine.keypad.mask &&& ~~~held) = some key)
      (result_eq : (machine.step now).result = .ok (.executed (.awaitKey register)))
      (machine_eq : (machine.step now).machine =
        { machine with
          registers := machine.registers.set register (UInt8.ofNat key.val)
          pc := (machine.pc + 2).wrap
          state := .running
          timers := machine.timers.settled now })
  | halted (cause : Fault) (halted : machine.state = .faulted cause)
      (result_eq : (machine.step now).result = .error (.fault (.halted cause)))
      (machine_eq : (machine.step now).machine = machine)

theorem stepCase (machine : Machine) (now : Time) : machine.StepCase now := by
  cases state : machine.state with
  | running =>
      rcases obstacle_decode machine machine.pc machine.currentWord with free | ⟨fault, blocked⟩
      · have stepped := step_of_obstacle_eq_none now state free
        exact .executed state free stepped.1 stepped.2
      · have stepped := step_of_obstacle_eq_fault now state blocked
        exact .blocked fault state blocked stepped.1 stepped.2
  | awaitingKey register held =>
      cases pressed : Keypad.lowest? (machine.keypad.mask &&& ~~~held) with
      | none =>
          have stepped := step_of_lowest?_eq_none now state pressed
          exact .waited register held state pressed stepped.1 stepped.2
      | some key =>
          have stepped := step_of_lowest?_eq_some now state pressed
          exact .taken register held key state pressed stepped.1 stepped.2
  | faulted cause =>
      have stepped := step_of_faulted now state
      exact .halted cause state (by rw [stepped]) (by rw [stepped])

/-- A running machine whose step succeeds met no obstacle. -/
theorem obstacle_of_step_eq_ok {now : Time} {outcome : Outcome}
    (running : machine.state = .running) (succeeded : (machine.step now).result = .ok outcome) :
    machine.obstacle machine.pc (.decode machine.currentWord) = none := by
  rcases obstacle_decode machine machine.pc machine.currentWord with free | ⟨fault, blocked⟩
  · exact free
  · rw [(step_of_obstacle_eq_fault now running blocked).1] at succeeded
    cases succeeded

end Machine

end Chip8

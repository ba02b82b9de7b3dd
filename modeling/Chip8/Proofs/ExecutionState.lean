import Chip8.Proofs.Faults
import Chip8.Proofs.KeyWait
import Mathlib

/-!
# What a step tells of the state of execution

A host that drives a machine learns from the result of a step alone whether the machine runs on,
waits for a key or stands still. Only a reset leaves the last of these. Until then every step is
refused for the one cause, and what else the host does is only what it writes itself.

The fault of a machine that is driven by its own program is always a misuse of the call stack:
steps are the only actions that put a machine at fault, and a machine at fault does not step.
-/

namespace Chip8

/-- The call stack was used beyond its ends. -/
def Fault.IsStack : Fault → Prop
  | stackOverflow _ | stackUnderflow _ => True
  | programTooLarge _ _ | halted _ => False

/-- A state of execution that words of memory can lead to. -/
def ExecutionState.Proper : ExecutionState → Prop
  | running => True
  | awaitingKey register _ => register.toNat < 16
  | faulted cause => cause.IsStack

/-- The result of a step tells the state of execution after it. -/
structure Tells (result : Except Failure Outcome) (state : ExecutionState) : Prop where
  awaiting : result = .ok .awaitingKey ↔ ∃ register held, state = .awaitingKey register held
  running : ((∃ instruction, result = .ok (.executed instruction)) ∨
    ∃ word, result = .ok (.unrecognized word)) ↔ state = .running
  faulted : (∃ failure, result = .error failure) ↔ ∃ cause, state = .faulted cause

theorem tells_awaitingKey (register : UInt8) (held : UInt16) :
    Tells (.ok .awaitingKey) (.awaitingKey register held) :=
  ⟨by simp, by simp, by simp⟩

theorem tells_executed (instruction : Instruction) : Tells (.ok (.executed instruction)) .running :=
  ⟨by simp, by simp, by simp⟩

theorem tells_unrecognized (word : UInt16) : Tells (.ok (.unrecognized word)) .running :=
  ⟨by simp, by simp, by simp⟩

theorem tells_error (failure : Failure) (cause : Fault) :
    Tells (.error failure) (.faulted cause) :=
  ⟨by simp, by simp, by simp⟩

namespace Machine

variable {machine : Machine} {now : Time}

/-! ## One step -/

theorem tells_execute {instruction : Instruction} {pc : Address}
    (running : machine.state = .running) :
    Tells (.ok instruction.outcome) (machine.execute instruction pc).machine.state := by
  rw [state_execute, running]
  cases instruction with
  | awaitKey x => exact tells_awaitingKey x _
  | unknown word => exact tells_unrecognized word
  | _ => exact tells_executed _

theorem tells_step (machine : Machine) (now : Time) :
    Tells (machine.step now).result (machine.step now).machine.state := by
  cases machine.stepCase now with
  | executed running free result_eq machine_eq =>
      rw [result_eq, machine_eq]
      exact tells_execute running
  | blocked fault running blocked result_eq machine_eq =>
      rw [result_eq, machine_eq]
      exact tells_error _ fault
  | waited register held waiting quiet result_eq machine_eq =>
      rw [result_eq, machine_eq]
      exact tells_awaitingKey register _
  | taken register held key waiting pressed result_eq machine_eq =>
      rw [result_eq, machine_eq]
      exact tells_executed _
  | halted cause halted result_eq machine_eq =>
      rw [result_eq, machine_eq, halted]
      exact tells_error _ cause

/-- The wait for a key ends in no fault. -/
theorem step_ne_faulted_of_awaitingKey {register : UInt8} {held : UInt16} (cause : Fault)
    (waiting : machine.state = .awaitingKey register held) :
    (machine.step now).machine.state ≠ .faulted cause := by
  intro faulted
  cases machine.stepCase now with
  | executed running | blocked fault running =>
      rw [waiting] at running
      cases running
  | waited register held waiting quiet result_eq machine_eq =>
      rw [machine_eq] at faulted
      cases faulted
  | taken register held key waiting pressed result_eq machine_eq =>
      rw [machine_eq] at faulted
      cases faulted
  | halted cause halted =>
      rw [waiting] at halted
      cases halted

/-! ## Standing still -/

/-- Until a reset every step is refused for the same cause, changes nothing and makes no record. -/
def HaltedBy (machine : Machine) (cause : Fault) : Prop :=
  ∀ script, (∀ event ∈ script, event.action.Continues) → ∀ now,
    (machine.play script).step now =
        ⟨machine.play script, .error (.fault (.halted cause)), []⟩ ∧
      ((machine.play script).reset now).state = .running

theorem play_faulted {script : List Event} {cause : Fault} (halted : machine.state = .faulted cause)
    (continues : ∀ event ∈ script, event.action.Continues) :
    (machine.play script).state = .faulted cause := by
  apply @play_preserves Action.Continues (fun other => other.state = .faulted cause) machine script
    _ halted continues
  intro other now action halted continues
  rcases continues with write | rfl
  · rw [(perform_of_isWrite other now write).2]
    exact halted
  · simp only [perform, Report.map, step_of_faulted now halted]
    exact halted

theorem haltedBy_of_faulted {cause : Fault} (halted : machine.state = .faulted cause) :
    machine.HaltedBy cause := by
  intro script continues now
  exact ⟨step_of_faulted now (play_faulted halted continues), rfl⟩

theorem state_of_step_eq_fault {fault : Fault} (stack : fault.IsStack)
    (failed : (machine.step now).result = .error (.fault fault)) :
    (machine.step now).machine.state = .faulted fault := by
  cases machine.stepCase now with
  | executed running free result_eq | waited register held waiting quiet result_eq
  | taken register held key waiting pressed result_eq =>
      rw [result_eq] at failed
      cases failed
  | blocked cause running blocked result_eq machine_eq =>
      rw [result_eq] at failed
      cases failed
      rw [machine_eq]
  | halted cause halted result_eq =>
      rw [result_eq] at failed
      cases failed
      cases stack

/-! ## Machines driven by their programs -/

theorem isStack_of_obstacle {instruction : Instruction} {pc : Address} {fault : Fault}
    (blocked : machine.obstacle pc instruction = some (.fault fault)) : fault.IsStack := by
  cases instruction with
  | ret | call =>
      simp only [obstacle, Option.ite_none_right_eq_some, Option.some.injEq,
        Failure.fault.injEq] at blocked
      rw [← blocked.2]
      trivial
  | jumpOffset => simp [obstacle] at blocked
  | _ => cases blocked

theorem proper_step (proper : machine.state.Proper) :
    (machine.step now).machine.state.Proper := by
  cases machine.stepCase now with
  | executed running free result_eq machine_eq =>
      have fits := Instruction.encodable_decode machine.currentWord
      rw [machine_eq]
      simp only [state_execute]
      split
      · rename_i x read
        rw [read] at fits
        exact fits
      · exact proper
  | blocked fault running blocked result_eq machine_eq =>
      rw [machine_eq]
      exact isStack_of_obstacle blocked
  | waited register held waiting quiet result_eq machine_eq =>
      rw [waiting] at proper
      rw [machine_eq]
      exact proper
  | taken register held key waiting pressed result_eq machine_eq =>
      rw [machine_eq]
      trivial
  | halted cause halted result_eq machine_eq =>
      rw [machine_eq]
      exact proper

theorem Reachable.proper (reachable : machine.Reachable Action.Drives) :
    machine.state.Proper := by
  apply @Reachable.invariant _ (fun other => other.state.Proper) _ reachable
  · intro config random start
    trivial
  · intro other now action proper drives
    rcases drives with (write | rfl) | rfl
    · rw [(perform_of_isWrite other now write).2]
      exact proper
    · exact proper_step proper
    · trivial

theorem failure_of_proper {failure : Failure} (proper : machine.state.Proper)
    (failed : (machine.step now).result = .error failure) :
    ∃ cause, cause.IsStack ∧ (machine.step now).machine.state = .faulted cause ∧
      (failure = .fault cause ∨ failure = .fault (.halted cause)) := by
  cases machine.stepCase now with
  | executed running free result_eq | waited register held waiting quiet result_eq
  | taken register held key waiting pressed result_eq =>
      rw [result_eq] at failed
      cases failed
  | blocked fault running blocked result_eq machine_eq =>
      rw [result_eq] at failed
      cases failed
      rw [machine_eq]
      exact ⟨fault, isStack_of_obstacle blocked, rfl, Or.inl rfl⟩
  | halted cause halted result_eq machine_eq =>
      rw [result_eq] at failed
      cases failed
      rw [halted] at proper
      rw [machine_eq]
      exact ⟨cause, proper, halted, Or.inr rfl⟩

/-- The result of a step tells the state of execution after it, a wait ends in no fault, and a
fault of the call stack halts the machine until a reset. A machine driven by its own program waits
only for a register that there is and fails only for a misuse of the call stack. -/
theorem step_tells_state (machine : Machine) (now : Time) :
    Tells (machine.step now).result (machine.step now).machine.state ∧
      (∀ register held cause, machine.state = .awaitingKey register held →
        (machine.step now).machine.state ≠ .faulted cause) ∧
      (∀ fault, fault.IsStack → (machine.step now).result = .error (.fault fault) →
        (machine.step now).machine.HaltedBy fault) ∧
      (machine.Reachable Action.Drives →
        (∀ register held, machine.state = .awaitingKey register held → register.toNat < 16) ∧
          ∀ failure, (machine.step now).result = .error failure →
            ∃ cause, cause.IsStack ∧ (machine.step now).machine.state = .faulted cause ∧
              (failure = .fault cause ∨ failure = .fault (.halted cause))) := by
  refine ⟨tells_step machine now, ?_, ?_, ?_⟩
  · intro register held cause waiting
    exact step_ne_faulted_of_awaitingKey cause waiting
  · intro fault stack failed
    exact haltedBy_of_faulted (state_of_step_eq_fault stack failed)
  · intro reachable
    have proper := reachable.proper
    constructor
    · intro register held waiting
      rw [waiting] at proper
      exact proper
    · intro failure failed
      exact failure_of_proper proper failed

/-- A program that returns though nothing called it. -/
def stray : Machine :=
  (Machine.new .standard (.constant 0) .zero).play [⟨.zero, .loadProgram [0x00, 0xEE]⟩]

/-- The stray return halts the machine, and loading another program does not set it going. A
program that waits for a key goes on waiting. -/
theorem stray_return_halts :
    (stray.step .zero).result = .error (.fault (.stackUnderflow 0x200)) ∧
      (∃ cause, cause.IsStack ∧ (stray.step .zero).machine.state = .faulted cause) ∧
      (∃ halted : Machine,
        halted = (stray.step .zero).machine.play
          [⟨.zero, .loadProgram [0x12, 0x00]⟩, ⟨.zero, .step⟩] ∧
        halted.step .zero = ⟨halted, .error (.fault (.halted (.stackUnderflow 0x200))), []⟩) ∧
      ∃ register held, (parked.step .zero).machine.state = .awaitingKey register held ∧
        register.toNat < 16 ∧
        ∀ cause, ((parked.step .zero).machine.step .zero).machine.state ≠ .faulted cause := by
  have stray_memory : stray.memory = Memory.empty.write 512 [0x00, 0xEE] := rfl
  have stray_word : stray.currentWord = 0x00EE := by
    rw [← UInt16.toNat_inj]
    exact toNat_currentWord_of_write stray_memory rfl
  have blocked : stray.obstacle stray.pc (.decode stray.currentWord) =
      some (.fault (.stackUnderflow 0x200)) := by
    rw [stray_word]
    rfl
  have failed := (@step_of_obstacle_eq_fault stray _ .zero rfl blocked).1
  have loaded : ∀ program, ((Machine.new .standard (.constant 0) .zero).play
      [⟨.zero, .loadProgram program⟩]).Reachable Action.Drives := by
    intro program
    exact ⟨.standard, .constant 0, .zero, _,
      by simp [Action.Drives, Action.Continues, Action.IsWrite], rfl⟩
  have continues : ∀ event ∈ [(⟨.zero, .loadProgram [0x12, 0x00]⟩ : Event), ⟨.zero, .step⟩],
      event.action.Continues := by
    simp [Action.Continues, Action.IsWrite]
  rcases step_tells_state stray .zero with ⟨-, -, halts, driven⟩
  have refused := halts (.stackUnderflow 0x200) trivial failed _ continues .zero
  rcases (driven (loaded _)).2 _ failed with ⟨cause, stack, faulted, -⟩
  have parked_memory : parked.memory = Memory.empty.write 512 [0xF5, 0x0A] := rfl
  have parked_word : parked.currentWord = 0xF50A := by
    rw [← UInt16.toNat_inj]
    exact toNat_currentWord_of_write parked_memory rfl
  have due : Instruction.decode parked.currentWord = .awaitKey 5 := by
    rw [parked_word]
    rfl
  have place : parked.pc.toNat = 512 := rfl
  have waits := waits_of_decode_eq_awaitKey .zero (by omega) rfl due
  have waiting : (parked.step .zero).machine.state = .awaitingKey 5 parked.keypad.mask := by
    rw [waits.2]
  have stepped : ∀ machine : Machine, machine.Reachable Action.Drives →
      (machine.step .zero).machine.Reachable Action.Drives := by
    intro machine reachable
    exact reachable.perform .zero (Or.inl (Or.inr rfl))
  rcases step_tells_state (parked.step .zero).machine .zero with ⟨-, unharmed, -, driven⟩
  exact ⟨failed, ⟨cause, stack, faulted⟩, ⟨_, rfl, refused.1⟩, 5, _, waiting,
    (driven (stepped parked (loaded _))).1 5 _ waiting, fun cause => unharmed 5 _ cause waiting⟩

end Machine

end Chip8

import Chip8.Proofs.Execution
import Chip8.Proofs.Fetching
import Chip8.Proofs.Forms
import Chip8.Proofs.Script
import Mathlib

/-!
# What an action executes

The host makes a machine execute instructions in two ways. A step of a running machine executes the
instruction that the form of the word due stands for, and the host may hand over an instruction of
its own. `Machine.Executes` covers both, so what holds of an instruction is said of actions once.
-/

namespace Chip8

namespace Machine

/-- The action makes the machine execute the instruction. -/
inductive Executes (machine : Machine) : Action → Instruction → Prop
  | step {instruction : Instruction} (running : machine.state = .running)
      (due : instruction.Form (machine.memory.number machine.pc.toNat)) :
      Executes machine .step instruction
  | execute (instruction : Instruction) (pc : Address) :
      Executes machine (.execute instruction pc) instruction

variable {machine : Machine} {instruction : Instruction} {action : Action} {now : Time}

theorem executes_step_iff :
    machine.Executes .step instruction ↔
      machine.state = .running ∧ Instruction.decode machine.currentWord = instruction := by
  rw [← Instruction.form_iff, toNat_currentWord]
  constructor
  · rintro ⟨running, due⟩
    exact ⟨running, due⟩
  · rintro ⟨running, due⟩
    exact .step running due

theorem executes_execute_iff {other : Instruction} {pc : Address} :
    machine.Executes (.execute other pc) instruction ↔ other = instruction := by
  constructor
  · rintro ⟨⟩
    rfl
  · rintro rfl
    exact .execute other pc

theorem result_step_eq_executed_iff (carried : instruction.outcome = .executed instruction)
    (free : ∀ pc, machine.obstacle pc instruction = none) (now : Time) :
    (machine.step now).result = .ok (.executed instruction) ↔
      machine.Executes .step instruction := by
  rw [executes_step_iff]
  cases machine.stepCase now with
  | executed running unblocked result_eq =>
      simp only [result_eq, running, Except.ok.injEq, true_and]
      constructor
      · exact Instruction.eq_of_outcome_eq_executed
      · intro due
        rw [due, carried]
  | blocked fault running blocked result_eq =>
      constructor
      · simp [result_eq]
      · rintro ⟨-, due⟩
        simp [due, free] at blocked
  | taken register held key waiting pressed result_eq =>
      constructor
      · intro told
        rw [result_eq, Except.ok.injEq, Outcome.executed.injEq] at told
        -- The wait for a key tells of itself only when it is over.
        subst told
        cases carried
      · simp [waiting]
  | waited register held waiting quiet result_eq => simp [result_eq, waiting]
  | halted cause halted result_eq => simp [result_eq, halted]

/-- An instruction that nothing can be in the way of is told of by exactly the actions that make the
machine execute it. -/
theorem result_perform_eq_executed_iff (carried : instruction.outcome = .executed instruction)
    (free : ∀ pc, machine.obstacle pc instruction = none) (now : Time) (action : Action) :
    (machine.perform now action).result = .ok (.outcome (.executed instruction)) ↔
      machine.Executes action instruction := by
  cases action with
  | step =>
      rw [← result_step_eq_executed_iff carried free now]
      cases result : (machine.step now).result <;> simp [perform, Report.map, Except.map, result]
  | execute other pc =>
      rw [executes_execute_iff]
      simp only [perform, Report.map, result_execute]
      constructor
      · intro told
        cases blocked : machine.obstacle pc other with
        | none =>
            simp only [blocked, Except.map, Except.ok.injEq, Answer.outcome.injEq] at told
            exact Instruction.eq_of_outcome_eq_executed told
        | some failure => simp [blocked, Except.map] at told
      · rintro rfl
        simp [free, carried, Except.map]
  | loadProgram program =>
      constructor
      · intro told
        simp only [perform, Report.map, loadProgram] at told
        split at told <;> cases told
      · intro executes
        cases executes
  | _ =>
      constructor
      · intro told
        cases told
      · intro executes
        cases executes

/-- An action that makes the machine execute an instruction comes to what the instruction does, apart
from where the program counter stood, and brings the timers up to date if it is a step. -/
theorem exists_perform_eq_of_executes (executes : machine.Executes action instruction)
    (free : ∀ pc, machine.obstacle pc instruction = none) (now : Time) :
    ∃ next pc timers, (machine.perform now action).machine =
      { (({ machine with pc := next } : Machine).execute instruction pc).machine with timers } := by
  cases executes with
  | execute => exact ⟨_, _, _, rfl⟩
  | step running due =>
      have read : Instruction.decode machine.currentWord = instruction :=
        (executes_step_iff.mp (.step running due)).2
      have stepped := (step_of_obstacle_eq_none now running (by rw [read, free])).2
      rw [read] at stepped
      exact ⟨_, _, _, stepped⟩

end Machine

end Chip8

import Chip8.Proofs.Execution
import Chip8.Proofs.Script
import Mathlib

/-!
# Settings

How the timers are driven and which dialect a machine speaks are settled when it is switched on.
No action of the host changes them, a reset included.
-/

namespace Chip8

namespace Machine

/-- What was chosen for the machine when it was switched on. -/
def settings (machine : Machine) : TimerMode × Dialect :=
  (machine.timers.mode, machine.dialect)

variable {machine : Machine}

theorem settings_execute (instruction : Instruction) (pc : Address) :
    (machine.execute instruction pc).machine.settings = machine.settings := by
  cases instruction with
  | ret | jump | call | skip | jumpOffset =>
      exact part_execute_of_branches settings (fun _ _ => rfl) trivial
  | _ => rfl

theorem settings_settled (machine : Machine) (now : Time) :
    ({ machine with timers := machine.timers.settled now } : Machine).settings =
      machine.settings := by
  simp [settings]

theorem settings_step (now : Time) : (machine.step now).machine.settings = machine.settings := by
  cases machine.stepCase now with
  | executed running free result_eq machine_eq =>
      have executed := @settings_execute machine.advance (.decode machine.currentWord) machine.pc
      rw [machine_eq]
      exact (settings_settled _ now).trans executed
  | blocked fault running blocked result_eq machine_eq =>
      rw [machine_eq]
      rfl
  | waited register held waiting quiet result_eq machine_eq
  | taken register held key waiting pressed result_eq machine_eq =>
      rw [machine_eq]
      exact settings_settled machine now
  | halted cause halted result_eq machine_eq => rw [machine_eq]

theorem settings_perform (now : Time) (action : Action) :
    (machine.perform now action).machine.settings = machine.settings := by
  cases action with
  | loadProgram program =>
      simp only [perform, Report.map, loadProgram]
      split <;> rfl
  | step => exact settings_step now
  | execute instruction pc => exact settings_execute instruction pc
  | _ => rfl

theorem mode_perform (now : Time) (action : Action) :
    (machine.perform now action).machine.timers.mode = machine.timers.mode :=
  congrArg Prod.fst (settings_perform now action)

theorem settings_play (script : List Event) :
    (machine.play script).settings = machine.settings := by
  apply @play_preserves (fun _ => True) (fun other => other.settings = machine.settings)
  · intro other now action same _
    rw [settings_perform, same]
  · rfl
  · simp

end Machine

end Chip8

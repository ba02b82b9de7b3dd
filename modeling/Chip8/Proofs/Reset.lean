import Chip8.Proofs.Likeness
import Chip8.Proofs.Settings
import Mathlib

/-!
# Reset

A reset leaves a machine that its host cannot tell from one just switched on. It has the settings
it was switched on with, and whatever else a run can change is back at its start, but for three
parts. The keypad belongs to the host, the random numbers go on where they were, and the draw flag
is up, since the host has yet to see that the screen is dark.

The machine just switched on differs from it in the draw flag alone, for which no instruction asks.
How the flag stands can be read off the answers to a script: it is as the last action left it that
had to do with drawing, and as it was before if there was no such action.
-/

namespace Chip8

/-- The screen was painted or cleared. -/
def Outcome.redraws : Outcome → Bool
  | .executed .clearScreen | .executed (.draw _ _ _) => true
  | _ => false

/-- How an action with this result leaves the draw flag, if it has to do with drawing. -/
def Action.drawFlag? : Action → Except Failure Answer → Option Bool
  | .reset, _ => some true
  | .clearDrawFlag, _ => some false
  | _, .ok (.outcome outcome) => if outcome.redraws then some true else none
  | _, _ => none

/-- How a script with these replies leaves the draw flag, if any of it has to do with drawing. -/
def drawFlag? : List Event → List (Except Failure Answer × List LogRecord) → Option Bool
  | event :: script, reply :: replies =>
    (drawFlag? script replies).or (event.action.drawFlag? reply.1)
  | _, _ => none

namespace Machine

variable {machine : Machine} {now : Time}

/-! ## The draw flag -/

theorem dirty_execute (machine : Machine) (instruction : Instruction) (pc : Address) :
    (machine.execute instruction pc).machine.screen.dirty =
      (instruction.outcome.redraws || machine.screen.dirty) := by
  cases instruction with
  | ret | jump | call | skip | jumpOffset =>
      exact part_execute_of_branches (·.screen.dirty) (fun _ _ => rfl) trivial
  | _ => rfl

theorem screen_execute_of_quiet {instruction : Instruction}
    (quiet : instruction.outcome.redraws = false) (machine : Machine) (pc : Address) :
    (machine.execute instruction pc).machine.screen = machine.screen := by
  cases instruction with
  | ret | jump | call | skip | jumpOffset =>
      exact part_execute_of_branches (·.screen) (fun _ _ => rfl) trivial
  | clearScreen | draw => cases quiet
  | _ => rfl

theorem getD_redraws (redraws dirty : Bool) :
    (if redraws then some true else none).getD dirty = (redraws || dirty) := by
  cases redraws <;> rfl

theorem dirty_step (machine : Machine) (now : Time) :
    (machine.step now).machine.screen.dirty =
      (Action.step.drawFlag? (machine.perform now .step).result).getD machine.screen.dirty := by
  simp only [perform, Report.map]
  cases machine.stepCase now with
  | executed running free result_eq machine_eq =>
      rw [result_eq, machine_eq]
      refine (dirty_execute machine.advance _ machine.pc).trans ?_
      exact (getD_redraws _ _).symm
  | blocked fault running blocked result_eq machine_eq
  | waited register held waiting quiet result_eq machine_eq
  | taken register held key waiting pressed result_eq machine_eq
  | halted cause halted result_eq machine_eq =>
      rw [result_eq, machine_eq]
      rfl

theorem dirty_perform (machine : Machine) (now : Time) (action : Action) :
    (machine.perform now action).machine.screen.dirty =
      (action.drawFlag? (machine.perform now action).result).getD machine.screen.dirty := by
  cases action with
  | step => exact dirty_step machine now
  | execute instruction pc =>
      simp only [perform, Report.map, result_execute, dirty_execute]
      cases blocked : machine.obstacle pc instruction with
      | none => exact (getD_redraws _ _).symm
      | some failure =>
          rw [← dirty_execute, machine_execute_of_obstacle blocked]
          rfl
  | loadProgram program =>
      simp only [perform, Report.map, loadProgram]
      split <;> rfl
  | _ => rfl

/-- The answers to a script tell how the draw flag stands after it. -/
theorem dirty_play (machine : Machine) (script : List Event) :
    (machine.play script).screen.dirty =
      (drawFlag? script (machine.replies script)).getD machine.screen.dirty := by
  induction script generalizing machine with
  | nil => rfl
  | cons event script ih =>
      simp only [play, replies, drawFlag?]
      rw [ih, dirty_perform]
      cases drawFlag? script ((machine.perform event.now event.action).machine.replies script) with
      | none => rfl
      | some dirty => rfl

/-! ## Switched off and on again -/

/-- The settings are all that a machine keeps of its past when it is reset, the keypad and the
random numbers apart. -/
theorem reset_apartFrom_drawFlag {config : Config} {random : Source UInt32} {start : Time}
    (kept : machine.settings = (Machine.new config random start).settings) :
    (machine.reset now).apartFrom .drawFlag =
      { Machine.new config machine.random now with keypad := machine.keypad }.apartFrom
        .drawFlag := by
  rw [settings, settings, Prod.mk.injEq] at kept
  rcases kept with ⟨mode_eq, dialect_eq⟩
  simp only [reset, clearMemory, apartFrom, Timers.apartFrom, Timers.reset, mode_eq, dialect_eq]
  rfl

/-- After any run, a machine that is reset answers every later script as one does that is switched
on at that moment, with the keys as they are and the random numbers from where they are. It stays
like it in all but the draw flag, and the flag differs until an action has to do with drawing. -/
theorem reset_eq_new (config : Config) (random : Source UInt32) (start now : Time)
    (earlier later : List Event) :
    let used := (Machine.new config random start).play earlier
    let fresh := { Machine.new config used.random now with keypad := used.keypad }
    let flag := drawFlag? later (fresh.replies later)
    (used.reset now).replies later = fresh.replies later ∧
      ((used.reset now).play later).apartFrom .drawFlag =
        (fresh.play later).apartFrom .drawFlag ∧
      ((used.reset now).play later).screen.dirty = flag.getD true ∧
      (fresh.play later).screen.dirty = flag.getD false := by
  intro used fresh flag
  have like : (used.reset now).apartFrom .drawFlag = fresh.apartFrom .drawFlag :=
    reset_apartFrom_drawFlag (settings_play earlier)
  rcases replies_eq_of_apartFrom_eq (by simp) like later with ⟨replies_eq, alike⟩
  refine ⟨replies_eq, alike, ?_, dirty_play fresh later⟩
  rw [dirty_play, replies_eq]
  rfl

end Machine

end Chip8

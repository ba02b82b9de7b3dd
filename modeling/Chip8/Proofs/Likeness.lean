import Chip8.Proofs.Veils
import Mathlib

/-!
# Machines that are alike

Some parts of a machine are there for the host, or to say how its timers are driven, and no
instruction asks for them. `Machine.apartFrom` gives such an aspect a fixed value, so two machines
are alike apart from an aspect if they become equal when it is taken away. Taking it away is a veil
behind which all instructions come to the same, so alike machines give the same answers along every
script.

The clock differs from the other aspects in that a step asks for the moment. What is said here of
steps leaves it out.
-/

namespace Chip8

/-- A part of a machine that no instruction asks for. -/
inductive Aspect
  /-- Whether the host should draw the screen. -/
  | drawFlag
  /-- How the timers are driven, and up to which moment periods have been counted. -/
  | clock
  deriving DecidableEq

def Screen.apartFrom (screen : Screen) : Aspect → Screen
  | .drawFlag => screen.clean
  | .clock => screen

def Timers.apartFrom (timers : Timers) : Aspect → Timers
  | .drawFlag => timers
  | .clock => { timers with mode := .perStep, lastUpdated := .zero }

/-- The machine with one aspect at a fixed value. -/
def Machine.apartFrom (machine : Machine) (aspect : Aspect) : Machine :=
  { machine with
    screen := machine.screen.apartFrom aspect
    timers := machine.timers.apartFrom aspect }

def Report.apartFrom {α : Type} (report : Report α) (aspect : Aspect) : Report α :=
  { report with machine := report.machine.apartFrom aspect }

/-- The veil that gives an aspect its fixed value. -/
def Aspect.veil (aspect : Aspect) : Veil where
  index := id
  screen := (·.apartFrom aspect)
  timers := (·.apartFrom aspect)
  random := id

theorem Aspect.hides_veil (aspect : Aspect) : aspect.veil.Hides where
  again machine := by
    cases aspect <;> rfl
  clean screen := by
    cases aspect <;> rfl
  execute machine instruction pc := by
    have branching := aspect.veil.execute_of_branches machine instruction pc
    cases instruction with
    | ret | jump | call | skip | jumpOffset =>
        rw [branching trivial]
        cases aspect <;> rfl
    | _ => cases aspect <;> rfl

theorem Aspect.timers_veil {aspect : Aspect} (timed : aspect ≠ .clock) (timers : Timers) :
    aspect.veil.timers timers = timers := by
  cases aspect with
  | drawFlag => rfl
  | clock => exact absurd rfl timed

variable {α : Type} {aspect : Aspect} {now later : Time}

theorem Report.synced_apartFrom {report other : Report α}
    (like : report.apartFrom aspect = other.apartFrom aspect)
    (settled : (report.machine.timers.settled now).apartFrom aspect =
      (other.machine.timers.settled later).apartFrom aspect) :
    (report.synced now).apartFrom aspect = (other.synced later).apartFrom aspect :=
  @Report.synced_veiled α aspect.veil now later report other like settled

namespace Machine

section Actions

variable (machine : Machine)

theorem runInstruction_apartFrom (aspect : Aspect) :
    (machine.apartFrom aspect).runInstruction.apartFrom aspect =
      machine.runInstruction.apartFrom aspect :=
  aspect.hides_veil.runInstruction machine

theorem pollKey_apartFrom (aspect : Aspect) (register : UInt8) (held : UInt16) :
    ((machine.apartFrom aspect).pollKey register held).apartFrom aspect =
      (machine.pollKey register held).apartFrom aspect :=
  aspect.hides_veil.pollKey machine register held

/-- For an aspect other than the clock the moments have to be the same. -/
theorem perform_apartFrom_of_step {action : Action} (moment : aspect ≠ .clock → later = now)
    (stepped : action = .step → ((machine.apartFrom aspect).step later).apartFrom aspect =
      (machine.step now).apartFrom aspect) :
    ((machine.apartFrom aspect).perform later action).apartFrom aspect =
      (machine.perform now action).apartFrom aspect := by
  apply aspect.hides_veil.perform_of_step machine
  · cases aspect with
    | drawFlag =>
        rw [moment (by simp)]
        rfl
    | clock => rfl
  · exact stepped

end Actions

/-- Machines that are alike apart from an aspect other than the clock give the same answers and
stay alike. -/
theorem replies_eq_of_apartFrom_eq {first second : Machine} (timed : aspect ≠ .clock)
    (like : first.apartFrom aspect = second.apartFrom aspect) (script : List Event) :
    first.replies script = second.replies script ∧
      (first.play script).apartFrom aspect = (second.play script).apartFrom aspect :=
  aspect.hides_veil.replies_eq (Aspect.timers_veil timed) like script

end Machine

end Chip8

import Chip8.Machine.Action
import Mathlib

/-!
# Scripts and reachable machines

A script is what a host does with a machine, action by action, each at a moment of the host's
clock. The moments may come in any order unless a theorem says otherwise. A machine is reachable
by permitted actions if a script of them leads to it from a machine just switched on, whatever
the configuration, the random numbers and the moment of switching on.
-/

namespace Chip8

/-- An action of the host and the moment of its clock at which it happens. -/
structure Event where
  now : Time
  action : Action

namespace Action

/-- A jump with offset that is executed from outside leaves room for its offset; any other
action is free. -/
def Bounded : Action → Prop
  | execute (.jumpOffset target) _ => target.toNat ≤ 0xFF00
  | _ => True

/-- The host writes memory, keys or the draw flag, and neither resets the machine nor runs it. -/
def IsWrite : Action → Prop
  | loadGlyphs | loadProgram _ | writeMemory _ _ | setKey _ _ | setKeypad _ | holdKeys _
  | clearDrawFlag => True
  | reset | step | fetch | execute _ _ => False

/-- The host lets the machine run on, and writes to it at most. -/
def Continues (action : Action) : Prop := action.IsWrite ∨ action = .step

/-- The host uses the machine as a whole, and neither fetches nor executes on its own. -/
def Drives (action : Action) : Prop := action.Continues ∨ action = .reset

end Action

@[simp]
theorem Report.result_map_eq_error {α β : Type} {f : α → β} {report : Report α}
    {failure : Failure} :
    (report.map f).result = .error failure ↔ report.result = .error failure := by
  cases outcome : report.result <;> simp [Report.map, outcome, Except.map]

namespace Machine

/-- The machine after a script. -/
def play (machine : Machine) : List Event → Machine
  | [] => machine
  | event :: script => (machine.perform event.now event.action).machine.play script

/-- What the host learns along a script: the result of each action and the records it made. -/
def replies (machine : Machine) : List Event → List (Except Failure Answer × List LogRecord)
  | [] => []
  | event :: script =>
    let report := machine.perform event.now event.action
    (report.result, report.log) :: report.machine.replies script

/-- A script of permitted actions leads to the machine from one just switched on. -/
def Reachable (permitted : Action → Prop) (machine : Machine) : Prop :=
  ∃ config random start script, (∀ event ∈ script, permitted event.action) ∧
    (Machine.new config random start).play script = machine

variable {permitted : Action → Prop} {property : Machine → Prop} {machine : Machine}

/-- What the host writes reaches memory, the keypad and the draw flag, and nothing else. -/
theorem exists_perform_eq_of_isWrite {action : Action} (machine : Machine) (now : Time)
    (write : action.IsWrite) :
    ∃ memory keypad dirty, (machine.perform now action).machine =
      { machine with memory, keypad, screen := { machine.screen with dirty } } := by
  cases action with
  | loadProgram program =>
      simp only [perform, Report.map, loadProgram]
      split
      · exact ⟨_, _, _, rfl⟩
      · exact ⟨_, _, _, rfl⟩
  | reset | step | fetch | execute => cases write
  | _ => exact ⟨_, _, _, rfl⟩

/-- What every permitted action preserves, a script of them preserves. -/
theorem play_preserves {script : List Event}
    (preserved : ∀ machine now action, property machine → permitted action →
      property (machine.perform now action).machine)
    (holds : property machine) (allowed : ∀ event ∈ script, permitted event.action) :
    property (machine.play script) := by
  induction script generalizing machine with
  | nil => exact holds
  | cons event script ih =>
      rw [List.forall_mem_cons] at allowed
      exact ih (preserved machine event.now event.action holds allowed.1) allowed.2

theorem play_append (machine : Machine) (first second : List Event) :
    machine.play (first ++ second) = (machine.play first).play second := by
  induction first generalizing machine with
  | nil => rfl
  | cons event first ih => exact ih _

theorem play_append_step (machine : Machine) (script : List Event) (now : Time) :
    machine.play (script ++ [⟨now, .step⟩]) = ((machine.play script).step now).machine := by
  rw [play_append]
  rfl

theorem Reachable.perform {action : Action} (reachable : machine.Reachable permitted) (now : Time)
    (allowed : permitted action) : (machine.perform now action).machine.Reachable permitted := by
  rcases reachable with ⟨config, random, start, script, all_allowed, rfl⟩
  refine ⟨config, random, start, script ++ [⟨now, action⟩], ?_, play_append _ _ _⟩
  rw [List.forall_mem_append, List.forall_mem_singleton]
  exact ⟨all_allowed, allowed⟩

/-- What holds of a machine just switched on and is preserved by every permitted action holds of
all reachable machines. -/
theorem Reachable.invariant (reachable : machine.Reachable permitted)
    (initial : ∀ config random start, property (.new config random start))
    (preserved : ∀ machine now action, property machine → permitted action →
      property (machine.perform now action).machine) :
    property machine := by
  rcases reachable with ⟨config, random, start, script, allowed, rfl⟩
  exact play_preserves preserved (initial config random start) allowed

end Machine

end Chip8

import Chip8.Keyboard
import Chip8.Machine.Step

/-!
# What a host can do

A host drives a machine through a fixed set of actions: it loads, resets, steps, writes memory
and keys, and takes note of the screen. `Machine.perform` carries out one of them at a moment
of the host's clock, so a script of actions with their moments settles a whole session.
-/

namespace Chip8

/-- One thing a host can do with a machine. -/
inductive Action
  | loadGlyphs
  | loadProgram (program : List UInt8)
  /-- Writes bytes to memory directly. -/
  | writeMemory (start : Nat) (image : List UInt8)
  | reset
  | step
  /-- Fetches an instruction without executing it. -/
  | fetch
  /-- Executes an instruction that need not be in memory. -/
  | execute (instruction : Instruction) (pc : Address)
  | setKey (key : UInt8) (pressed : Bool)
  /-- Sets all keys at once. -/
  | setKeypad (keypad : Keypad)
  /-- Sets all keys by the keys held on the keyboard. -/
  | holdKeys (held : List Key)
  | clearDrawFlag

/-- What a host learns from an action. -/
inductive Answer
  | done
  | instruction (instruction : Instruction)
  | outcome (outcome : Outcome)
  deriving DecidableEq

/-- Turns the answer of an operation into what the host learns. -/
def Report.map {α β : Type} (f : α → β) (report : Report α) : Report β :=
  ⟨report.machine, report.result.map f, report.log⟩

namespace Machine

/-- The report of an action that cannot fail and makes no record. -/
def quietly (machine : Machine) (answer : Answer) : Report Answer :=
  ⟨machine, .ok answer, []⟩

/-- Carries out an action of the host. -/
def perform (machine : Machine) (now : Time) : Action → Report Answer
  | .loadGlyphs => machine.loadGlyphs.quietly .done
  | .loadProgram program => (machine.loadProgram program).map fun _ => .done
  | .writeMemory start image =>
    { machine with memory := machine.memory.write start image }.quietly .done
  | .reset => (machine.reset now).quietly .done
  | .step => (machine.step now).map .outcome
  | .fetch =>
    let (instruction, fetched) := machine.fetch
    fetched.quietly (.instruction instruction)
  | .execute instruction pc => (machine.execute instruction pc).map .outcome
  | .setKey key pressed => (machine.setKey key pressed).quietly .done
  | .setKeypad keypad => { machine with keypad }.quietly .done
  | .holdKeys held => { machine with keypad := machine.keypad.hold held }.quietly .done
  | .clearDrawFlag => machine.clearDrawFlag.quietly .done

end Machine

end Chip8

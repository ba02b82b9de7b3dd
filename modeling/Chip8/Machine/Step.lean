import Chip8.Machine.Execute

/-!
# Steps

A running machine fetches the instruction at its program counter and executes it; a machine
that waits for a key looks at the keypad; a machine at fault does nothing. A step that was not
at fault brings the timers up to date. A step at fault leaves the machine as it was, but for
standing still from then on.
-/

namespace Chip8

/-- Brings the timers up to date after an operation that succeeded. -/
def Report.synced {α : Type} (report : Report α) (now : Time) : Report α :=
  match report.result with
  | .error _ => report
  | .ok _ =>
    match report.machine.timers.sync now with
    | .ok (timers, _) => { report with machine := { report.machine with timers } }
    | .error overflow => { report with result := .error (.overflow overflow) }

namespace Machine

/-- Looks for a key that has gone down since the keys `held` were seen, and stores the lowest
such key in `register`. -/
def pollKey (machine : Machine) (register : UInt8) (held : UInt16) : Report Outcome :=
  let pressed := machine.keypad.mask
  match Keypad.lowest? (pressed &&& ~~~held) with
  | none => ⟨{ machine with state := .awaitingKey register pressed }, .ok .awaitingKey, []⟩
  | some key =>
    let keyText := Hexadecimal.plain key.val
    let name := Instruction.registerName register
    ⟨{ (machine.setRegister register (UInt8.ofNat key.val)).advance with state := .running },
      .ok (.executed (.awaitKey register)),
      [⟨.debug, s!"key {keyText} pressed, stored in {name}"⟩]⟩

/-- The record of an instruction about to be executed. -/
def traceRecord (pc : Address) (instruction : Instruction) : LogRecord :=
  ⟨.trace, s!"{Instruction.addressText pc}: {instruction.mnemonic}"⟩

/-- Fetches and executes one instruction; after a fault the program counter is back at it. -/
def runInstruction (machine : Machine) : Report Outcome :=
  let pc := machine.pc
  let (instruction, fetched) := machine.fetch
  let report := fetched.execute instruction pc
  let log := traceRecord pc instruction :: report.log
  match report.result with
  | .error (.fault fault) =>
    ⟨{ report.machine.jump pc with state := .faulted fault }, .error (.fault fault),
      log ++ [⟨.error, fault.message⟩]⟩
  | _ => { report with log }

/-- Does what the machine is due to do next. -/
def step (machine : Machine) (now : Time) : Report Outcome :=
  match machine.state with
  | .faulted cause => ⟨machine, .error (.fault (.halted cause)), []⟩
  | .awaitingKey register held => (machine.pollKey register held).synced now
  | .running => machine.runInstruction.synced now

end Machine

/-- What a number of steps came to. -/
structure Run where
  machine : Machine
  /-- The outcomes of the steps that had one. -/
  outcomes : List Outcome
  /-- The failure that ended the run early. -/
  failure : Option Failure
  /-- The program counter after each step, the failing one included. -/
  trace : List Address
  log : List LogRecord

/-- Steps at most `count` times at one moment, up to the first failure. -/
def Machine.run (machine : Machine) (now : Time) : Nat → Run
  | 0 => ⟨machine, [], none, [], []⟩
  | count + 1 =>
    let report := machine.step now
    match report.result with
    | .error failure => ⟨report.machine, [], some failure, [report.machine.pc], report.log⟩
    | .ok outcome =>
      let rest := report.machine.run now count
      { rest with
        outcomes := outcome :: rest.outcomes
        trace := report.machine.pc :: rest.trace
        log := report.log ++ rest.log }

end Chip8

import Chip8.Machine.Basic

/-!
# Dumps

A dump shows a machine as text. The register dump has two rows of data registers, then the
program counter, the index register and the call stack, then the timers and the state. The
memory dump has a line for each sixteen bytes that are not all zero, and a single `*` for each
run of lines that are.
-/

namespace Chip8

/-- The state with all its fields, as dumps show it. -/
def ExecutionState.diagnostic : ExecutionState → String
  | running => "Running"
  | awaitingKey register held =>
      s!"AwaitingKey \x7b register: {register.toNat}, held: {held.toNat} \x7d"
  | faulted cause => s!"Faulted({cause.diagnostic})"

namespace Dump

/-- A data register with its contents. -/
def registerText (registers : Registers) (register : UInt8) : String :=
  s!"V{Hexadecimal.plain register.toNat} {Hexadecimal.byte (registers.get register)}"

/-- The row of the eight data registers from `start` on. -/
def registerRow (registers : Registers) (start : UInt8) : String :=
  "  ".intercalate ((List.range 8).map fun column =>
    registerText registers (start + UInt8.ofNat column)) ++ "\n"

/-- The return address pushed last, or dashes if there is none. -/
def topText (stack : CallStack) : String :=
  match stack.top? with
  | some address => Hexadecimal.padded 3 address.toNat
  | none => "---"

/-- The dump of everything but memory and screen. -/
def registers (machine : Machine) : String :=
  registerRow machine.registers 0 ++ registerRow machine.registers 8 ++
  s!"PC {Hexadecimal.padded 3 machine.pc.toNat}  " ++
  s!"I {Hexadecimal.padded 4 machine.index.toNat}  " ++
  s!"SP {machine.stack.depth}  top {topText machine.stack}\n" ++
  s!"DT {Hexadecimal.byte machine.timers.delay.count}  " ++
  s!"ST {Hexadecimal.byte machine.timers.sound.count}  " ++
  s!"state {machine.state.diagnostic}"

/-- The sixteen bytes of a row of memory. -/
def rowBytes (memory : Memory) (number : Nat) : List UInt8 :=
  memory.read (16 * number) 16

/-- The line of a row of memory that is shown in full. -/
def rowText (number : Nat) (bytes : List UInt8) : String :=
  s!"{Hexadecimal.padded 3 (16 * number)}:" ++
    String.join (bytes.map fun byte => s!" {Hexadecimal.byte byte}") ++ "\n"

/-- The lines of rows with their numbers; `skipping` tells that the row before them was part of
a run of zeros, which already has its line. -/
def rowLines (skipping : Bool) : List (Nat × List UInt8) → List String
  | [] => []
  | (number, bytes) :: rest =>
    if bytes.all (· == 0) then
      if skipping then rowLines true rest else "*\n" :: rowLines true rest
    else
      rowText number bytes :: rowLines false rest

/-- The dump of memory. -/
def memory (memory : Memory) : String :=
  String.join (rowLines false
    ((List.range 256).map fun number => (number, rowBytes memory number)))

/-- The records that show the whole state of a machine. -/
def records (machine : Machine) : List LogRecord :=
  [⟨.info, "registers:\n" ++ registers machine⟩,
    ⟨.info, "memory:\n" ++ memory machine.memory⟩]

end Dump

end Chip8

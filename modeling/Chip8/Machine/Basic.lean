import Chip8.CallStack
import Chip8.Config
import Chip8.Instruction.Decode
import Chip8.Keypad
import Chip8.Memory
import Chip8.Registers
import Chip8.Screen
import Chip8.Source
import Chip8.Timers

/-!
# The machine

A machine is memory, the program counter and the index register, the call stack, the data
registers, the screen, the keypad, the timers, and what it is doing between two steps. The
host supplies the time with each operation that needs it and the random numbers once and for
all. Operations that can fail or that are worth a record answer with a `Report`.
-/

namespace Chip8

/-- What the machine is doing between two steps. -/
inductive ExecutionState
  | running
  /-- An instruction waits for a key for `register`; `held` are the keys that were down when it
  last looked, and only a key that goes down after that ends the wait. -/
  | awaitingKey (register : UInt8) (held : UInt16)
  /-- The machine stands still because of a fault. -/
  | faulted (cause : Fault)
  deriving DecidableEq

/-- What a step did. -/
inductive Outcome
  | executed (instruction : Instruction)
  | awaitingKey
  | unrecognized (word : UInt16)
  deriving DecidableEq

/-- The whole state of a machine. -/
structure Machine where
  memory : Memory
  pc : Address
  index : UInt16
  stack : CallStack
  registers : Registers
  screen : Screen
  keypad : Keypad
  timers : Timers
  state : ExecutionState
  dialect : Dialect
  random : Source UInt32

/-- What an operation comes to: the machine after it, its answer, and the records it made. -/
structure Report (α : Type) where
  machine : Machine
  result : Except Failure α
  log : List LogRecord

namespace Machine

/-- A machine that was just switched on, with a source of random numbers. -/
def new (config : Config) (random : Source UInt32) (now : Time) : Machine where
  memory := .empty
  pc := .programStart
  index := 0
  stack := .empty
  registers := .empty
  screen := .blank
  keypad := .released
  timers := .new config.timerMode now
  state := .running
  dialect := config.dialect
  random := random

/-- Clears memory and sends the program counter back to its start. -/
def clearMemory (machine : Machine) : Machine :=
  { machine with memory := .empty, pc := .programStart, index := 0, stack := .empty }

/-- Switches the machine off and on again. The keypad belongs to the host and the random
numbers go on where they were; the host should draw the blank screen. -/
def reset (machine : Machine) (now : Time) : Machine :=
  { machine.clearMemory with
    registers := .empty
    screen := machine.screen.clear
    timers := machine.timers.reset now
    state := .running }

/-- Writes the glyphs of the hexadecimal digits to memory. -/
def loadGlyphs (machine : Machine) : Machine :=
  { machine with memory := machine.memory.loadGlyphs }

/-- Copies a program to memory, unless it is too large. -/
def loadProgram (machine : Machine) (program : List UInt8) : Report Unit :=
  match machine.memory.loadProgram program with
  | .ok memory => ⟨{ machine with memory }, .ok (), [Memory.loadedRecord program]⟩
  | .error failure => ⟨machine, .error failure, []⟩

/-! ## Moving about -/

/-- Goes on at an address. -/
def jump (machine : Machine) (address : Address) : Machine :=
  { machine with pc := address.wrap }

/-- Goes on at the word after the current one. -/
def advance (machine : Machine) : Machine :=
  { machine with pc := (machine.pc + 2).wrap }

/-- The word at the program counter. -/
def currentWord (machine : Machine) : UInt16 :=
  machine.memory.word machine.pc

/-- The instruction at the program counter, and the machine moved past it. -/
def fetch (machine : Machine) : Instruction × Machine :=
  (.decode machine.currentWord, machine.advance)

/-- The address at a distance from the index register. -/
def indexed (machine : Machine) (offset : UInt16) : Address :=
  Address.wrap (machine.index + offset)

/-! ## Parts -/

/-- Puts a byte into a data register. -/
def setRegister (machine : Machine) (register value : UInt8) : Machine :=
  { machine with registers := machine.registers.set register value }

/-- Sets a key of the keypad. -/
def setKey (machine : Machine) (key : UInt8) (pressed : Bool) : Machine :=
  { machine with keypad := machine.keypad.set key pressed }

/-- The host has drawn the screen. -/
def clearDrawFlag (machine : Machine) : Machine :=
  { machine with screen := machine.screen.clean }

end Machine

end Chip8

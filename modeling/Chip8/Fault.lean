import Chip8.Address
import Chip8.Text.Hexadecimal

/-!
# Faults

A fault is something a program or its loading can do wrong; an overflow is a number that
leaves its range, be it the range of a word or the places of memory. `Fault.message` is the
sentence shown to the user and `Fault.diagnostic` the form used in dumps of the machine, which
shows every field.
-/

namespace Chip8

/-- What can go wrong in a program or in loading it. -/
inductive Fault
  /-- The call at `pc` found all sixteen places of the call stack taken. -/
  | stackOverflow (pc : Address)
  /-- The return at `pc` found the call stack empty. -/
  | stackUnderflow (pc : Address)
  /-- A program of `size` bytes does not fit the `limit` bytes there are. -/
  | programTooLarge (size limit : Nat)
  /-- The machine stands still since an earlier fault. -/
  | halted (cause : Fault)
  deriving DecidableEq

namespace Fault

/-- The sentence that tells the user about a fault. -/
def message : Fault → String
  | stackOverflow pc =>
      s!"stack overflow: call at 0x{Hexadecimal.padded 3 pc.toNat} exceeds 16 nested subroutines"
  | stackUnderflow pc =>
      s!"stack underflow: return at 0x{Hexadecimal.padded 3 pc.toNat} with an empty call stack"
  | programTooLarge size limit =>
      s!"program is too large ({size} bytes), max size is {limit} bytes"
  | halted cause => s!"engine halted after an earlier fault: {cause.message}"

/-- The fault with all its fields, as dumps show it. -/
def diagnostic : Fault → String
  | stackOverflow pc => s!"StackOverflow \x7b pc: {pc.toNat} \x7d"
  | stackUnderflow pc => s!"StackUnderflow \x7b pc: {pc.toNat} \x7d"
  | programTooLarge size limit => s!"ProgramTooLarge \x7b size: {size}, max: {limit} \x7d"
  | halted cause => s!"Halted \x7b cause: {cause.diagnostic} \x7d"

end Fault

/-- A number that has left its range. -/
inductive Overflow
  /-- A jump target beyond sixteen bits. -/
  | address
  /-- A time beyond the largest one. -/
  | time
  /-- A copy of bytes to memory that would end at `stop`, past the last place. -/
  | memory (stop : Nat)
  deriving DecidableEq

/-- The sentence that tells about an overflow. -/
def Overflow.message : Overflow → String
  | address => "attempt to add with overflow"
  | time => "overflow when adding durations"
  | memory stop => s!"range end index {stop} out of range for slice of length 4096"

/-- Why an operation of the machine gave no answer. -/
inductive Failure
  /-- The program is at fault. -/
  | fault (cause : Fault)
  /-- A number left its range, which no operation of a well-formed machine does. -/
  | overflow (kind : Overflow)
  deriving DecidableEq

end Chip8

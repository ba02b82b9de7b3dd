import Chip8.Address

/-!
# Instructions

The instruction set of the machine. Register and nibble operands are bytes and addresses are
words, so an instruction can also be built by hand with operands wider than the encoding
allows; whoever uses an operand keeps only the bits it needs. `Instruction.Encodable` says
that no operand is wider than its field in the instruction word.
-/

namespace Chip8

/-- The ways to combine VX and VY into VX, in the order of their last nibble. -/
inductive Combination
  | copy
  | or
  | and
  | xor
  | add
  | subtract
  | shiftRight
  | subtractReverse
  | shiftLeft
  deriving DecidableEq

/-- What a skip asks before it passes over the next instruction. -/
inductive Condition
  /-- VX equals a constant. -/
  | equalsByte (x byte : UInt8)
  /-- VX differs from a constant. -/
  | differsFromByte (x byte : UInt8)
  /-- VX equals VY. -/
  | equalsRegister (x y : UInt8)
  /-- VX differs from VY. -/
  | differsFromRegister (x y : UInt8)
  /-- The key named by VX is down. -/
  | keyDown (x : UInt8)
  /-- The key named by VX is up. -/
  | keyUp (x : UInt8)
  deriving DecidableEq

/-- One instruction of the machine. -/
inductive Instruction
  /-- Call a routine in the host's own machine code; nothing happens. -/
  | machineCall (address : Address)
  /-- Blank the screen. -/
  | clearScreen
  /-- Return from a subroutine. -/
  | ret
  /-- Go on at an address. -/
  | jump (address : Address)
  /-- Call the subroutine at an address. -/
  | call (address : Address)
  /-- Pass over the next instruction if the condition holds. -/
  | skip (condition : Condition)
  /-- Put a constant into VX. -/
  | setByte (x byte : UInt8)
  /-- Add a constant to VX and leave the flag alone. -/
  | addByte (x byte : UInt8)
  /-- Combine VX and VY into VX. -/
  | combine (operation : Combination) (x y : UInt8)
  /-- Put an address into the index register. -/
  | setIndex (address : Address)
  /-- Go on at an address moved by a register. -/
  | jumpOffset (address : Address)
  /-- Put a random byte, masked by a constant, into VX. -/
  | random (x mask : UInt8)
  /-- Draw the sprite of `height` rows at the index register, with its corner at (VX, VY). -/
  | draw (x y height : UInt8)
  /-- Put the delay count into VX. -/
  | readDelay (x : UInt8)
  /-- Wait for a key to go down and put its number into VX. -/
  | awaitKey (x : UInt8)
  /-- Set the delay count to VX. -/
  | setDelay (x : UInt8)
  /-- Set the sound count to VX. -/
  | setSound (x : UInt8)
  /-- Add VX to the index register. -/
  | addIndex (x : UInt8)
  /-- Point the index register at the glyph of VX. -/
  | pointGlyph (x : UInt8)
  /-- Write the three decimal digits of VX at the index register. -/
  | storeDecimal (x : UInt8)
  /-- Write V0 to VX at the index register. -/
  | storeRegisters (x : UInt8)
  /-- Read V0 to VX from the index register. -/
  | loadRegisters (x : UInt8)
  /-- A word that is no instruction. -/
  | unknown (word : UInt16)
  deriving DecidableEq

end Chip8

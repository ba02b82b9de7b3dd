import Chip8.Instruction.Basic
import Chip8.Instruction.Nibbles

/-!
# Reading instructions

The first nibble of a word names its family, which settles the fields that follow; families
5, 8, 9, E and F end in a digit or a byte that names the instruction. A word that matches no
form is kept whole as `Instruction.unknown`.
-/

namespace Chip8

namespace Combination

/-- The combination that a last nibble names. -/
def ofDigit? : Nat → Option Combination
  | 0x0 => some copy
  | 0x1 => some or
  | 0x2 => some and
  | 0x3 => some xor
  | 0x4 => some add
  | 0x5 => some subtract
  | 0x6 => some shiftRight
  | 0x7 => some subtractReverse
  | 0xE => some shiftLeft
  | _ => none

end Combination

namespace Instruction

open NibbleReader

/-- The instruction of family F that a last byte names, for VX. -/
def ofSelector? (x : UInt8) : Nat → Option Instruction
  | 0x07 => some (readDelay x)
  | 0x0A => some (awaitKey x)
  | 0x15 => some (setDelay x)
  | 0x18 => some (setSound x)
  | 0x1E => some (addIndex x)
  | 0x29 => some (pointGlyph x)
  | 0x33 => some (storeDecimal x)
  | 0x55 => some (storeRegisters x)
  | 0x65 => some (loadRegisters x)
  | _ => none

/-- Reads the fields of `word`, whose nibbles are those still to be read. -/
def ofNibbles (word : UInt16) : NibbleReader Instruction := do
  match ← nibble with
  | 0x0 =>
    match word with
    | 0x00E0 => return clearScreen
    | 0x00EE => return ret
    | _ => return machineCall (← address)
  | 0x1 => return jump (← address)
  | 0x2 => return call (← address)
  | 0x3 => return skip (.equalsByte (← register) (← byte))
  | 0x4 => return skip (.differsFromByte (← register) (← byte))
  | 0x5 =>
    let x ← register
    let y ← register
    match ← nibble with
    | 0x0 => return skip (.equalsRegister x y)
    | _ => return unknown word
  | 0x6 => return setByte (← register) (← byte)
  | 0x7 => return addByte (← register) (← byte)
  | 0x8 =>
    let x ← register
    let y ← register
    match Combination.ofDigit? (← nibble) with
    | some operation => return combine operation x y
    | none => return unknown word
  | 0x9 =>
    let x ← register
    let y ← register
    match ← nibble with
    | 0x0 => return skip (.differsFromRegister x y)
    | _ => return unknown word
  | 0xA => return setIndex (← address)
  | 0xB => return jumpOffset (← address)
  | 0xC => return random (← register) (← byte)
  | 0xD => return draw (← register) (← register) (← register)
  | 0xE =>
    let x ← register
    match ← take 2 with
    | 0x9E => return skip (.keyDown x)
    | 0xA1 => return skip (.keyUp x)
    | _ => return unknown word
  | 0xF =>
    let x ← register
    return (ofSelector? x (← take 2)).getD (unknown word)
  | _ => return unknown word

/-- The instruction of a word, if no field runs past the word's end. -/
def decode? (word : UInt16) : Option Instruction :=
  (ofNibbles word).run' (Nibbles.ofWord word)

/-- The instruction of a word. -/
def decode (word : UInt16) : Instruction :=
  (decode? word).getD (unknown word)

end Instruction

end Chip8

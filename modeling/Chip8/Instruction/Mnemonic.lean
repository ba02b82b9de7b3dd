import Chip8.Instruction.Basic
import Chip8.Text.Hexadecimal

/-!
# Assembler text

Each instruction has one line of assembler text. Registers are `V` with as many digits as the
number needs, constants have at least two digits, addresses at least three; the height of a
sprite is decimal, and a word that is no instruction is shown as data.
-/

namespace Chip8

namespace Instruction

/-- The name of a data register. -/
def registerName (register : UInt8) : String :=
  s!"V{Hexadecimal.plain register.toNat}"

/-- The text of an address. -/
def addressText (address : Address) : String :=
  Hexadecimal.padded 3 address.toNat

end Instruction

/-- The word that opens the text of a combination. -/
def Combination.mnemonic : Combination → String
  | copy => "LD"
  | or => "OR"
  | and => "AND"
  | xor => "XOR"
  | add => "ADD"
  | subtract => "SUB"
  | shiftRight => "SHR"
  | subtractReverse => "SUBN"
  | shiftLeft => "SHL"

open Instruction in
/-- The text of a skip on a condition. -/
def Condition.mnemonic : Condition → String
  | equalsByte x byte => s!"SE {registerName x}, {Hexadecimal.byte byte}"
  | differsFromByte x byte => s!"SNE {registerName x}, {Hexadecimal.byte byte}"
  | equalsRegister x y => s!"SE {registerName x}, {registerName y}"
  | differsFromRegister x y => s!"SNE {registerName x}, {registerName y}"
  | keyDown x => s!"SKP {registerName x}"
  | keyUp x => s!"SKNP {registerName x}"

namespace Instruction

/-- The assembler text of an instruction. -/
def mnemonic : Instruction → String
  | machineCall address => s!"SYS {addressText address}"
  | clearScreen => "CLS"
  | ret => "RET"
  | jump address => s!"JP {addressText address}"
  | call address => s!"CALL {addressText address}"
  | skip condition => condition.mnemonic
  | setByte x byte => s!"LD {registerName x}, {Hexadecimal.byte byte}"
  | addByte x byte => s!"ADD {registerName x}, {Hexadecimal.byte byte}"
  | combine operation x y => s!"{operation.mnemonic} {registerName x}, {registerName y}"
  | setIndex address => s!"LD I, {addressText address}"
  | jumpOffset address => s!"JP V0, {addressText address}"
  | random x mask => s!"RND {registerName x}, {Hexadecimal.byte mask}"
  | draw x y height => s!"DRW {registerName x}, {registerName y}, {height.toNat}"
  | readDelay x => s!"LD {registerName x}, DT"
  | awaitKey x => s!"LD {registerName x}, K"
  | setDelay x => s!"LD DT, {registerName x}"
  | setSound x => s!"LD ST, {registerName x}"
  | addIndex x => s!"ADD I, {registerName x}"
  | pointGlyph x => s!"LD F, {registerName x}"
  | storeDecimal x => s!"LD B, {registerName x}"
  | storeRegisters x => s!"LD [I], {registerName x}"
  | loadRegisters x => s!"LD {registerName x}, [I]"
  | unknown word => s!"DW {Hexadecimal.padded 4 word.toNat}"

end Instruction

end Chip8

import Chip8.Instruction.Basic

/-!
# Writing instructions as words

The word of an instruction has its family in the first nibble and its operands in the nibbles
after it. An operand wider than its field would spill into the next one, so the encoding is
meant for instructions that are `Encodable`.
-/

namespace Chip8

namespace Combination

/-- The last nibble of a combination's word. -/
def digit : Combination → UInt16
  | copy => 0x0
  | or => 0x1
  | and => 0x2
  | xor => 0x3
  | add => 0x4
  | subtract => 0x5
  | shiftRight => 0x6
  | subtractReverse => 0x7
  | shiftLeft => 0xE

end Combination

namespace Instruction

/-- The word of a family with a register and a byte. -/
def wordXNN (family : UInt16) (x byte : UInt8) : UInt16 :=
  family * 4096 + x.toUInt16 * 256 + byte.toUInt16

/-- The word of a family with two registers and a last digit. -/
def wordXYN (family : UInt16) (x y : UInt8) (digit : UInt16) : UInt16 :=
  family * 4096 + x.toUInt16 * 256 + y.toUInt16 * 16 + digit

/-- The word of an instruction. -/
def encode : Instruction → UInt16
  | machineCall address => address
  | clearScreen => 0x00E0
  | ret => 0x00EE
  | jump address => 0x1000 + address
  | call address => 0x2000 + address
  | skip (.equalsByte x byte) => wordXNN 0x3 x byte
  | skip (.differsFromByte x byte) => wordXNN 0x4 x byte
  | skip (.equalsRegister x y) => wordXYN 0x5 x y 0x0
  | setByte x byte => wordXNN 0x6 x byte
  | addByte x byte => wordXNN 0x7 x byte
  | combine operation x y => wordXYN 0x8 x y operation.digit
  | skip (.differsFromRegister x y) => wordXYN 0x9 x y 0x0
  | setIndex address => 0xA000 + address
  | jumpOffset address => 0xB000 + address
  | random x mask => wordXNN 0xC x mask
  | draw x y height => wordXYN 0xD x y height.toUInt16
  | skip (.keyDown x) => wordXNN 0xE x 0x9E
  | skip (.keyUp x) => wordXNN 0xE x 0xA1
  | readDelay x => wordXNN 0xF x 0x07
  | awaitKey x => wordXNN 0xF x 0x0A
  | setDelay x => wordXNN 0xF x 0x15
  | setSound x => wordXNN 0xF x 0x18
  | addIndex x => wordXNN 0xF x 0x1E
  | pointGlyph x => wordXNN 0xF x 0x29
  | storeDecimal x => wordXNN 0xF x 0x33
  | storeRegisters x => wordXNN 0xF x 0x55
  | loadRegisters x => wordXNN 0xF x 0x65
  | unknown word => word

/-- Every operand fits its field: registers and heights a nibble, addresses three of them. -/
def Encodable : Instruction → Prop
  | machineCall address | jump address | call address | setIndex address | jumpOffset address =>
      address.toNat < 4096
  | skip (.equalsByte x _) | skip (.differsFromByte x _) | skip (.keyDown x) | skip (.keyUp x) =>
      x.toNat < 16
  | skip (.equalsRegister x y) | skip (.differsFromRegister x y) | combine _ x y =>
      x.toNat < 16 ∧ y.toNat < 16
  | draw x y height => x.toNat < 16 ∧ y.toNat < 16 ∧ height.toNat < 16
  | setByte x _ | addByte x _ | random x _ | readDelay x | awaitKey x | setDelay x | setSound x
  | addIndex x | pointGlyph x | storeDecimal x | storeRegisters x | loadRegisters x =>
      x.toNat < 16
  | clearScreen | ret | unknown _ => True

end Instruction

end Chip8

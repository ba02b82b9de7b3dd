import Chip8.Instruction.Mnemonic
import Chip8.Proofs.Words
import Mathlib

/-!
# Reading assembler text

The assembler text of an instruction is read again from its words: the first opens the line and the
others are operands, of which the registers are told by their `V`. `Instruction.ofText?` is the
reader. As it gets every instruction back from its text, whatever the operands, no two instructions
have the same text.
-/

namespace Chip8

/-- An operand of a line: the number of a register, or the characters of anything else. -/
inductive Operand
  | register (number : UInt8)
  | plain (text : List Char)

namespace Operand

def ofWord : List Char → Operand
  | 'V' :: digits => register (UInt8.ofNat (Hexadecimal.value digits))
  | text => plain text

@[simp]
theorem ofWord_register (x : UInt8) :
    ofWord ('V' :: Hexadecimal.digits x.toNat) = register x := by
  simp [ofWord, Hexadecimal.value_digits]

@[simp]
theorem ofWord_register_zero : ofWord ['V', '0'] = register 0 := rfl

@[simp]
theorem ofWord_of_not_mem {text : List Char} (plainly : 'V' ∉ text) : ofWord text = plain text := by
  cases text with
  | nil => rfl
  | cons char rest =>
      unfold ofWord
      split
      · simp_all
      · rfl

@[simp]
theorem ofWord_padded (width number : Nat) :
    ofWord (Hexadecimal.padded width number).toList =
      plain (Hexadecimal.padded width number).toList :=
  ofWord_of_not_mem (Hexadecimal.not_mem_padded (by decide))

@[simp]
theorem ofWord_decimal (number : Nat) :
    ofWord (Nat.toDigits 10 number) = plain (Nat.toDigits 10 number) := by
  apply ofWord_of_not_mem
  intro mem
  have numeric := Nat.isDigit_of_mem_toDigits (by decide) (by decide) mem
  cases numeric

end Operand

namespace Instruction

/-- The instruction of a line that opens with a name and has two registers. -/
def ofRegisters? (x y : UInt8) : String → Option Instruction
  | "SE" => some (skip (.equalsRegister x y))
  | "SNE" => some (skip (.differsFromRegister x y))
  | "LD" => some (combine .copy x y)
  | "OR" => some (combine .or x y)
  | "AND" => some (combine .and x y)
  | "XOR" => some (combine .xor x y)
  | "ADD" => some (combine .add x y)
  | "SUB" => some (combine .subtract x y)
  | "SUBN" => some (combine .subtractReverse x y)
  | "SHR" => some (combine .shiftRight x y)
  | "SHL" => some (combine .shiftLeft x y)
  | _ => none

/-- What loads VX from a source that is no register. -/
def ofSource (x : UInt8) (source : List Char) : Instruction :=
  if source = ['D', 'T'] then readDelay x
  else if source = ['K'] then awaitKey x
  else if source = ['[', 'I', ']'] then loadRegisters x
  else setByte x (Hexadecimal.byteValue source)

/-- The instruction of a line that has a register first and then something else. -/
def ofRegisterAndPlain? (x : UInt8) (text : List Char) : String → Option Instruction
  | "SE" => some (skip (.equalsByte x (Hexadecimal.byteValue text)))
  | "SNE" => some (skip (.differsFromByte x (Hexadecimal.byteValue text)))
  | "LD" => some (ofSource x text)
  | "ADD" => some (addByte x (Hexadecimal.byteValue text))
  | "RND" => some (random x (Hexadecimal.byteValue text))
  | "JP" => if x = 0 then some (jumpOffset (Hexadecimal.wordValue text)) else none
  | _ => none

/-- What loads a target that is no register from VX. -/
def ofTarget? (x : UInt8) (target : List Char) : Option Instruction :=
  if target = ['D', 'T'] then some (setDelay x)
  else if target = ['S', 'T'] then some (setSound x)
  else if target = ['F'] then some (pointGlyph x)
  else if target = ['B'] then some (storeDecimal x)
  else if target = ['[', 'I', ']'] then some (storeRegisters x)
  else none

/-- The instruction of a line that has a single operand, which is no register. -/
def ofPlain? (text : List Char) : String → Option Instruction
  | "SYS" => some (machineCall (Hexadecimal.wordValue text))
  | "JP" => some (jump (Hexadecimal.wordValue text))
  | "CALL" => some (call (Hexadecimal.wordValue text))
  | "DW" => some (unknown (Hexadecimal.wordValue text))
  | _ => none

/-- The instruction of the word that opens a line and the operands after it. -/
def ofOperands? (opening : String) : List Operand → Option Instruction
  | [] => if opening = "CLS" then some clearScreen else if opening = "RET" then some ret else none
  | [.plain text] => ofPlain? text opening
  | [.register x] =>
    if opening = "SKP" then some (skip (.keyDown x))
    else if opening = "SKNP" then some (skip (.keyUp x))
    else none
  | [.register x, .register y] => ofRegisters? x y opening
  | [.register x, .plain text] => ofRegisterAndPlain? x text opening
  | [.plain target, .register x] =>
    if opening = "LD" then ofTarget? x target
    else if opening = "ADD" then some (addIndex x)
    else none
  | [.plain _, .plain text] =>
    if opening = "LD" then some (setIndex (Hexadecimal.wordValue text)) else none
  | [.register x, .register y, .plain height] =>
    if opening = "DRW" then (Decimal.digits? height).map fun rows => draw x y (UInt8.ofNat rows)
    else none
  | _ => none

/-- The instruction that a line of assembler text writes. -/
def ofText? (text : String) : Option Instruction :=
  match words text.toList with
  | [] => none
  | opening :: operands => ofOperands? (String.ofList opening) (operands.map Operand.ofWord)

@[simp]
theorem toList_registerName (register : UInt8) :
    (registerName register).toList = 'V' :: Hexadecimal.digits register.toNat := by
  simp [registerName, Hexadecimal.plain, toString]

theorem ofSource_padded (x value : UInt8) :
    ofSource x (Hexadecimal.padded 2 value.toNat).toList = setByte x value := by
  have timer : (Hexadecimal.padded 2 value.toNat).toList ≠ ['D', 'T'] :=
    Hexadecimal.toList_padded_ne (by decide : 'T' ∈ ['D', 'T']) (by decide)
  have key : (Hexadecimal.padded 2 value.toNat).toList ≠ ['K'] :=
    Hexadecimal.toList_padded_ne (by decide : 'K' ∈ ['K']) (by decide)
  have index : (Hexadecimal.padded 2 value.toNat).toList ≠ ['[', 'I', ']'] :=
    Hexadecimal.toList_padded_ne (by decide : 'I' ∈ ['[', 'I', ']']) (by decide)
  rw [ofSource, if_neg timer, if_neg key, if_neg index, Hexadecimal.byteValue_padded]

/-- The text of an instruction is read as the instruction. -/
theorem ofText?_mnemonic (instruction : Instruction) :
    ofText? instruction.mnemonic = some instruction := by
  cases instruction with
  | skip condition =>
      cases condition with
      | equalsByte x value | differsFromByte x value =>
          simp [ofText?, words, mnemonic, Condition.mnemonic, Hexadecimal.byte, ofOperands?,
            ofRegisterAndPlain?]
      | equalsRegister x y | differsFromRegister x y =>
          simp [ofText?, words, mnemonic, Condition.mnemonic, ofOperands?, ofRegisters?]
      | keyDown x | keyUp x =>
          simp [ofText?, words, mnemonic, Condition.mnemonic, ofOperands?]
  | combine operation x y =>
      cases operation <;>
        simp [ofText?, words, mnemonic, Combination.mnemonic, ofOperands?, ofRegisters?]
  | machineCall target | jump target | call target | unknown word =>
      simp [ofText?, words, mnemonic, addressText, ofOperands?, ofPlain?]
  | setByte x value =>
      simp [ofText?, words, mnemonic, Hexadecimal.byte, ofOperands?, ofRegisterAndPlain?,
        ofSource_padded]
  | readDelay x | awaitKey x | loadRegisters x =>
      simp [ofText?, words, mnemonic, ofOperands?, ofRegisterAndPlain?, ofSource]
  | addByte x value | random x value =>
      simp [ofText?, words, mnemonic, Hexadecimal.byte, ofOperands?, ofRegisterAndPlain?]
  | jumpOffset target =>
      simp [ofText?, words, mnemonic, addressText, ofOperands?, ofRegisterAndPlain?]
  | setDelay x | setSound x | pointGlyph x | storeDecimal x | storeRegisters x =>
      simp [ofText?, words, mnemonic, ofOperands?, ofTarget?]
  | draw x y height => simp [ofText?, words, mnemonic, ofOperands?, Decimal.digits?_toDigits]
  | clearScreen | ret | addIndex x => simp [ofText?, words, mnemonic, ofOperands?]
  | setIndex target => simp [ofText?, words, mnemonic, addressText, ofOperands?]

theorem mnemonic_injective : Function.Injective mnemonic := by
  intro first second same
  have read := ofText?_mnemonic first
  rw [same, ofText?_mnemonic] at read
  exact (Option.some.inj read).symm

end Instruction

end Chip8

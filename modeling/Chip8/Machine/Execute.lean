import Chip8.Instruction.Mnemonic
import Chip8.Machine.Basic
import Chip8.Registers.Combine

/-!
# Executing instructions

An instruction is executed when the program counter has already moved past it; its own
address is passed along for faults, for the wait for a key, which stays where it is, and for
the record of a word that is no instruction. Only a call and a return can be at fault.
-/

namespace Chip8

namespace Machine

/-- Whether a condition holds. -/
def holds (machine : Machine) : Condition → Bool
  | .equalsByte x byte => machine.registers.get x == byte
  | .differsFromByte x byte => machine.registers.get x != byte
  | .equalsRegister x y => machine.registers.get x == machine.registers.get y
  | .differsFromRegister x y => machine.registers.get x != machine.registers.get y
  | .keyDown x => machine.keypad.isPressed (machine.registers.get x)
  | .keyUp x => !machine.keypad.isPressed (machine.registers.get x)

/-- The byte that moves the target of a jump with offset. -/
def jumpOffset (machine : Machine) (target : Address) : UInt8 :=
  if machine.dialect.jumpsByX then machine.registers.get (target >>> 8).toUInt8
  else machine.registers.get 0

/-- The three decimal digits of a byte. -/
def decimalDigits (value : UInt8) : List UInt8 :=
  [value / 100, value / 10 % 10, value % 10]

/-- The report of an instruction that was carried out without a record. -/
def done (machine : Machine) (instruction : Instruction) : Report Outcome :=
  ⟨machine, .ok (.executed instruction), []⟩

/-- Carries out an instruction whose own address is `pc`. -/
def execute (machine : Machine) (instruction : Instruction) (pc : Address) : Report Outcome :=
  match instruction with
  | .machineCall _ => machine.done instruction
  | .clearScreen => { machine with screen := machine.screen.clear }.done instruction
  | .ret =>
    match machine.stack.pop pc with
    | .ok (address, stack) => ({ machine with stack }.jump address).done instruction
    | .error fault => ⟨machine, .error (.fault fault), []⟩
  | .jump address => (machine.jump address).done instruction
  | .call address =>
    match machine.stack.push machine.pc pc with
    | .ok stack => ({ machine with stack }.jump address).done instruction
    | .error fault => ⟨machine, .error (.fault fault), []⟩
  | .skip condition =>
    (if machine.holds condition then machine.advance else machine).done instruction
  | .setByte x byte => (machine.setRegister x byte).done instruction
  | .addByte x byte =>
    { machine with registers := machine.registers.add x byte }.done instruction
  | .combine operation x y =>
    { machine with
      registers := machine.registers.combine machine.dialect operation x y }.done instruction
  | .setIndex address => { machine with index := address }.done instruction
  | .jumpOffset target =>
    let offset := machine.jumpOffset target
    if target.toNat + offset.toNat < 65536 then
      (machine.jump (target + offset.toUInt16)).done instruction
    else
      ⟨machine, .error (.overflow .address), []⟩
  | .random x mask =>
    let (word, random) := machine.random.next
    ({ machine with random }.setRegister x (mask &&& word.toUInt8)).done instruction
  | .draw x y height =>
    let column := machine.registers.get x
    let row := machine.registers.get y
    let sprite := machine.memory.load machine.index height.toNat
    let (screen, collided) := machine.screen.paint column row sprite
    ⟨{ machine with screen, registers := machine.registers.setFlag collided },
      .ok (.executed instruction), [Screen.paintRecord column row sprite]⟩
  | .readDelay x => (machine.setRegister x machine.timers.delay.count).done instruction
  | .awaitKey x =>
    ⟨{ machine.jump pc with state := .awaitingKey x machine.keypad.mask }, .ok .awaitingKey,
      [⟨.debug, s!"waiting for key into {Instruction.registerName x}"⟩]⟩
  | .setDelay x =>
    { machine with timers := machine.timers.setDelay (machine.registers.get x) }.done instruction
  | .setSound x =>
    { machine with timers := machine.timers.setSound (machine.registers.get x) }.done instruction
  | .addIndex x =>
    { machine with
      index := machine.index + (machine.registers.get x).toUInt16 }.done instruction
  | .pointGlyph x =>
    { machine with index := Memory.glyphAddress (machine.registers.get x) }.done instruction
  | .storeDecimal x =>
    let digits := decimalDigits (machine.registers.get x)
    { machine with memory := machine.memory.store machine.index digits }.done instruction
  | .storeRegisters x =>
    let bytes := machine.registers.first (x.toNat + 1)
    { machine with memory := machine.memory.store machine.index bytes }.done instruction
  | .loadRegisters x =>
    let bytes := machine.memory.load machine.index (x.toNat + 1)
    { machine with registers := machine.registers.fill 0 bytes }.done instruction
  | .unknown word =>
    let wordText := Hexadecimal.padded 4 word.toNat
    let place := Instruction.addressText pc
    ⟨machine, .ok (.unrecognized word),
      [⟨.warn, s!"unrecognized opcode {wordText} at {place}, skipping"⟩]⟩

end Machine

end Chip8

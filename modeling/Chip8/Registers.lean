import Chip8.Nibble

/-!
# Data registers

Sixteen byte registers V0 to VF. A register is named by a byte of which the low four bits
count; VF also carries the flags of arithmetic and drawing.
-/

namespace Chip8

/-- The contents of V0 to VF. -/
structure Registers where
  bytes : Vector UInt8 16
  deriving DecidableEq

namespace Registers

/-- The number of the register that carries flags. -/
def flag : UInt8 := 0xF

/-- All registers at zero. -/
def empty : Registers := ⟨Vector.replicate 16 0⟩

/-- The contents of a register. -/
def get (registers : Registers) (register : UInt8) : UInt8 :=
  Nibble.select registers.bytes register

/-- Puts a byte into a register. -/
def set (registers : Registers) (register value : UInt8) : Registers :=
  ⟨Nibble.replace registers.bytes register value⟩

/-- Adds a byte to a register, modulo 256 and without a flag. -/
def add (registers : Registers) (register value : UInt8) : Registers :=
  registers.set register (registers.get register + value)

/-- Puts a truth value into the flag register. -/
def setFlag (registers : Registers) (value : Bool) : Registers :=
  registers.set flag (if value then 1 else 0)

/-- The contents of the first `count` registers, starting over at V0 after VF. -/
def first (registers : Registers) (count : Nat) : List UInt8 :=
  (List.range count).map fun number => registers.get (UInt8.ofNat number)

/-- Puts bytes into the registers from `register` on, starting over at V0 after VF. -/
def fill (registers : Registers) (register : UInt8) : List UInt8 → Registers
  | [] => registers
  | byte :: rest => (registers.set register byte).fill (register + 1) rest

/-! ## Lemmas -/

theorem get_set (registers : Registers) (register value other : UInt8) :
    (registers.set register value).get other =
      if Nibble.low register = Nibble.low other then value else registers.get other :=
  Nibble.select_replace registers.bytes register other value

@[simp]
theorem get_set_self (registers : Registers) (register value : UInt8) :
    (registers.set register value).get register = value := by
  simp [get, set]

@[simp]
theorem get_empty (register : UInt8) : empty.get register = 0 := by
  simp [get, empty]

end Registers

end Chip8

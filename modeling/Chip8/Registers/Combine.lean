import Chip8.Config
import Chip8.Instruction.Basic
import Chip8.Registers

/-!
# Combining registers

The instructions of family 8 combine VX and VY into VX. Sums and shifts then put a flag into
VF, so that the flag stays when VX is VF itself; the logic instructions touch VF only in the
dialect that clears it.
-/

namespace Chip8

namespace Registers

/-- Puts zero into VF if the dialect does so after a logic instruction. -/
def afterLogic (registers : Registers) (dialect : Dialect) : Registers :=
  if dialect.logicClearsFlag then registers.set flag 0 else registers

/-- The byte that a shift starts from. -/
def shiftSource (registers : Registers) (dialect : Dialect) (x y : UInt8) : UInt8 :=
  if dialect.shiftsY then registers.get y else registers.get x

/-- The registers after VX and VY were combined into VX. -/
def combine (registers : Registers) (dialect : Dialect) (operation : Combination)
    (x y : UInt8) : Registers :=
  let a := registers.get x
  let b := registers.get y
  let source := registers.shiftSource dialect x y
  match operation with
  | .copy => registers.set x b
  | .or => (registers.set x (a ||| b)).afterLogic dialect
  | .and => (registers.set x (a &&& b)).afterLogic dialect
  | .xor => (registers.set x (a ^^^ b)).afterLogic dialect
  | .add => (registers.set x (a + b)).setFlag (a.toNat + b.toNat ≥ 256)
  | .subtract => (registers.set x (a - b)).setFlag (a ≥ b)
  | .subtractReverse => (registers.set x (b - a)).setFlag (b ≥ a)
  | .shiftRight => (registers.set x (source >>> 1)).setFlag (source % 2 = 1)
  | .shiftLeft => (registers.set x (source <<< 1)).setFlag (source ≥ 128)

end Registers

end Chip8

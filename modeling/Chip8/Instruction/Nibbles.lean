import Chip8.Address

/-!
# Reading a word nibble by nibble

An instruction word is four nibbles, read from the most significant on: a family, then
registers, bytes or an address. Reading is a state monad over the nibbles that are left, and
it fails when a field is wider than what is left of the word.
-/

namespace Chip8

/-- Reads fields off the front of a list of nibbles, or fails if there are too few. -/
abbrev NibbleReader := StateT (List Nat) Option

namespace Nibbles

/-- The four nibbles of a word, most significant first. -/
def ofWord (word : UInt16) : List Nat :=
  [word.toNat / 4096, word.toNat / 256 % 16, word.toNat / 16 % 16, word.toNat % 16]

/-- The number that a list of nibbles writes, most significant first. -/
def value (nibbles : List Nat) : Nat :=
  nibbles.foldl (fun number nibble => 16 * number + nibble) 0

end Nibbles

namespace NibbleReader

/-- The number written by the next `count` nibbles. -/
def take (count : Nat) : NibbleReader Nat := fun nibbles =>
  if count ≤ nibbles.length then
    some (Nibbles.value (nibbles.take count), nibbles.drop count)
  else
    none

/-- A single nibble: a family, a height or the last digit of an instruction. -/
def nibble : NibbleReader Nat := take 1

/-- The number of a register. -/
def register : NibbleReader UInt8 := do return UInt8.ofNat (← take 1)

/-- A constant of two nibbles. -/
def byte : NibbleReader UInt8 := do return UInt8.ofNat (← take 2)

/-- An address of three nibbles. -/
def address : NibbleReader Address := do return UInt16.ofNat (← take 3)

end NibbleReader

end Chip8

/-!
# Hexadecimal text

Numbers are shown in upper-case hexadecimal, either with as many digits as they need or
filled with zeros on the left up to a least width.
-/

namespace Chip8

namespace Hexadecimal

/-- The digits of a number, most significant first; zero has the one digit `0`. -/
def digits (value : Nat) : List Char :=
  (Nat.toDigits 16 value).map Char.toUpper

/-- A number with no more digits than it needs. -/
def plain (value : Nat) : String :=
  String.ofList (digits value)

/-- A number filled with zeros on the left up to `width` digits, and longer if it needs more. -/
def padded (width value : Nat) : String :=
  String.ofList ((digits value).leftpad width '0')

/-- A byte as two digits. -/
def byte (value : UInt8) : String :=
  padded 2 value.toNat

end Hexadecimal

end Chip8

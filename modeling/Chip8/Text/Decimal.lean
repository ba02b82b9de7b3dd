/-!
# Decimal numbers

Numbers are read from decimal digits alone, with a sign in front that may be left out:
no blanks, no separators, no other base.
-/

namespace Chip8

namespace Decimal

/-- The number that a text of one or more decimal digits writes. -/
def digits? (text : List Char) : Option Nat :=
  if text ≠ [] ∧ text.all Char.isDigit then
    some (text.foldl (fun number digit => 10 * number + (digit.toNat - '0'.toNat)) 0)
  else
    none

/-- A number that may carry a plus sign. -/
def natural? : List Char → Option Nat
  | '+' :: rest => digits? rest
  | text => digits? text

/-- A number that may carry a plus or a minus sign. -/
def integer? : List Char → Option Int
  | '-' :: rest => (digits? rest).map fun number => -(number : Int)
  | text => (natural? text).map fun number => (number : Int)

end Decimal

end Chip8

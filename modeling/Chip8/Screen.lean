import Chip8.Log
import Chip8.Text.Hexadecimal

/-!
# The screen

The screen has 32 rows of 64 cells, each 0 or 1, kept row after row. A sprite is a list of
rows of eight bits; painting it toggles one cell for each set bit (`Screen.hits` lists them in
the order in which they are struck) and reports whether a lit cell went dark. A cell that would
fall off one edge comes back at the opposite one. The dirty flag tells the host that the
screen may have changed since the host last looked.
-/

namespace Chip8

/-- The cells of the screen and whether the host should draw them again. -/
structure Screen where
  cells : Vector UInt8 2048
  dirty : Bool
  deriving DecidableEq

namespace Screen

/-- A dark screen that the host need not draw. -/
def blank : Screen := ⟨Vector.replicate 2048 0, false⟩

/-- The place of the cell in a column and a row, which wrap around the edges. -/
def place (column row : Nat) : Fin 2048 :=
  ⟨row % 32 * 64 + column % 64, by omega⟩

/-- Whether the cell in a column and a row is lit. -/
def pixel (screen : Screen) (column row : Nat) : Bool :=
  screen.cells[place column row] == 1

/-- The cells of a row from left to right. -/
def row (screen : Screen) (number : Nat) : List Bool :=
  (List.range 64).map fun column => screen.pixel column number

/-- The places that a row of a sprite strikes, for the columns of its set bits. -/
def rowHits (x y : Nat) (bits : UInt8) : List (Fin 2048) :=
  (List.range 8).filterMap fun column =>
    if bits.toNat.testBit (7 - column) then some (place (x + column) y) else none

/-- The places that a sprite strikes, row by row and from left to right. -/
def hits (x y : UInt8) (sprite : List UInt8) : List (Fin 2048) :=
  sprite.zipIdx.flatMap fun (bits, number) => rowHits x.toNat (y.toNat + number) bits

/-- Toggles a cell and keeps in mind whether any toggled cell was lit. -/
def strike : Vector UInt8 2048 × Bool → Fin 2048 → Vector UInt8 2048 × Bool
  | (cells, collided), place =>
    let cell := cells[place]
    (cells.set place (cell ^^^ 1) place.isLt, collided || cell == 1)

/-- Paints a sprite with its corner at (x, y) and tells whether a lit cell went dark. -/
def paint (screen : Screen) (x y : UInt8) (sprite : List UInt8) : Screen × Bool :=
  let (cells, collided) := (hits x y sprite).foldl strike (screen.cells, false)
  (⟨cells, true⟩, collided)

/-- Makes every cell dark and asks the host to draw. -/
def clear (_ : Screen) : Screen := ⟨Vector.replicate 2048 0, true⟩

/-- The host has drawn the screen. -/
def clean (screen : Screen) : Screen := { screen with dirty := false }

/-- The bytes of a sprite between brackets. -/
def spriteText (sprite : List UInt8) : String :=
  "[" ++ ", ".intercalate (sprite.map Hexadecimal.byte) ++ "]"

/-- The record of a sprite being painted. -/
def paintRecord (x y : UInt8) (sprite : List UInt8) : LogRecord :=
  ⟨.debug, s!"painting sprite at ({x.toNat}, {y.toNat}): {spriteText sprite}"⟩

end Screen

end Chip8

import Chip8.Fault
import Chip8.Log

/-!
# Memory

Memory is 4096 bytes. The glyphs of the sixteen hexadecimal digits lie at its start, five
bytes each; programs are loaded at 0x200 and may fill the rest.
-/

namespace Chip8

/-- The bytes of memory. -/
structure Memory where
  bytes : Vector UInt8 4096
  deriving DecidableEq

namespace Memory

/-- Memory with all bytes at zero. -/
def empty : Memory := ⟨Vector.replicate 4096 0⟩

/-- The byte that an address selects. -/
def get (memory : Memory) (address : Address) : UInt8 :=
  memory.bytes[address.cell]

/-- Puts a byte where an address selects. -/
def set (memory : Memory) (address : Address) (value : UInt8) : Memory :=
  ⟨memory.bytes.set address.cell value address.cell.isLt⟩

/-- The word of two bytes from an address on, the first byte high. -/
def word (memory : Memory) (address : Address) : UInt16 :=
  (memory.get address).toUInt16 * 256 + (memory.get (address + 1)).toUInt16

/-- Puts bytes one after the other where addresses from `start` on select. -/
def store (memory : Memory) (start : Address) : List UInt8 → Memory
  | [] => memory
  | byte :: rest => (memory.set start byte).store (start + 1) rest

/-- The `count` bytes that addresses from `start` on select. -/
def load (memory : Memory) (start : Address) (count : Nat) : List UInt8 :=
  (List.range count).map fun offset => memory.get (start + UInt16.ofNat offset)

/-- Writes bytes one after the other from a place on, leaving out those that memory has no place
for. -/
def write (memory : Memory) (start : Nat) (image : List UInt8) : Memory :=
  let image := image.toArray
  ⟨memory.bytes.mapFinIdx fun place byte _ =>
    if start ≤ place then image[place - start]?.getD byte else byte⟩

/-- Copies all bytes of an image to the places from `start` on, all of which memory must have. -/
def copy (memory : Memory) (start : Nat) (image : List UInt8) : Except Overflow Memory :=
  if start + image.length ≤ 4096 then
    .ok (memory.write start image)
  else
    .error (.memory (start + image.length))

/-- The `count` bytes from a place on, as far as memory reaches. -/
def read (memory : Memory) (start count : Nat) : List UInt8 :=
  (memory.bytes.toList.drop start).take count

/-! ## Glyphs -/

/-- The number of bytes in a glyph, one for each of its rows. -/
def glyphHeight : UInt16 := 5

/-- The glyphs of the digits 0 to F. -/
def glyphs : List UInt8 := [
  0xF0, 0x90, 0x90, 0x90, 0xF0,
  0x20, 0x60, 0x20, 0x20, 0x70,
  0xF0, 0x10, 0xF0, 0x80, 0xF0,
  0xF0, 0x10, 0xF0, 0x10, 0xF0,
  0x90, 0x90, 0xF0, 0x10, 0x10,
  0xF0, 0x80, 0xF0, 0x10, 0xF0,
  0xF0, 0x80, 0xF0, 0x90, 0xF0,
  0xF0, 0x10, 0x20, 0x40, 0x40,
  0xF0, 0x90, 0xF0, 0x90, 0xF0,
  0xF0, 0x90, 0xF0, 0x10, 0xF0,
  0xF0, 0x90, 0xF0, 0x90, 0x90,
  0xE0, 0x90, 0xE0, 0x90, 0xE0,
  0xF0, 0x80, 0x80, 0x80, 0xF0,
  0xE0, 0x90, 0x90, 0x90, 0xE0,
  0xF0, 0x80, 0xF0, 0x80, 0xF0,
  0xF0, 0x80, 0xF0, 0x80, 0x80]

/-- Writes the glyphs to the start of memory. -/
def loadGlyphs (memory : Memory) : Memory :=
  memory.write 0 glyphs

/-- The address of the glyph of a digit, of which the low four bits count. -/
def glyphAddress (digit : UInt8) : Address :=
  (digit % 16).toUInt16 * glyphHeight

/-! ## Programs -/

/-- The most bytes that a program can have. -/
def programLimit : Nat := 4096 - 0x200

/-- Copies a program to 0x200, unless it is too large. -/
def loadProgram (memory : Memory) (program : List UInt8) : Except Failure Memory :=
  if program.length ≤ programLimit then
    (memory.copy Address.programStart.toNat program).mapError .overflow
  else
    .error (.fault (.programTooLarge program.length programLimit))

/-- The record of a program that was loaded. -/
def loadedRecord (program : List UInt8) : LogRecord :=
  ⟨.debug, s!"loaded {program.length} byte program at 0x200"⟩

/-! ## Lemmas -/

theorem get_set (memory : Memory) (address other : Address) (value : UInt8) :
    (memory.set address value).get other =
      if address.cell = other.cell then value else memory.get other := by
  simp [get, set, Vector.getElem_set, Fin.ext_iff]

@[simp]
theorem get_empty (address : Address) : empty.get address = 0 := by
  simp [get, empty]

theorem getElem_write {memory : Memory} {start place : Nat} {image : List UInt8}
    (below : place < 4096) :
    (memory.write start image).bytes[place] =
      if start ≤ place then image[place - start]?.getD memory.bytes[place]
      else memory.bytes[place] := by
  simp [write]

theorem get_write (memory : Memory) (start : Nat) (image : List UInt8) (address : Address) :
    (memory.write start image).get address =
      if start ≤ address.cell.val then
        image[address.cell.val - start]?.getD (memory.get address)
      else
        memory.get address :=
  getElem_write address.cell.isLt

theorem copy_of_fits {memory : Memory} {start : Nat} {image : List UInt8}
    (fits : start + image.length ≤ 4096) :
    memory.copy start image = .ok (memory.write start image) :=
  if_pos fits

end Memory

end Chip8

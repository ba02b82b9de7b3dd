import Chip8.Proofs.Executing
import Chip8.Proofs.Painting
import Chip8.Proofs.Transfers
import Mathlib

/-!
# Sprites that a program draws

A word DXYN draws the N bytes from the index register on, with the corner where VX and VY say. Both
coordinates are read before VF tells of a collision, so either may be VF itself. There are too few
rows for two bits to land on one cell. Nothing but the cells under set bits, VF and the draw flag
changes, and the draw flag goes up even if there is nothing to draw.
-/

namespace Chip8

namespace Screen

variable {x y : UInt8} {sprite : List UInt8} {bit : Nat × Nat} {column : Fin 64} {row : Fin 32}

/-! ## One cell of a painting -/

theorem cell_paint_of_lands (low : sprite.length ≤ 32) (screen : Screen)
    (bit_mem : bit ∈ setBits sprite) (lands : Lands x y column row bit) :
    (screen.paint x y sprite).1.cell column row = screen.cell column row ^^^ 1 := by
  rw [← target_eq_place_iff] at lands
  simp only [cell, ← lands]
  exact get_target_paint low screen bit_mem

theorem cell_paint_of_missed (screen : Screen)
    (missed : ∀ bit ∈ setBits sprite, ¬Lands x y column row bit) :
    (screen.paint x y sprite).1.cell column row = screen.cell column row := by
  have none_lands : (setBits sprite).countP (Lands x y column row) = 0 := by
    rw [List.countP_eq_zero]
    simpa using missed
  have painted := screen.get_paint x y sprite (place column row)
  rw [hits_eq_map_target, count_map_target, none_lands, parity_zero, UInt8.xor_zero] at painted
  exact painted

end Screen

namespace Machine

/-- The sprite that a word draws: as many bytes as its last digit says, from the index register
on. -/
def sprite (machine : Machine) (word : Nat) : List UInt8 :=
  (List.range (Word.digit word)).map fun row =>
    machine.memory.bytes.get (Address.place machine.index row)

/-- A bit of the sprite lands on a cell, with the corner of the sprite where the word says. -/
def Places (machine : Machine) (word : Nat) (bit : Nat × Nat) (column : Fin 64)
    (row : Fin 32) : Prop :=
  let x := machine.registers.get (Word.x word)
  let y := machine.registers.get (Word.y word)
  Screen.Lands x y column row bit

/-- A set bit of the sprite that the word draws lands on the cell. -/
def Strikes (machine : Machine) (word : Nat) (column : Fin 64) (row : Fin 32) : Prop :=
  ∃ bit ∈ Screen.setBits (machine.sprite word), machine.Places word bit column row

/-- A lit cell is struck. -/
def Collides (machine : Machine) (word : Nat) : Prop :=
  ∃ column row, machine.Strikes word column row ∧ machine.screen.cell column row = 1

/-- What a word that draws a sprite makes of a machine. -/
structure Draws (before after : Machine) (word : Nat) : Prop where
  once : ∀ first ∈ Screen.setBits (before.sprite word),
    ∀ second ∈ Screen.setBits (before.sprite word), ∀ column row,
      before.Places word first column row → before.Places word second column row → first = second
  toggled : ∀ column row, before.Strikes word column row →
    after.screen.cell column row = before.screen.cell column row ^^^ 1
  spared : ∀ column row, ¬before.Strikes word column row →
    after.screen.cell column row = before.screen.cell column row
  collided : before.Collides word → after.registers.get Registers.flag = 1
  clear : ¬before.Collides word → after.registers.get Registers.flag = 0
  dirty : after.screen.dirty = true
  registers : ∀ register, register ≠ Nibble.low Registers.flag →
    after.registers.bytes.get register = before.registers.bytes.get register
  index : after.index = before.index
  memory : after.memory = before.memory

variable {machine : Machine} {word : Nat} {now : Time}

theorem length_sprite (machine : Machine) (word : Nat) : (machine.sprite word).length ≤ 32 := by
  have digit_lt : Word.digit word < 16 := Nat.mod_lt _ (by decide)
  simp only [sprite, List.length_map, List.length_range]
  omega

theorem load_index (machine : Machine) (word : Nat) :
    machine.memory.load machine.index (UInt8.ofNat (Word.digit word)).toNat =
      machine.sprite word := by
  have digit_lt : Word.digit word < 16 := Nat.mod_lt _ (by decide)
  have height : (UInt8.ofNat (Word.digit word)).toNat = Word.digit word := by
    simp
    omega
  rw [height, Memory.load_eq_map]
  rfl

/-- The corner, the sprite and the cells are those before the step. -/
theorem step_of_draw (running : machine.state = .running)
    (due : machine.memory.number machine.pc.toNat = word) (family : Word.family word = 0xD)
    (now : Time) :
    let x := Word.x word
    let y := Word.y word
    let painted :=
      machine.screen.paint (machine.registers.get x) (machine.registers.get y)
        (machine.sprite word)
    (machine.step now).result =
        .ok (.executed (.draw x y (UInt8.ofNat (Word.digit word)))) ∧
      (machine.step now).machine =
        { machine.advance with
          screen := painted.1
          registers := machine.registers.setFlag painted.2
          timers := machine.timers.settled now } := by
  intro x y painted
  have read : Instruction.decode machine.currentWord =
      .draw x y (UInt8.ofNat (Word.digit word)) := by
    rw [← Instruction.form_iff, toNat_currentWord, due]
    exact .draw family
  have stepped := step_of_obstacle_eq_none now running (by rw [read]; rfl)
  rw [read] at stepped
  refine ⟨stepped.1, ?_⟩
  rw [stepped.2]
  simp only [painted, ← machine.load_index]
  rfl

/-- Painting the sprite tells whether it collides. -/
theorem collides_iff :
    machine.Collides word ↔
      (machine.screen.paint (machine.registers.get (Word.x word))
        (machine.registers.get (Word.y word)) (machine.sprite word)).2 = true := by
  rw [Screen.collided_paint_of_low (machine.length_sprite word)]
  constructor
  · rintro ⟨column, row, ⟨bit, bit_mem, lands⟩, lit⟩
    refine ⟨bit, bit_mem, ?_⟩
    rw [Screen.target_eq_place_iff.mpr lands]
    exact lit
  · rintro ⟨bit, bit_mem, lit⟩
    -- A bit is painted at a place of the list of cells, which is some column and row.
    have there := @Screen.exists_lands_iff (machine.registers.get (Word.x word))
      (machine.registers.get (Word.y word)) bit fun place => machine.screen.cells.get place = 1
    rcases there.mpr lit with ⟨column, row, lands, lit⟩
    exact ⟨column, row, ⟨bit, bit_mem, lands⟩, lit⟩

/-! ## Steps that draw -/

/-- A step that draws toggles the cells on which set bits of the sprite land, and tells in VF
whether one of them was lit. -/
theorem step_draws (running : machine.state = .running)
    (due : machine.memory.number machine.pc.toNat = word) (family : Word.family word = 0xD)
    (now : Time) :
    (machine.step now).result =
        .ok (.executed (.draw (Word.x word) (Word.y word) (UInt8.ofNat (Word.digit word)))) ∧
      machine.Draws (machine.step now).machine word := by
  have low := machine.length_sprite word
  rcases step_of_draw running due family now with ⟨result_eq, machine_eq⟩
  refine ⟨result_eq, ?_⟩
  rw [machine_eq]
  constructor
  case once =>
    intro first first_mem second second_mem column row first_lands second_lands
    rw [Places, ← Screen.target_eq_place_iff] at first_lands second_lands
    exact Screen.target_injective low first_mem second_mem (first_lands.trans second_lands.symm)
  case toggled =>
    rintro column row ⟨bit, bit_mem, lands⟩
    exact Screen.cell_paint_of_lands low machine.screen bit_mem lands
  case spared =>
    intro column row spared
    apply Screen.cell_paint_of_missed
    intro bit bit_mem lands
    exact spared ⟨bit, bit_mem, lands⟩
  case collided =>
    intro collides
    rw [collides_iff] at collides
    simp [collides, Registers.setFlag]
  case clear =>
    intro clear
    rw [collides_iff] at clear
    simp [clear, Registers.setFlag]
  case dirty => rfl
  case registers =>
    intro register other
    exact machine.registers.bytes_set_of_ne _ other
  case index => rfl
  case memory => rfl

/-- A program at the end of memory that draws a sprite which begins there and goes on at the start,
with VF for both coordinates. -/
def cornered : Machine :=
  (Machine.new .standard (.constant 0) .zero).play
    [⟨.zero, .writeMemory 0 [0x40]⟩, ⟨.zero, .writeMemory 4093 [0xDF, 0xF2, 0xC0]⟩,
      ⟨.zero, .execute (.jump 4093) 0⟩, ⟨.zero, .execute (.setIndex 0xFFFF) 0⟩,
      ⟨.zero, .execute (.setByte 0xF 63) 0⟩]

/-- The same with the first row on the screen already. -/
def overlaid : Machine :=
  { cornered with screen := (Screen.blank.paint 63 63 [0xC0]).1 }

theorem memory_overlaid :
    overlaid.memory = (Memory.empty.write 0 [0x40]).write 4093 [0xDF, 0xF2, 0xC0] := rfl

theorem sprite_overlaid : overlaid.sprite 0xDFF2 = [0xC0, 0x40] := by
  have rows : overlaid.sprite 0xDFF2 = [overlaid.memory.get 0xFFF, overlaid.memory.get 0] := rfl
  rw [rows, memory_overlaid]
  simp [Memory.get_write]

theorem cell_overlaid :
    overlaid.screen.cell 63 31 = 1 ∧ overlaid.screen.cell 0 0 = 0 := by
  constructor
  · have lit := @Screen.cell_paint_of_lands 63 63 [0xC0] (0, 0) 63 31 (by decide) .blank (by decide)
      (by decide)
    rw [Screen.cell_blank] at lit
    exact lit
  · have dark := @Screen.cell_paint_of_missed 63 63 [0xC0] 0 0 .blank (by decide)
    rw [Screen.cell_blank] at dark
    exact dark

/-- Sprite and cells wrap around all ends, and the collision shows in VF, which was both
coordinates. -/
theorem draws_around_corner :
    (overlaid.step .zero).machine.screen.cell 63 31 = 0 ∧
      (overlaid.step .zero).machine.screen.cell 0 0 = 1 ∧
      (overlaid.step .zero).machine.registers.get 0xF = 1 := by
  have due : overlaid.memory.number overlaid.pc.toNat = 0xDFF2 := by
    have place : overlaid.pc.toNat = 4093 := rfl
    rw [place, memory_overlaid]
    exact Memory.number_write _ 4093 4093 [0xDF, 0xF2, 0xC0] (by omega) le_rfl rfl rfl
  have draws := (step_draws rfl due rfl .zero).2
  have corner : overlaid.registers.get (Word.x 0xDFF2) = 63 ∧
      overlaid.registers.get (Word.y 0xDFF2) = 63 := by
    decide
  have first : overlaid.Strikes 0xDFF2 63 31 := by
    refine ⟨(0, 0), ?_, ?_⟩
    · rw [sprite_overlaid]
      decide
    · rw [Places, corner.1, corner.2]
      decide
  have second : overlaid.Strikes 0xDFF2 0 0 := by
    refine ⟨(1, 1), ?_, ?_⟩
    · rw [sprite_overlaid]
      decide
    · rw [Places, corner.1, corner.2]
      decide
  refine ⟨?_, ?_, ?_⟩
  · rw [draws.toggled 63 31 first, cell_overlaid.1]
    rfl
  · rw [draws.toggled 0 0 second, cell_overlaid.2]
    rfl
  · exact draws.collided ⟨63, 31, first, cell_overlaid.1⟩

end Machine

end Chip8

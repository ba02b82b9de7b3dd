import Chip8.Proofs.WellFormed
import Mathlib

/-!
# Sprites on the screen

A sprite is painted bit by bit, and each set bit toggles the cell on which it lands, wrapping around
both edges. So a cell comes out toggled if an odd number of set bits land on it. Whether a lit cell
went dark is told while the bits are painted: a cell counts as lit at a bit if it was lit at first
and an even number of bits landed on it before, or if it was dark and an odd number did. The bits of
a sprite that is no taller than the screen land on different cells, so that only the cells as they
were at first are asked for.
-/

namespace Chip8

namespace Screen

/-! ## Cells and bits -/

/-- The cell in a column and a row. -/
def cell (screen : Screen) (column : Fin 64) (row : Fin 32) : UInt8 :=
  screen.cells.get (place column row)

/-- Whether a number is odd, as the byte that toggles a cell. -/
def parity (count : Nat) : UInt8 :=
  UInt8.ofNat (count % 2)

/-- The set bits of a sprite, each by its row and its column, row by row and from left to right. -/
def setBits (sprite : List UInt8) : List (Nat × Nat) :=
  (List.range sprite.length ×ˢ List.range 8).filter fun (row, column) =>
    (sprite.getD row 0).toNat.testBit (7 - column)

/-- A bit of a sprite with its corner at (x, y) lands on the cell in a column and a row. -/
def Lands (x y : UInt8) (column : Fin 64) (row : Fin 32) (bit : Nat × Nat) : Prop :=
  (x.toNat + bit.2) % 64 = column ∧ (y.toNat + bit.1) % 32 = row

instance (x y : UInt8) (column : Fin 64) (row : Fin 32) : DecidablePred (Lands x y column row) :=
  fun _ => inferInstanceAs (Decidable (_ ∧ _))

/-- The place that a bit strikes. -/
def target (x y : UInt8) (bit : Nat × Nat) : Fin 2048 :=
  place (x.toNat + bit.2) (y.toNat + bit.1)

variable {x y : UInt8} {sprite : List UInt8} {bit other : Nat × Nat}
variable {column : Fin 64} {row : Fin 32}

@[simp]
theorem parity_zero : parity 0 = 0 := rfl

theorem parity_add (first second : Nat) :
    parity (first + second) = parity first ^^^ parity second := by
  rcases Nat.mod_two_eq_zero_or_one first with even | odd
  · simp [parity, Nat.add_mod, even]
  · rcases Nat.mod_two_eq_zero_or_one second with second_even | second_odd
    · simp [parity, Nat.add_mod, odd, second_even]
    · simp [parity, Nat.add_mod, odd, second_odd]

theorem place_eq_place_iff {column row otherColumn otherRow : Nat} :
    place column row = place otherColumn otherRow ↔
      column % 64 = otherColumn % 64 ∧ row % 32 = otherRow % 32 := by
  simp only [place, Fin.mk.injEq]
  omega

theorem target_eq_place_iff : target x y bit = place column row ↔ Lands x y column row bit := by
  rw [target, place_eq_place_iff, Nat.mod_eq_of_lt column.isLt, Nat.mod_eq_of_lt row.isLt]
  exact Iff.rfl

/-- What holds of the place that a bit strikes holds of the cell on which it lands. -/
theorem exists_lands_iff {property : Fin 2048 → Prop} :
    (∃ column row, Lands x y column row bit ∧ property (place column row)) ↔
      property (target x y bit) := by
  constructor
  · rintro ⟨column, row, lands, holds⟩
    rw [← target_eq_place_iff] at lands
    rw [lands]
    exact holds
  · intro holds
    have lands : Lands x y ⟨_, Nat.mod_lt _ (by decide)⟩ ⟨_, Nat.mod_lt _ (by decide)⟩ bit :=
      ⟨rfl, rfl⟩
    refine ⟨_, _, lands, ?_⟩
    rw [← target_eq_place_iff.mpr lands]
    exact holds

/-! ## The bits of a sprite -/

theorem mem_setBits :
    bit ∈ setBits sprite ↔
      (bit.1 < sprite.length ∧ bit.2 < 8) ∧
        (sprite.getD bit.1 0).toNat.testBit (7 - bit.2) = true := by
  rcases bit with ⟨row, column⟩
  simp only [setBits, List.mem_filter, List.mem_product, List.mem_range]

theorem nodup_setBits (sprite : List UInt8) : (setBits sprite).Nodup :=
  (List.nodup_range.product List.nodup_range).filter _

theorem zipIdx_eq_map_range (sprite : List UInt8) :
    sprite.zipIdx = (List.range sprite.length).map fun row => (sprite.getD row 0, row) := by
  apply List.ext_getElem
  · simp
  · intro row _ below
    rw [List.length_map, List.length_range] at below
    simp [below]

/-- The places are struck in the order of the bits. -/
theorem hits_eq_map_target (x y : UInt8) (sprite : List UInt8) :
    hits x y sprite = (setBits sprite).map (target x y) := by
  have row_eq : ∀ row, rowHits x.toNat (y.toNat + row) (sprite.getD row 0) =
      (((List.range 8).map (Prod.mk row)).filter fun bit =>
        (sprite.getD bit.1 0).toNat.testBit (7 - bit.2)).map (target x y) := by
    intro row
    rw [List.filter_map, List.map_map, ← List.filterMap_eq_filter, List.map_filterMap]
    simp only [Option.map_guard]
    rfl
  rw [hits, zipIdx_eq_map_range, List.flatMap_map, setBits]
  simp only [row_eq, SProd.sprod, List.product, List.filter_flatMap, List.map_flatMap]

theorem count_map_target (bits : List (Nat × Nat)) :
    (bits.map (target x y)).count (place column row) = bits.countP (Lands x y column row) := by
  rw [List.count, List.countP_map]
  apply List.countP_congr
  intro bit _
  simp [target_eq_place_iff]

/-- The bits of a sprite that is no taller than the screen land on different cells. -/
theorem target_injective (low : sprite.length ≤ 32) (bit_mem : bit ∈ setBits sprite)
    (other_mem : other ∈ setBits sprite) (same : target x y bit = target x y other) :
    bit = other := by
  have bit_in := (mem_setBits.mp bit_mem).1
  have other_in := (mem_setBits.mp other_mem).1
  rw [target, target, place_eq_place_iff] at same
  apply Prod.ext
  · omega
  · omega

theorem nodup_hits (low : sprite.length ≤ 32) : (hits x y sprite).Nodup := by
  rw [hits_eq_map_target]
  apply List.Nodup.map_on
  · intro bit bit_mem other other_mem same
    exact target_injective low bit_mem other_mem same
  · exact nodup_setBits sprite

/-! ## Painting -/

/-- To strike a cell first is to strike it once more. -/
theorem get_strike_xor_parity (painted : Vector UInt8 2048 × Bool) (struck place : Fin 2048)
    (places : List (Fin 2048)) :
    (strike painted struck).1.get place ^^^ parity (places.count place) =
      painted.1.get place ^^^ parity ((struck :: places).count place) := by
  have once : (if struck = place then 1 else 0) = parity (if struck == place then 1 else 0) := by
    by_cases same : struck = place
    · simp [same, parity]
    · simp [same]
  rw [get_strike, once, UInt8.xor_assoc, ← parity_add, Nat.add_comm, List.count_cons]

/-- A cell is toggled as often as it is struck. -/
theorem get_foldl_strike (places : List (Fin 2048)) (painted : Vector UInt8 2048 × Bool)
    (place : Fin 2048) :
    (places.foldl strike painted).1.get place =
      painted.1.get place ^^^ parity (places.count place) := by
  induction places generalizing painted with
  | nil => simp
  | cons struck places ih => rw [List.foldl_cons, ih, get_strike_xor_parity]

/-- A lit cell goes dark if some cell is lit by the time it is struck. -/
theorem collided_foldl_strike (places : List (Fin 2048)) (painted : Vector UInt8 2048 × Bool) :
    (places.foldl strike painted).2 = true ↔
      painted.2 = true ∨ ∃ earlier place later, places = earlier ++ place :: later ∧
        painted.1.get place ^^^ parity (earlier.count place) = 1 := by
  induction places generalizing painted with
  | nil => simp
  | cons struck places ih =>
      have here : (strike painted struck).2 = true ↔
          painted.2 = true ∨ painted.1.get struck = 1 := by
        simp [strike, Vector.get_eq_getElem]
      rw [List.foldl_cons, ih, here, or_assoc]
      apply or_congr_right
      constructor
      · rintro (lit | ⟨earlier, place, later, rfl, lit⟩)
        · exact ⟨[], struck, places, rfl, by simpa using lit⟩
        · rw [get_strike_xor_parity] at lit
          exact ⟨struck :: earlier, place, later, rfl, lit⟩
      · rintro ⟨earlier, place, later, split, lit⟩
        rcases List.cons_eq_append_iff.mp split with ⟨rfl, same⟩ | ⟨earlier, rfl, rest⟩
        · left
          rw [List.cons.injEq] at same
          rw [same.1] at lit
          simpa using lit
        · right
          rw [← get_strike_xor_parity] at lit
          exact ⟨earlier, place, later, rest, lit⟩

theorem get_paint (screen : Screen) (x y : UInt8) (sprite : List UInt8) (place : Fin 2048) :
    (screen.paint x y sprite).1.cells.get place =
      screen.cells.get place ^^^ parity ((hits x y sprite).count place) :=
  get_foldl_strike _ _ place

theorem collided_paint (screen : Screen) (x y : UInt8) (sprite : List UInt8) :
    (screen.paint x y sprite).2 = true ↔
      ∃ earlier bit later, setBits sprite = earlier ++ bit :: later ∧
        screen.cells.get (target x y bit) ^^^
          parity ((earlier.map (target x y)).count (target x y bit)) = 1 := by
  have struck := collided_foldl_strike (hits x y sprite) (screen.cells, false)
  simp only [Bool.false_eq_true, false_or] at struck
  refine struck.trans ?_
  rw [hits_eq_map_target]
  constructor
  · rintro ⟨earlier, place, later, split, lit⟩
    rcases List.map_eq_append_iff.mp split with ⟨earlier, rest, parts, rfl, rest_eq⟩
    rcases List.map_eq_cons_iff.mp rest_eq with ⟨bit, later, rfl, rfl, rfl⟩
    exact ⟨earlier, bit, later, parts, lit⟩
  · rintro ⟨earlier, bit, later, split, lit⟩
    refine ⟨earlier.map (target x y), target x y bit, later.map (target x y), ?_, lit⟩
    rw [split, List.map_append, List.map_cons]

/-- The cells that a low sprite strikes are as they were when it strikes them. -/
theorem collided_paint_of_low (low : sprite.length ≤ 32) (screen : Screen) :
    (screen.paint x y sprite).2 = true ↔
      ∃ bit ∈ setBits sprite, screen.cells.get (target x y bit) = 1 := by
  have untouched : ∀ earlier bit later, setBits sprite = earlier ++ bit :: later →
      (earlier.map (target x y)).count (target x y bit) = 0 := by
    intro earlier bit later split
    have nodup := @nodup_hits x y sprite low
    rw [hits_eq_map_target, split, List.map_append, List.map_cons, List.nodup_middle,
      List.nodup_cons] at nodup
    apply List.count_eq_zero_of_not_mem
    exact fun struck => nodup.1 (List.mem_append_left _ struck)
  rw [collided_paint]
  constructor
  · rintro ⟨earlier, bit, later, split, lit⟩
    rw [untouched earlier bit later split] at lit
    refine ⟨bit, ?_, by simpa using lit⟩
    rw [split]
    exact List.mem_append_right _ List.mem_cons_self
  · rintro ⟨bit, bit_mem, lit⟩
    rcases List.append_of_mem bit_mem with ⟨earlier, later, split⟩
    refine ⟨earlier, bit, later, split, ?_⟩
    rw [untouched earlier bit later split]
    simpa using lit

/-- Painting toggles a cell if an odd number of set bits land on it, and leaves bits behind and the
flag up. It tells of a collision if some bit lands on a cell that is lit after the bits before it,
and for a sprite no taller than the screen if some bit lands on a cell that was lit at first. -/
theorem paint_toggles (screen : Screen) (binary : IsBinary screen.cells) (x y : UInt8)
    (sprite : List UInt8) :
    let painted := screen.paint x y sprite
    (∀ column row, painted.1.cell column row =
        screen.cell column row ^^^ parity ((setBits sprite).countP (Lands x y column row))) ∧
      IsBinary painted.1.cells ∧ painted.1.dirty = true ∧
      (painted.2 = true ↔ ∃ earlier bit later, setBits sprite = earlier ++ bit :: later ∧
        ∃ column row, Lands x y column row bit ∧
          screen.cell column row ^^^ parity (earlier.countP (Lands x y column row)) = 1) ∧
      (sprite.length ≤ 32 → (painted.2 = true ↔ ∃ bit ∈ setBits sprite,
        ∃ column row, Lands x y column row bit ∧ screen.cell column row = 1)) := by
  intro painted
  refine ⟨?_, binary.paint x y sprite, rfl, ?_, ?_⟩
  · intro column row
    have toggled := screen.get_paint x y sprite (place column row)
    rw [hits_eq_map_target, count_map_target] at toggled
    exact toggled
  · rw [screen.collided_paint x y sprite]
    apply exists₃_congr
    intro earlier bit later
    apply and_congr_right
    intro _
    have there := @exists_lands_iff x y bit fun place =>
      screen.cells.get place ^^^ parity ((earlier.map (target x y)).count place) = 1
    simp only [count_map_target] at there
    exact there.symm
  · intro low
    rw [collided_paint_of_low low]
    apply exists_congr
    intro bit
    apply and_congr_right
    intro _
    exact (@exists_lands_iff x y bit fun place => screen.cells.get place = 1).symm

theorem cell_blank (column : Fin 64) (row : Fin 32) : blank.cell column row = 0 := by
  simp [cell, blank, Vector.get_eq_getElem]

/-- At the last corner of a dark screen a sprite wraps around both edges. A sprite with one row more
than the screen collides with its own first row, and its column is dark there again. -/
theorem tall_sprite_strikes_itself :
    let flat := blank.paint 63 31 [0xC0, 0x40]
    let tall := blank.paint 63 31 (List.replicate 33 0x80)
    flat.2 = false ∧ flat.1.cell 63 31 = 1 ∧ flat.1.cell 0 0 = 1 ∧
      tall.2 = true ∧ tall.1.cell 63 31 = 0 ∧ tall.1.cell 63 0 = 1 := by
  intro flat tall
  have flat_toggles := paint_toggles blank isBinary_dark 63 31 [0xC0, 0x40]
  have tall_toggles := paint_toggles blank isBinary_dark 63 31 (List.replicate 33 0x80)
  rcases flat_toggles with ⟨flat_cells, _, _, _, flat_lit⟩
  rcases tall_toggles with ⟨tall_cells, _, _, tall_lit, _⟩
  refine ⟨?_, ?_, ?_, ?_, ?_, ?_⟩
  · rw [← Bool.not_eq_true, flat_lit (by decide)]
    rintro ⟨bit, _, column, row, _, lit⟩
    rw [cell_blank] at lit
    cases lit
  · rw [flat_cells 63 31, cell_blank]
    decide
  · rw [flat_cells 0 0, cell_blank]
    decide
  · rw [tall_lit]
    refine ⟨(List.range 32).map (·, 0), (32, 0), [], by decide, 63, 31, by decide, ?_⟩
    rw [cell_blank]
    decide
  · rw [tall_cells 63 31, cell_blank]
    decide
  · rw [tall_cells 63 0, cell_blank]
    decide

end Screen

end Chip8

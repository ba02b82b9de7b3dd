import Chip8.Proofs.Sprites
import Mathlib

/-!
# Painting in any order

Painting adds sprites to the screen modulo two. What is on the screen after a number of paintings
depends on how often each cell was struck in all, so their order does not matter and two equal
paintings cancel, whatever was painted between them. Of a corner only the cell is asked for on which
it lies. A second painting right after an equal one makes dark again what was dark before the first,
which is where it collides.
-/

namespace Chip8

/-- A sprite to be painted and where its corner goes. -/
structure Painting where
  x : UInt8
  y : UInt8
  sprite : List UInt8

namespace Painting

def hits (painting : Painting) : List (Fin 2048) :=
  Screen.hits painting.x painting.y painting.sprite

/-- Paintings of the same sprite whose corners go to the same cell. -/
structure Congruent (first second : Painting) : Prop where
  x_mod : first.x.toNat % 64 = second.x.toNat % 64
  y_mod : first.y.toNat % 32 = second.y.toNat % 32
  sprite_eq : first.sprite = second.sprite

theorem Congruent.hits_eq {first second : Painting} (congruent : first.Congruent second) :
    first.hits = second.hits := by
  have x_mod := congruent.x_mod
  have y_mod := congruent.y_mod
  rw [hits, hits, congruent.sprite_eq, Screen.hits_eq_map_target, Screen.hits_eq_map_target]
  apply List.map_congr_left
  intro bit _
  rw [Screen.target, Screen.target, Screen.place_eq_place_iff]
  constructor
  · omega
  · omega

end Painting

namespace Screen

/-- Paints one sprite after the other and tells of each whether it collided. -/
def paintAll (screen : Screen) : List Painting → Screen × List Bool
  | [] => (screen, [])
  | painting :: paintings =>
    let (painted, collided) := screen.paint painting.x painting.y painting.sprite
    let (final, told) := painted.paintAll paintings
    (final, collided :: told)

variable {x y : UInt8} {sprite : List UInt8} {first second : List Painting}

/-! ## Cells -/

theorem get_paintAll (screen : Screen) (paintings : List Painting) (place : Fin 2048) :
    (screen.paintAll paintings).1.cells.get place =
      screen.cells.get place ^^^ parity ((paintings.flatMap Painting.hits).count place) := by
  induction paintings generalizing screen with
  | nil => simp [paintAll]
  | cons painting paintings ih =>
      have painted := screen.get_paint painting.x painting.y painting.sprite place
      have rest := ih (screen.paint painting.x painting.y painting.sprite).1
      rw [painted, UInt8.xor_assoc, ← parity_add, ← List.count_append] at rest
      exact rest

/-- Paintings that strike each cell equally often modulo two leave the same cells. -/
theorem cells_paintAll_eq (screen : Screen)
    (same : ∀ place, parity ((first.flatMap Painting.hits).count place) =
      parity ((second.flatMap Painting.hits).count place)) :
    (screen.paintAll first).1.cells = (screen.paintAll second).1.cells := by
  apply Vector.ext
  intro place below
  have first_get := screen.get_paintAll first ⟨place, below⟩
  rw [same, ← get_paintAll] at first_get
  exact first_get

theorem cells_paintAll_of_perm (screen : Screen) (perm : first.Perm second) :
    (screen.paintAll first).1.cells = (screen.paintAll second).1.cells := by
  apply cells_paintAll_eq
  intro place
  rw [(perm.flatMap_right Painting.hits).count_eq]

theorem cells_paintAll_of_twice (screen : Screen) (painting : Painting)
    (before between after : List Painting) :
    (screen.paintAll (before ++ painting :: between ++ painting :: after)).1.cells =
      (screen.paintAll (before ++ between ++ after)).1.cells := by
  apply cells_paintAll_eq
  intro place
  simp only [List.flatMap_append, List.flatMap_cons, List.count_append, parity]
  congr 1
  omega

/-! ## Collisions -/

theorem paintAll_of_congruent (screen : Screen)
    (congruent : List.Forall₂ Painting.Congruent first second) :
    screen.paintAll first = screen.paintAll second := by
  induction congruent generalizing screen with
  | nil => rfl
  | cons alike _ ih =>
      have hits_eq := alike.hits_eq
      simp only [Painting.hits] at hits_eq
      simp only [paintAll, paint, hits_eq, ih]

/-- A low sprite turns the cells over that it strikes. -/
theorem get_target_paint (low : sprite.length ≤ 32) (screen : Screen) {bit : Nat × Nat}
    (bit_mem : bit ∈ setBits sprite) :
    (screen.paint x y sprite).1.cells.get (target x y bit) =
      screen.cells.get (target x y bit) ^^^ 1 := by
  have struck : target x y bit ∈ hits x y sprite := by
    rw [hits_eq_map_target]
    exact List.mem_map_of_mem bit_mem
  rw [get_paint, List.count_eq_one_of_mem (nodup_hits low) struck]
  rfl

theorem collided_paint_paint (low : sprite.length ≤ 32) {screen : Screen}
    (binary : IsBinary screen.cells) :
    ((screen.paint x y sprite).1.paint x y sprite).2 = true ↔
      ∃ bit ∈ setBits sprite, screen.cells.get (target x y bit) = 0 := by
  rw [collided_paint_of_low low]
  apply exists_congr
  intro bit
  apply and_congr_right
  intro bit_mem
  rw [get_target_paint low screen bit_mem]
  rcases binary (target x y bit) with dark | lit
  · simp [dark]
  · simp [lit]

theorem collided_paint_paint_of_not_collided (low : sprite.length ≤ 32) {screen : Screen}
    (binary : IsBinary screen.cells) (quiet : (screen.paint x y sprite).2 = false) :
    ((screen.paint x y sprite).1.paint x y sprite).2 = true ↔ setBits sprite ≠ [] := by
  have unlit : ∀ bit ∈ setBits sprite, screen.cells.get (target x y bit) ≠ 1 := by
    rw [← Bool.not_eq_true, collided_paint_of_low low] at quiet
    intro bit bit_mem lit
    exact quiet ⟨bit, bit_mem, lit⟩
  rw [collided_paint_paint low binary]
  constructor
  · rintro ⟨bit, bit_mem, _⟩
    exact List.ne_nil_of_mem bit_mem
  · intro nonempty
    rcases List.exists_mem_of_ne_nil _ nonempty with ⟨bit, bit_mem⟩
    exact ⟨bit, bit_mem, (binary _).resolve_right (unlit bit bit_mem)⟩

/-- The cells after a number of paintings are the same in any order, and as if two equal paintings
had not been there. Corners may be replaced by congruent ones. A second painting right after an
equal one collides where the screen was dark before the first, so if the first did not collide then
the second does, unless there is nothing to paint. -/
theorem painting_cancels (screen : Screen) :
    (∀ first second, first.Perm second →
        (screen.paintAll first).1.cells = (screen.paintAll second).1.cells) ∧
      (∀ first second, List.Forall₂ Painting.Congruent first second →
        screen.paintAll first = screen.paintAll second) ∧
      (∀ painting before between after,
        (screen.paintAll (before ++ painting :: between ++ painting :: after)).1.cells =
          (screen.paintAll (before ++ between ++ after)).1.cells) ∧
      ∀ x y sprite, IsBinary screen.cells → sprite.length ≤ 32 →
        let once := screen.paint x y sprite
        let twice := once.1.paint x y sprite
        (twice.2 = true ↔ ∃ bit ∈ setBits sprite,
            ∃ column row, Lands x y column row bit ∧ screen.cell column row = 0) ∧
          (once.2 = false → (twice.2 = true ↔ setBits sprite ≠ [])) := by
  refine ⟨?_, ?_, screen.cells_paintAll_of_twice, ?_⟩
  · intro first second perm
    exact screen.cells_paintAll_of_perm perm
  · intro first second congruent
    exact screen.paintAll_of_congruent congruent
  · intro x y sprite binary low once twice
    refine ⟨?_, collided_paint_paint_of_not_collided low binary⟩
    rw [collided_paint_paint low binary]
    apply exists_congr
    intro bit
    apply and_congr_right
    intro _
    exact (@exists_lands_iff x y bit fun place => screen.cells.get place = 0).symm

theorem not_collided_blank (low : sprite.length ≤ 32) : (blank.paint x y sprite).2 = false := by
  rw [← Bool.not_eq_true, collided_paint_of_low low]
  rintro ⟨bit, _, lit⟩
  simp [blank, Vector.get_eq_getElem] at lit

/-- A ring at the last corner of the screen is painted twice, with a line across it in between. -/
theorem line_remains_of_ring :
    let ring : Painting := ⟨62, 30, [0xF0, 0x90, 0xF0]⟩
    let moved : Painting := ⟨190, 222, [0xF0, 0x90, 0xF0]⟩
    let line : Painting := ⟨0, 31, [0xFF]⟩
    (blank.paintAll [ring, line, ring]).1.cells = (blank.paintAll [line]).1.cells ∧
      (blank.paintAll [ring, line]).1.cells = (blank.paintAll [line, ring]).1.cells ∧
      blank.paintAll [ring, line] = blank.paintAll [moved, line] ∧
      ((blank.paint 62 30 ring.sprite).1.paint 62 30 ring.sprite).2 = true := by
  intro ring moved line
  rcases painting_cancels blank with ⟨ordered, replaced, cancelled, again⟩
  have low : ring.sprite.length ≤ 32 := by decide
  refine ⟨cancelled ring [] [line] [], ordered _ _ (.swap _ _ _), ?_, ?_⟩
  · apply replaced
    exact .cons ⟨by decide, by decide, rfl⟩ (.cons ⟨rfl, rfl, rfl⟩ .nil)
  · have repainted := (again 62 30 ring.sprite isBinary_dark low).2 (not_collided_blank low)
    rw [repainted]
    decide

end Screen

end Chip8

/-!
# Nibbles

A nibble is four bits, which tell one of sixteen registers, keys or digits. Where a byte
stands for one of them, its low four bits count.
-/

namespace Chip8

/-- One of sixteen registers, keys or digits. -/
abbrev Nibble := Fin 16

namespace Nibble

variable {α : Type}

/-- The low four bits of a byte. -/
def low (byte : UInt8) : Nibble :=
  Fin.ofNat 16 byte.toNat

/-- The one of sixteen things that a byte names. -/
def select (things : Vector α 16) (byte : UInt8) : α :=
  things[low byte]

/-- Replaces the one of sixteen things that a byte names. -/
def replace (things : Vector α 16) (byte : UInt8) (thing : α) : Vector α 16 :=
  things.set (low byte) thing (low byte).isLt

@[simp]
theorem val_low (byte : UInt8) : (low byte).val = byte.toNat % 16 := rfl

@[simp]
theorem low_ofNat (nibble : Nibble) : low (UInt8.ofNat nibble.val) = nibble := by
  apply Fin.ext
  simp only [val_low, UInt8.toNat_ofNat']
  omega

theorem select_replace (things : Vector α 16) (byte other : UInt8) (thing : α) :
    select (replace things byte thing) other =
      if low byte = low other then thing else select things other := by
  simp [select, replace, Vector.getElem_set, Fin.ext_iff]

@[simp]
theorem select_replace_self (things : Vector α 16) (byte : UInt8) (thing : α) :
    select (replace things byte thing) byte = thing := by
  simp [select_replace]

theorem select_ofNat (things : Vector α 16) (nibble : Nibble) :
    select things (UInt8.ofNat nibble.val) = things.get nibble := by
  simp only [select, low_ofNat]
  rfl

theorem select_eq_getD (things : Vector α 16) (byte : UInt8) (thing : α) :
    select things byte = things.getD (byte.toNat % 16) thing := by
  have inside : byte.toNat % 16 < 16 := Nat.mod_lt _ (by decide)
  simp [select, low, Vector.getD, Array.getD, inside]

/-- The sixteen bytes that name them tell all things there are. -/
theorem eq_of_select {things others : Vector α 16}
    (same : ∀ nibble : Nibble,
      select things (UInt8.ofNat nibble.val) = select others (UInt8.ofNat nibble.val)) :
    things = others := by
  apply Vector.ext
  intro place inside
  have there := same ⟨place, inside⟩
  rw [select_ofNat, select_ofNat] at there
  exact there

@[simp]
theorem select_replicate (thing : α) (byte : UInt8) :
    select (Vector.replicate 16 thing) byte = thing := by
  simp [select]

end Nibble

end Chip8

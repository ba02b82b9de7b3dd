import Chip8.Memory
import Chip8.Registers
import Mathlib

/-!
# Runs of bytes

Bytes go between memory and the registers in runs, which start over when they reach the end: a run
in memory after its last byte, a run of registers after VF. A run touches only the places that it
passes, and of the address where it starts only the low twelve bits matter.
-/

namespace Chip8

/-- Addresses that select the same byte go on doing so when they are moved together. -/
theorem Address.cell_add {first second : Address} (same : first.cell = second.cell)
    (offset : UInt16) : (first + offset).cell = (second + offset).cell := by
  simp only [Address.cell, Fin.ext_iff, Fin.val_ofNat, UInt16.toNat_add] at same ⊢
  omega

/-- The place in memory of the byte at an offset of a run that starts at an address. -/
def Address.place (start : Address) (offset : Nat) : Fin 4096 :=
  (start + UInt16.ofNat offset).cell

@[simp]
theorem Address.val_place (start : Address) (offset : Nat) :
    (start.place offset).val = (start.toNat + offset) % 4096 := by
  simp only [place, val_cell, UInt16.toNat_add, UInt16.toNat_ofNat']
  omega

/-- To go on by one in a run of addresses adds one to the offset. -/
theorem Address.succ_add_mod (start : Address) (offset : Nat) :
    ((start + 1).toNat + offset) % 4096 = (start.toNat + (offset + 1)) % 4096 := by
  rw [UInt16.toNat_add, UInt16.toNat_one]
  omega

theorem Address.place_succ (start : Address) (offset : Nat) :
    start.place (offset + 1) = (start + 1).place offset := by
  apply Fin.ext
  rw [val_place, val_place, succ_add_mod]

namespace Memory

variable {first second : Address}

/-! ## Reading -/

@[simp]
theorem length_load (memory : Memory) (start : Address) (count : Nat) :
    (memory.load start count).length = count := by
  simp [load]

/-- A run is read from where it starts on, starting over at the end of memory. -/
theorem load_eq_map (memory : Memory) (start : Address) (count : Nat) :
    memory.load start count = (List.range count).map fun offset =>
      memory.bytes.get (start.place offset) := rfl

theorem load_congr (memory : Memory) (same : first.cell = second.cell) (count : Nat) :
    memory.load first count = memory.load second count := by
  apply List.map_congr_left
  intro offset _
  simp only [get, Address.cell_add same]

/-! ## Writing -/

theorem store_congr (memory : Memory) (same : first.cell = second.cell) (bytes : List UInt8) :
    memory.store first bytes = memory.store second bytes := by
  induction bytes generalizing memory first second with
  | nil => rfl
  | cons byte rest ih =>
      have moved : memory.set first byte = memory.set second byte := by
        simp only [set, same]
      simp only [store, moved]
      exact ih _ (Address.cell_add same 1)

/-- A run leaves the places alone that it does not pass. -/
theorem bytes_store_of_apart (memory : Memory) (start : Address) (bytes : List UInt8)
    (place : Fin 4096)
    (apart : ∀ offset < bytes.length, (start.toNat + offset) % 4096 ≠ place.val) :
    (memory.store start bytes).bytes.get place = memory.bytes.get place := by
  induction bytes generalizing memory start with
  | nil => rfl
  | cons byte rest ih =>
      have here : start.toNat % 4096 ≠ place.val := apart 0 (by simp)
      rw [store, ih]
      · simp [set, Vector.get_eq_getElem, here]
      · intro offset within
        rw [Address.succ_add_mod]
        exact apart (offset + 1) (by simpa using within)

theorem bytes_store_of_lt (memory : Memory) (start : Address) {bytes : List UInt8}
    (short : bytes.length ≤ 4096) {offset : Nat} (within : offset < bytes.length) :
    (memory.store start bytes).bytes.get (start.place offset) = bytes[offset] := by
  induction bytes generalizing memory start offset with
  | nil => cases within
  | cons byte rest ih =>
      rw [List.length_cons] at short within
      cases offset with
      | zero =>
          -- The rest of the run comes back to its first place only after all of memory.
          rw [store, bytes_store_of_apart]
          · simp [set, Vector.get_eq_getElem]
          · intro later later_lt
            rw [Address.val_place, Address.succ_add_mod]
            omega
      | succ offset =>
          rw [store, Address.place_succ]
          exact ih (memory.set start byte) (start + 1) (by omega) (by omega)

/-- The memory `after` holds the bytes from `start` on, and elsewhere what `before` holds. -/
structure Written (before after : Memory) (start : Address) (bytes : List UInt8) : Prop where
  inside : ∀ offset (within : offset < bytes.length),
    after.bytes.get (start.place offset) = bytes[offset]
  outside : ∀ place, (∀ offset < bytes.length, start.place offset ≠ place) →
    after.bytes.get place = before.bytes.get place

theorem written_store (memory : Memory) (start : Address) {bytes : List UInt8}
    (short : bytes.length ≤ 4096) : memory.Written (memory.store start bytes) start bytes where
  inside _ within := memory.bytes_store_of_lt start short within
  outside place apart := by
    apply memory.bytes_store_of_apart
    intro offset within same
    rw [← Address.val_place] at same
    exact apart offset within (Fin.ext same)

/-- A run that is put back where it was read changes nothing. -/
theorem store_load (memory : Memory) (start : Address) {count : Nat} (short : count ≤ 4096) :
    memory.store start (memory.load start count) = memory := by
  have written := memory.written_store start ((memory.length_load start count).trans_le short)
  have same : ∀ place, (memory.store start (memory.load start count)).bytes.get place =
      memory.bytes.get place := by
    intro place
    by_cases passed : ∃ offset < count, start.place offset = place
    · rcases passed with ⟨offset, within, rfl⟩
      rw [written.inside offset (by simpa using within)]
      simp [load_eq_map]
    · apply written.outside
      intro offset within at_place
      exact passed ⟨offset, by simpa using within, at_place⟩
  rw [Memory.mk.injEq]
  apply Vector.ext
  intro place below
  exact same ⟨place, below⟩

end Memory

namespace Registers

@[simp]
theorem length_first (registers : Registers) (count : Nat) :
    (registers.first count).length = count := by
  simp [first]

theorem get_eq_get_bytes (registers : Registers) (x : UInt8) :
    registers.get x = registers.bytes.get (Nibble.low x) := rfl

theorem bytes_set_of_ne {register : Nibble} (registers : Registers) {x : UInt8} (value : UInt8)
    (other : register ≠ Nibble.low x) :
    (registers.set x value).bytes.get register = registers.bytes.get register := by
  have apart : x.toNat % 16 ≠ register.val := by
    intro same
    exact other (Fin.ext same.symm)
  simp [set, Nibble.replace, Vector.get_eq_getElem, apart]

/-- The registers `after` hold the byte in VX, and elsewhere what `before` holds. -/
structure Gets (before after : Registers) (x value : UInt8) : Prop where
  named : after.bytes.get (Nibble.low x) = value
  others : ∀ register, register ≠ Nibble.low x →
    after.bytes.get register = before.bytes.get register

theorem gets_set (registers : Registers) (x value : UInt8) :
    registers.Gets (registers.set x value) x value where
  named := by simp [set, Nibble.replace, Vector.get_eq_getElem]
  others _ other := registers.bytes_set_of_ne value other

/-- To go on by one in a run of registers adds one to the offset. -/
theorem succ_add_mod (start : UInt8) (offset : Nat) :
    ((start + 1).toNat + offset) % 16 = (start.toNat + (offset + 1)) % 16 := by
  rw [UInt8.toNat_add, UInt8.toNat_one]
  omega

/-- A run leaves the registers alone that it does not pass. -/
theorem bytes_fill_of_apart (registers : Registers) (start : UInt8) (bytes : List UInt8)
    (register : Nibble)
    (apart : ∀ offset < bytes.length, (start.toNat + offset) % 16 ≠ register.val) :
    (registers.fill start bytes).bytes.get register = registers.bytes.get register := by
  induction bytes generalizing registers start with
  | nil => rfl
  | cons byte rest ih =>
      have here : start.toNat % 16 ≠ register.val := apart 0 (by simp)
      rw [fill, ih]
      · apply bytes_set_of_ne
        intro same
        exact here (congrArg Fin.val same).symm
      · intro offset within
        rw [succ_add_mod]
        exact apart (offset + 1) (by simpa using within)

/-- If a run brings the same byte each time that it passes a register, that byte stays. -/
theorem bytes_fill_of_agree (registers : Registers) (start : UInt8) {bytes : List UInt8}
    {register : Nibble} {value : UInt8}
    (passed : ∃ offset < bytes.length, (start.toNat + offset) % 16 = register.val)
    (agree : ∀ offset (within : offset < bytes.length),
      (start.toNat + offset) % 16 = register.val → bytes[offset] = value) :
    (registers.fill start bytes).bytes.get register = value := by
  induction bytes generalizing registers start with
  | nil =>
      rcases passed with ⟨offset, within, _⟩
      cases within
  | cons byte rest ih =>
      rw [fill]
      by_cases again : ∃ offset < rest.length, ((start + 1).toNat + offset) % 16 = register.val
      · apply ih _ _ again
        intro offset within same
        rw [succ_add_mod] at same
        exact agree (offset + 1) (by simpa using within) same
      · rcases passed with ⟨offset, within, same⟩
        cases offset with
        | zero =>
            rw [bytes_fill_of_apart]
            · have here : byte = value := agree 0 within same
              have first : register = Nibble.low start := Fin.ext same.symm
              rw [first, (registers.gets_set start byte).named, here]
            · intro offset within same
              exact again ⟨offset, within, same⟩
        | succ offset =>
            rw [← succ_add_mod] at same
            exact absurd ⟨offset, by simpa using within, same⟩ again

end Registers

end Chip8

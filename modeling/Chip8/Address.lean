/-!
# Addresses

An address is a 16-bit word of which the low twelve bits select one of the 4096 bytes of
memory. Arithmetic on addresses is done on whole words; the four high bits are dropped
when a byte is selected (`Address.cell`) or when the word becomes a program counter
(`Address.wrap`).
-/

namespace Chip8

/-- A word that names a byte of memory through its low twelve bits. -/
abbrev Address := UInt16

namespace Address

/-- The place where programs are loaded and where execution starts. -/
def programStart : Address := 0x200

/-- The address with its four high bits dropped. -/
def wrap (address : Address) : Address := address % 4096

/-- The byte of memory that an address selects. -/
def cell (address : Address) : Fin 4096 :=
  Fin.ofNat 4096 address.toNat

@[simp]
theorem toNat_wrap (address : Address) : (wrap address).toNat = address.toNat % 4096 := by
  simp [wrap]

@[simp]
theorem val_cell (address : Address) : (cell address).val = address.toNat % 4096 := rfl

@[simp]
theorem cell_wrap (address : Address) : cell (wrap address) = cell address := by
  simp [cell, Fin.ext_iff]

@[simp]
theorem wrap_wrap (address : Address) : wrap (wrap address) = wrap address := by
  rw [← UInt16.toNat_inj]
  simp

/-- Wrapping leaves exactly the addresses of memory as they are. -/
theorem wrap_eq_self_iff {address : Address} : wrap address = address ↔ address.toNat < 4096 := by
  rw [← UInt16.toNat_inj, toNat_wrap]
  omega

end Address

end Chip8

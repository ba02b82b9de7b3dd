import Chip8.Nibble

/-!
# The keypad

Sixteen keys, one for each hexadecimal digit, each up or down. The host sets them and the
machine reads them; `Keypad.mask` collects them in a word with one bit for each key.
-/

namespace Chip8

/-- Which keys are down. -/
structure Keypad where
  keys : Vector Bool 16
  deriving DecidableEq

namespace Keypad

/-- No key is down. -/
def released : Keypad := ⟨Vector.replicate 16 false⟩

/-- Whether the key named by the low four bits of a byte is down. -/
def isPressed (keypad : Keypad) (key : UInt8) : Bool :=
  Nibble.select keypad.keys key

/-- Sets the key named by the low four bits of a byte. -/
def set (keypad : Keypad) (key : UInt8) (pressed : Bool) : Keypad :=
  ⟨Nibble.replace keypad.keys key pressed⟩

/-- All keys go up. -/
def release (keypad : Keypad) : Keypad :=
  ⟨keypad.keys.map fun _ => false⟩

/-- The word whose bit `k` tells whether key `k` is down. -/
def mask (keypad : Keypad) : UInt16 :=
  UInt16.ofBitVec ((BitVec.ofBoolListLE keypad.keys.toList).setWidth 16)

/-- The keypad whose key `k` is down exactly if bit `k` of the word is set. -/
def ofMask (word : UInt16) : Keypad :=
  ⟨Vector.ofFn fun key => word.toNat.testBit key.val⟩

/-- The lowest key whose bit is set in a word. -/
def lowest? (word : UInt16) : Option Nibble :=
  (List.finRange 16).find? fun key => word.toNat.testBit key.val

/-- Bit `k` of the mask is key `k`. -/
theorem testBit_mask (keypad : Keypad) (key : Nibble) :
    keypad.mask.toNat.testBit key = keypad.keys[key] := by
  change (BitVec.setWidth 16 (BitVec.ofBoolListLE keypad.keys.toList)).getLsbD key = _
  rw [BitVec.getLsbD_setWidth, BitVec.getLsbD_ofBoolListLE]
  simp

/-- Words are equal if they have the same bits for the sixteen keys. -/
theorem eq_of_testBit {word other : UInt16}
    (same : ∀ key : Nibble, word.toNat.testBit key.val = other.toNat.testBit key.val) :
    word = other := by
  apply UInt16.toNat_inj.mp
  apply Nat.eq_of_testBit_eq
  intro place
  by_cases inside : place < 16
  · exact same ⟨place, inside⟩
  · -- No word has a bit beyond its sixteen places.
    have clear : ∀ bits : UInt16, bits.toNat.testBit place = false := by
      intro bits
      apply Nat.testBit_lt_two_pow
      exact Nat.lt_of_lt_of_le bits.toNat_lt (Nat.pow_le_pow_right (by decide) (by omega))
    rw [clear, clear]

theorem isPressed_ofNat (keypad : Keypad) (key : Nibble) :
    keypad.isPressed (UInt8.ofNat key.val) = keypad.keys[key] :=
  Nibble.select_ofNat keypad.keys key

theorem eq_of_isPressed {keypad other : Keypad}
    (same : ∀ byte, keypad.isPressed byte = other.isPressed byte) : keypad = other := by
  rw [Keypad.mk.injEq]
  apply Nibble.eq_of_select
  intro key
  exact same (UInt8.ofNat key.val)

@[simp]
theorem isPressed_release (keypad : Keypad) (key : UInt8) :
    keypad.release.isPressed key = false := by
  simp [isPressed, release, Nibble.select]

theorem isPressed_set (keypad : Keypad) (key other : UInt8) (pressed : Bool) :
    (keypad.set key pressed).isPressed other =
      if Nibble.low key = Nibble.low other then pressed else keypad.isPressed other :=
  Nibble.select_replace keypad.keys key other pressed

end Keypad

end Chip8

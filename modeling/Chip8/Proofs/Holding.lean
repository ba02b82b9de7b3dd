import Chip8.Keyboard
import Chip8.Machine.Action
import Mathlib

/-!
# Held keys

A keypad that is set from the keyboard tells the held keys and nothing else: what was pressed on it
before is forgotten first, and each key that goes down leaves those down that went before it. Every
key of the keypad has exactly one key of the keyboard that stands for it (`standIn`). So two lists
of held keys make the same keypad if and only if they hold the same keys of the block, and every
word is the mask of some list.
-/

namespace Chip8

namespace Key

/-- The keys of the keyboard that stand for the keys of the keypad from `0` to `F`. -/
def block : Vector Key 16 :=
  #v[x, digit1, digit2, digit3, q, w, e, a, s, d, z, c, digit4, r, f, v]

/-- The key of the keyboard that stands for a key of the keypad. -/
def standIn (number : Nibble) : Key := block.get number

/-- The keys to hold for those keys of the keypad whose bits are set in a word. -/
def chord (word : UInt16) : List Key :=
  ((List.finRange 16).filter fun number => word.toNat.testBit number.val).map standIn

/-- One of the held keys stands for a key of the keypad. -/
def IsHeld (held : List Key) (number : Nibble) : Prop :=
  ∃ key ∈ held, key.number? = some (UInt8.ofNat number.val)

variable {key : Key} {number : UInt8} {held : List Key} {nibble : Nibble}

theorem number?_standIn (nibble : Nibble) :
    (standIn nibble).number? = some (UInt8.ofNat nibble.val) := by
  revert nibble
  decide

theorem standIn_low (stands : key.number? = some number) : standIn (Nibble.low number) = key := by
  cases key <;> cases stands <;> rfl

/-- A key stands for no number beyond those of the keypad. -/
theorem ofNat_low (stands : key.number? = some number) :
    UInt8.ofNat (Nibble.low number).val = number := by
  have again := number?_standIn (Nibble.low number)
  rw [standIn_low stands, stands] at again
  exact (Option.some.inj again).symm

theorem isHeld_iff_standIn_mem : IsHeld held nibble ↔ standIn nibble ∈ held := by
  constructor
  · rintro ⟨key, key_held, stands⟩
    have only := standIn_low stands
    rw [Nibble.low_ofNat] at only
    rwa [only]
  · intro held
    exact ⟨standIn nibble, held, number?_standIn nibble⟩

theorem standIn_injective : Function.Injective standIn := by
  intro nibble other same
  have numbers := congrArg number? same
  rw [number?_standIn, number?_standIn] at numbers
  simpa using congrArg Nibble.low (Option.some.inj numbers)

theorem isHeld_chord (word : UInt16) (nibble : Nibble) :
    IsHeld (chord word) nibble ↔ word.toNat.testBit nibble.val = true := by
  rw [isHeld_iff_standIn_mem, chord, List.mem_map_of_injective standIn_injective]
  simp

end Key

open Key

namespace Keypad

variable {keypad other : Keypad} {held others : List Key}

/-- The keys that are down after some were set are those that were down before and those set. -/
theorem isPressed_foldl_set (keypad : Keypad) (numbers : List UInt8) (byte : UInt8) :
    (numbers.foldl (fun keypad number => keypad.set number true) keypad).isPressed byte = true ↔
      keypad.isPressed byte = true ∨ Nibble.low byte ∈ numbers.map Nibble.low := by
  -- Each key that goes down leaves another keypad to the rest, so the keypad is not fixed.
  induction numbers generalizing keypad with
  | nil => simp
  | cons number numbers ih =>
      simp only [List.foldl_cons, ih, isPressed_set, List.map_cons, List.mem_cons]
      by_cases same : Nibble.low number = Nibble.low byte
      · simp [same]
      · simp [same, Ne.symm same]

theorem isPressed_hold (keypad : Keypad) (held : List Key) (byte : UInt8) :
    (keypad.hold held).isPressed byte = true ↔ IsHeld held (Nibble.low byte) := by
  rw [hold, isPressed_foldl_set, isPressed_release, List.mem_map]
  constructor
  · rintro (impossible | ⟨number, told, same⟩)
    · cases impossible
    · rcases List.mem_filterMap.mp told with ⟨key, key_held, stands⟩
      refine ⟨key, key_held, ?_⟩
      rw [stands, ← same, ofNat_low stands]
  · rintro ⟨key, key_held, stands⟩
    right
    exact ⟨_, List.mem_filterMap.mpr ⟨key, key_held, stands⟩, Nibble.low_ofNat _⟩

theorem testBit_mask_hold (keypad : Keypad) (held : List Key) (key : Nibble) :
    (keypad.hold held).mask.toNat.testBit key.val = true ↔ IsHeld held key := by
  have pressed := isPressed_hold keypad held (UInt8.ofNat key.val)
  simpa only [isPressed_ofNat, ← testBit_mask, Nibble.low_ofNat] using pressed

/-- Lists of held keys make the same keypad if and only if they hold the same keys of the block. -/
theorem hold_eq_hold_iff : keypad.hold held = other.hold others ↔
    ∀ key : Key, key.number?.isSome → (key ∈ held ↔ key ∈ others) := by
  constructor
  · intro same key mapped
    rcases Option.isSome_iff_exists.mp mapped with ⟨number, stands⟩
    have told := testBit_mask_hold keypad held (Nibble.low number)
    rw [same, testBit_mask_hold, isHeld_iff_standIn_mem, isHeld_iff_standIn_mem,
      standIn_low stands] at told
    exact told.symm
  · intro alike
    apply eq_of_isPressed
    intro byte
    rw [Bool.eq_iff_iff, isPressed_hold, isPressed_hold, isHeld_iff_standIn_mem,
      isHeld_iff_standIn_mem]
    apply alike
    rw [number?_standIn]
    rfl

/-- A key of the keypad is down if and only if one of the held keys stands for it, in the mask and
for every byte that names it. Nothing settles the keypad but which keys of the block are held: not
the keypad before, not the order of the list, not how often a key stands in it. No two keys stand
for the same key of the keypad, and every word is the mask of a chord. A machine that is given the
held keys has this keypad, whatever it had before, and is otherwise as it was. -/
theorem keypad_tells_held_keys (keypad : Keypad) (held : List Key) :
    (∀ number : Nibble,
        ((keypad.hold held).mask.toNat.testBit number.val = true ↔ IsHeld held number) ∧
          ∀ byte : UInt8, byte.toNat % 16 = number.val →
            ((keypad.hold held).isPressed byte = true ↔ IsHeld held number)) ∧
      (∀ (other : Keypad) (others : List Key), other.hold others = keypad.hold held ↔
        ∀ key : Key, key.number?.isSome → (key ∈ others ↔ key ∈ held)) ∧
      (keypad.hold held).hold held = keypad.hold held ∧
      (∀ first second : Key, first.number?.isSome → first.number? = second.number? →
        first = second) ∧
      (∀ word : UInt16, (keypad.hold (chord word)).mask = word) ∧
      ∀ (machine : Machine) (now : Time), machine.perform now (.holdKeys held) =
        ({ machine with keypad := keypad.hold held } : Machine).quietly .done := by
  have settled : ∀ other : Keypad, other.hold held = keypad.hold held := by
    intro other
    apply hold_eq_hold_iff.mpr
    intro key _
    rfl
  refine ⟨?_, fun other others => hold_eq_hold_iff, settled _, ?_, ?_, ?_⟩
  · intro number
    refine ⟨testBit_mask_hold keypad held number, ?_⟩
    intro byte ending
    have named : Nibble.low byte = number := Fin.ext ending
    rw [isPressed_hold, named]
  · intro first second mapped same
    rcases Option.isSome_iff_exists.mp mapped with ⟨number, stands⟩
    rw [← standIn_low stands, standIn_low (same.symm.trans stands)]
  · intro word
    apply eq_of_testBit
    intro key
    rw [Bool.eq_iff_iff, testBit_mask_hold, isHeld_chord]
  · intro machine now
    rw [Machine.perform, settled]

/-- Key 1 of the keypad was down, and now `V` and `X` are held, with a key off the block between
them and `V` told twice. -/
theorem x_and_v_are_told :
    ((released.set 0x1 true).hold [.v, .unmapped, .x, .v]).mask = 0x8001 ∧
      ((released.set 0x1 true).hold [.v, .unmapped, .x, .v]).isPressed 0x1F = true ∧
      ((released.set 0x1 true).hold [.v, .unmapped, .x, .v]).isPressed 0x11 = false ∧
      released.hold [.x, .v] = (released.set 0x1 true).hold [.v, .unmapped, .x, .v] ∧
      ∀ key : Key, some 0xF = key.number? → .v = key := by
  rcases keypad_tells_held_keys (released.set 0x1 true) [.v, .unmapped, .x, .v] with
    ⟨told, same, -, apart, masks, -⟩
  have chord_eq : chord 0x8001 = [.x, .v] := by decide
  have alike : ∀ key : Key, key.number?.isSome →
      (key ∈ chord 0x8001 ↔ key ∈ [.v, .unmapped, .x, .v]) := by
    intro key mapped
    rw [chord_eq]
    cases key <;> simp at mapped ⊢
    cases mapped
  refine ⟨?_, ?_, ?_, ?_, fun key => apart .v key rfl⟩
  · rw [← (same (released.set 0x1 true) (chord 0x8001)).mpr alike]
    exact masks 0x8001
  · apply ((told 0xF).2 0x1F rfl).mpr
    exact ⟨.v, by simp, rfl⟩
  · rw [← Bool.not_eq_true, (told 0x1).2 0x11 rfl, isHeld_iff_standIn_mem]
    decide
  · rw [← chord_eq]
    exact (same released (chord 0x8001)).mpr alike

end Keypad

end Chip8

import Chip8.Keypad

/-!
# The keyboard

The host's keyboard stands in for the keypad: the four by four block of keys from `1` to `V`
takes the place of the keypad's block, key by key.

```text
1 2 3 C      1 2 3 4
4 5 6 D  as  Q W E R
7 8 9 E      A S D F
A 0 B F      Z X C V
```
-/

namespace Chip8

/-- The keys of the keyboard that stand for a key of the keypad; any other is `unmapped`. -/
inductive Key
  | digit1 | digit2 | digit3 | digit4
  | q | w | e | r
  | a | s | d | f
  | z | x | c | v
  | unmapped
  deriving DecidableEq

namespace Key

/-- The key of the keypad that a key of the keyboard stands for. -/
def number? : Key → Option UInt8
  | digit1 => some 0x1
  | digit2 => some 0x2
  | digit3 => some 0x3
  | digit4 => some 0xC
  | q => some 0x4
  | w => some 0x5
  | e => some 0x6
  | r => some 0xD
  | a => some 0x7
  | s => some 0x8
  | d => some 0x9
  | f => some 0xE
  | z => some 0xA
  | x => some 0x0
  | c => some 0xB
  | v => some 0xF
  | unmapped => none

end Key

/-- Replaces what was pressed on a keypad by the keys that the held ones stand for. -/
def Keypad.hold (keypad : Keypad) (held : List Key) : Keypad :=
  (held.filterMap Key.number?).foldl (fun keypad number => keypad.set number true) keypad.release

end Chip8

import Chip8.Proofs.Coding
import Mathlib

/-!
# The forms of words

The instruction set is written down as forms such as 8XY4, where a hexadecimal digit stands for
itself and a letter for a field. Fields and forms are said here on the number of a word, without
regard to how words are read. The first digit is the `family` of a word; the fields X and Y, which
name registers, are `x` and `y`; the last digit, N, is `digit`; NN is `byte` as a constant and
`ending` as a part of a form; NNN is `address`.

`Instruction.Form` is the table of the forms, and `Instruction.form_decode` says that reading a word
follows it. What holds of every word can then be proved form by form, with the fields of the word in
place of the operands. In this way every word is read as an instruction whose operands fit and which
is written as that word again.
-/

namespace Chip8

namespace Word

def family (word : Nat) : Nat := word / 0x1000

def x (word : Nat) : UInt8 := UInt8.ofNat (word / 0x100 % 0x10)

def y (word : Nat) : UInt8 := UInt8.ofNat (word / 0x10 % 0x10)

def digit (word : Nat) : Nat := word % 0x10

def ending (word : Nat) : Nat := word % 0x100

def byte (word : Nat) : UInt8 := UInt8.ofNat (ending word)

def address (word : Nat) : Address := UInt16.ofNat (word % 0x1000)

/-- The word has one of the thirty-five forms of the instruction set. -/
def IsDefined (word : Nat) : Prop :=
  match family word with
  | 0x5 | 0x9 => digit word = 0
  | 0x8 => digit word ≤ 7 ∨ digit word = 0xE
  | 0xE => ending word = 0x9E ∨ ending word = 0xA1
  | 0xF => ending word ∈ [0x07, 0x0A, 0x15, 0x18, 0x1E, 0x29, 0x33, 0x55, 0x65]
  | _ => True

@[simp]
theorem toNat_address (word : Nat) : (address word).toNat = word % 0x1000 := by
  simp [address]
  omega

theorem toNat_x (word : Nat) : (x word).toNat = word / 0x100 % 0x10 := by
  simp [x]
  omega

theorem toNat_y (word : Nat) : (y word).toNat = word / 0x10 % 0x10 := by
  simp [y]
  omega

theorem toNat_byte (word : Nat) : (byte word).toNat = ending word := by
  simp [byte, ending]

/-- A word is put together from its fields. -/
theorem eq_family_x_ending (word : Nat) :
    word = family word * 4096 + (x word).toNat * 256 + ending word := by
  rw [toNat_x, family, ending]
  omega

theorem ending_eq_y_digit (word : Nat) : ending word = (y word).toNat * 16 + digit word := by
  rw [toNat_y, digit, ending]
  omega

end Word

namespace Instruction

/-- The instruction that each form of words stands for. -/
inductive Form (word : Nat) : Instruction → Prop
  | machineCall (family : Word.family word = 0x0) (notClear : word ≠ 0x00E0)
      (notReturn : word ≠ 0x00EE) : Form word (machineCall (Word.address word))
  | clearScreen (same : word = 0x00E0) : Form word clearScreen
  | ret (same : word = 0x00EE) : Form word ret
  | jump (family : Word.family word = 0x1) : Form word (jump (Word.address word))
  | call (family : Word.family word = 0x2) : Form word (call (Word.address word))
  | equalsByte (family : Word.family word = 0x3) :
      Form word (skip (.equalsByte (Word.x word) (Word.byte word)))
  | differsFromByte (family : Word.family word = 0x4) :
      Form word (skip (.differsFromByte (Word.x word) (Word.byte word)))
  | equalsRegister (family : Word.family word = 0x5) (digit : Word.digit word = 0) :
      Form word (skip (.equalsRegister (Word.x word) (Word.y word)))
  | setByte (family : Word.family word = 0x6) :
      Form word (setByte (Word.x word) (Word.byte word))
  | addByte (family : Word.family word = 0x7) :
      Form word (addByte (Word.x word) (Word.byte word))
  | combine (operation : Combination) (family : Word.family word = 0x8)
      (digit : Word.digit word = operation.digit.toNat) :
      Form word (combine operation (Word.x word) (Word.y word))
  | differsFromRegister (family : Word.family word = 0x9) (digit : Word.digit word = 0) :
      Form word (skip (.differsFromRegister (Word.x word) (Word.y word)))
  | setIndex (family : Word.family word = 0xA) : Form word (setIndex (Word.address word))
  | jumpOffset (family : Word.family word = 0xB) : Form word (jumpOffset (Word.address word))
  | random (family : Word.family word = 0xC) :
      Form word (random (Word.x word) (Word.byte word))
  | draw (family : Word.family word = 0xD) :
      Form word (draw (Word.x word) (Word.y word) (UInt8.ofNat (Word.digit word)))
  | keyDown (family : Word.family word = 0xE) (ending : Word.ending word = 0x9E) :
      Form word (skip (.keyDown (Word.x word)))
  | keyUp (family : Word.family word = 0xE) (ending : Word.ending word = 0xA1) :
      Form word (skip (.keyUp (Word.x word)))
  | readDelay (family : Word.family word = 0xF) (ending : Word.ending word = 0x07) :
      Form word (readDelay (Word.x word))
  | awaitKey (family : Word.family word = 0xF) (ending : Word.ending word = 0x0A) :
      Form word (awaitKey (Word.x word))
  | setDelay (family : Word.family word = 0xF) (ending : Word.ending word = 0x15) :
      Form word (setDelay (Word.x word))
  | setSound (family : Word.family word = 0xF) (ending : Word.ending word = 0x18) :
      Form word (setSound (Word.x word))
  | addIndex (family : Word.family word = 0xF) (ending : Word.ending word = 0x1E) :
      Form word (addIndex (Word.x word))
  | pointGlyph (family : Word.family word = 0xF) (ending : Word.ending word = 0x29) :
      Form word (pointGlyph (Word.x word))
  | storeDecimal (family : Word.family word = 0xF) (ending : Word.ending word = 0x33) :
      Form word (storeDecimal (Word.x word))
  | storeRegisters (family : Word.family word = 0xF) (ending : Word.ending word = 0x55) :
      Form word (storeRegisters (Word.x word))
  | loadRegisters (family : Word.family word = 0xF) (ending : Word.ending word = 0x65) :
      Form word (loadRegisters (Word.x word))
  | unknown (undefined : ¬Word.IsDefined word) : Form word (unknown (UInt16.ofNat word))

open NibbleReader

variable {word : UInt16}

theorem form_unknown (undefined : ¬Word.IsDefined word.toNat) :
    Form word.toNat (unknown word) := by
  have form := Form.unknown undefined
  rwa [UInt16.ofNat_toNat] at form

/-! ## Families with a table of their own -/

theorem ofSelector?_eq_none_iff {x : UInt8} {selector : Nat} :
    ofSelector? x selector = none ↔
      selector ∉ [0x07, 0x0A, 0x15, 0x18, 0x1E, 0x29, 0x33, 0x55, 0x65] := by
  unfold ofSelector?
  split <;> simp_all

theorem ofDigit?_eq_none_iff {digit : Nat} :
    Combination.ofDigit? digit = none ↔ ¬(digit ≤ 7 ∨ digit = 0xE) := by
  unfold Combination.ofDigit?
  split
  case h_10 => grind
  all_goals simp

theorem form_of_family_eight (family : Word.family word.toNat = 0x8) :
    Form word.toNat
      (match Combination.ofDigit? (Word.digit word.toNat) with
        | some operation => combine operation (Word.x word.toNat) (Word.y word.toNat)
        | none => unknown word) := by
  cases named : Combination.ofDigit? (Word.digit word.toNat) with
  | none =>
      apply form_unknown
      rw [ofDigit?_eq_none_iff] at named
      simpa only [Word.IsDefined, family] using named
  | some operation =>
      exact .combine operation family (Combination.toNat_digit_of_ofDigit? named).symm

theorem form_of_family_fifteen (family : Word.family word.toNat = 0xF) :
    Form word.toNat
      ((ofSelector? (Word.x word.toNat) (Word.ending word.toNat)).getD (unknown word)) := by
  obtain ⟨selector, ending⟩ : ∃ selector, Word.ending word.toNat = selector := ⟨_, rfl⟩
  rw [ending]
  cases named : ofSelector? (Word.x word.toNat) selector with
  | none =>
      apply form_unknown
      rw [ofSelector?_eq_none_iff, ← ending] at named
      simpa only [Word.IsDefined, family] using named
  | some instruction =>
      unfold ofSelector? at named
      split at named
      case h_10 => cases named
      all_goals
        cases named
        constructor
        · exact family
        · exact ending

/-! ## All words -/

/-- No field of a word runs past its end, and the instruction read is the one that the form of the
word stands for. -/
theorem exists_form (word : UInt16) :
    ∃ instruction, Form word.toNat instruction ∧ decode? word = some instruction := by
  -- The readers of two and three nibbles give the fields NN and NNN.
  have two : 16 * (word.toNat / 16 % 16) + word.toNat % 16 = word.toNat % 0x100 := by omega
  have three : 16 * (16 * (word.toNat / 256 % 16) + word.toNat / 16 % 16) + word.toNat % 16 =
      word.toNat % 0x1000 := by
    omega
  obtain ⟨number, family⟩ : ∃ number, word.toNat / 4096 = number := ⟨_, rfl⟩
  have bound : number < 16 := by
    have := word.toNat_lt
    omega
  simp only [decode?, StateT.run', Nibbles.ofWord, family, ofNibbles, nibble, register, address,
    byte]
  interval_cases number
  case «0» =>
    by_cases clear : word = 0x00E0
    · subst clear
      exact ⟨_, .clearScreen rfl, rfl⟩
    by_cases back : word = 0x00EE
    · subst back
      exact ⟨_, .ret rfl, rfl⟩
    have form := Form.machineCall family (by rwa [← UInt16.toNat_inj] at clear)
      (by rwa [← UInt16.toNat_inj] at back)
    exact ⟨_, form, by simp [three, Word.address]⟩
  case «1» => exact ⟨_, .jump family, by simp [three, Word.address]⟩
  case «2» => exact ⟨_, .call family, by simp [three, Word.address]⟩
  case «3» => exact ⟨_, .equalsByte family, by simp [two, Word.x, Word.byte, Word.ending]⟩
  case «4» => exact ⟨_, .differsFromByte family, by simp [two, Word.x, Word.byte, Word.ending]⟩
  case «5» =>
    by_cases last : word.toNat % 16 = 0
    · exact ⟨_, .equalsRegister family last, by simp [last, Word.x, Word.y]⟩
    · have undefined : ¬Word.IsDefined word.toNat := by
        simpa [Word.IsDefined, Word.family, family, Word.digit] using last
      exact ⟨_, form_unknown undefined, by simp⟩
  case «6» => exact ⟨_, .setByte family, by simp [two, Word.x, Word.byte, Word.ending]⟩
  case «7» => exact ⟨_, .addByte family, by simp [two, Word.x, Word.byte, Word.ending]⟩
  case «8» =>
    refine ⟨_, form_of_family_eight family, ?_⟩
    cases named : Combination.ofDigit? (word.toNat % 16) with
    | none => simp [named, Word.digit]
    | some operation => simp [named, Word.digit, Word.x, Word.y]
  case «9» =>
    by_cases last : word.toNat % 16 = 0
    · exact ⟨_, .differsFromRegister family last, by simp [last, Word.x, Word.y]⟩
    · have undefined : ¬Word.IsDefined word.toNat := by
        simpa [Word.IsDefined, Word.family, family, Word.digit] using last
      exact ⟨_, form_unknown undefined, by simp⟩
  case «10» => exact ⟨_, .setIndex family, by simp [three, Word.address]⟩
  case «11» => exact ⟨_, .jumpOffset family, by simp [three, Word.address]⟩
  case «12» => exact ⟨_, .random family, by simp [two, Word.x, Word.byte, Word.ending]⟩
  case «13» => exact ⟨_, .draw family, by simp [Word.x, Word.y, Word.digit]⟩
  case «14» =>
    by_cases down : word.toNat % 0x100 = 0x9E
    · exact ⟨_, .keyDown family down, by simp [two, down, Word.x]⟩
    by_cases up : word.toNat % 0x100 = 0xA1
    · exact ⟨_, .keyUp family up, by simp [two, up, Word.x]⟩
    have undefined : ¬Word.IsDefined word.toNat := by
      simp [Word.IsDefined, Word.family, family, Word.ending, down, up]
    exact ⟨_, form_unknown undefined, by simp [two]⟩
  case «15» =>
    exact ⟨_, form_of_family_fifteen family, by simp [two, Word.x, Word.ending]⟩

/-- Reading a word gives the instruction that its form stands for. -/
theorem form_decode (word : UInt16) : Form word.toNat (decode word) := by
  rcases exists_form word with ⟨instruction, form, read⟩
  rw [decode, read]
  exact form

/-- A word that has none of the defined forms is kept as it is, and no other word is. -/
theorem Form.eq_unknown_iff {number : Nat} {instruction : Instruction}
    (form : instruction.Form number) :
    instruction = .unknown (UInt16.ofNat number) ↔ ¬Word.IsDefined number := by
  constructor
  · rintro rfl
    cases form with
    | unknown undefined => exact undefined
  · intro undefined
    cases form with
    | unknown => rfl
    | clearScreen same | ret same => simp [Word.IsDefined, Word.family, same] at undefined
    | combine operation family digit =>
        cases operation <;> simp [Word.IsDefined, family, digit, Combination.digit] at undefined
    | machineCall family | jump family | call family | equalsByte family | differsFromByte family
    | setByte family | addByte family | setIndex family | jumpOffset family | random family
    | draw family =>
        simp [Word.IsDefined, family] at undefined
    | equalsRegister family last | differsFromRegister family last | keyDown family last
    | keyUp family last | readDelay family last | awaitKey family last | setDelay family last
    | setSound family last | addIndex family last | pointGlyph family last
    | storeDecimal family last | storeRegisters family last | loadRegisters family last =>
        simp [Word.IsDefined, family, last] at undefined

/-! ## Words of instructions -/

theorem toNat_wordXNN_of_family {number : Nat} {family : UInt16} {value : UInt8}
    (bound : number < 65536) (same : Word.family number = family.toNat)
    (ending : Word.ending number = value.toNat) :
    (wordXNN family (Word.x number) value).toNat = number := by
  have whole := Word.eq_family_x_ending number
  rw [toNat_wordXNN]
  omega

theorem toNat_wordXYN_of_family {number : Nat} {family last : UInt16} (bound : number < 65536)
    (same : Word.family number = family.toNat) (digit : Word.digit number = last.toNat) :
    (wordXYN family (Word.x number) (Word.y number) last).toNat = number := by
  have whole := Word.eq_family_x_ending number
  have parts := Word.ending_eq_y_digit number
  rw [toNat_wordXYN]
  omega

/-- An instruction is written as each word whose form stands for it, and its operands fit. -/
theorem Form.toNat_encode {number : Nat} {instruction : Instruction}
    (form : instruction.Form number) (bound : number < 65536) :
    instruction.encode.toNat = number ∧ instruction.Encodable := by
  have x_lt : (Word.x number).toNat < 16 := by
    rw [Word.toNat_x]
    omega
  have y_lt : (Word.y number).toNat < 16 := by
    rw [Word.toNat_y]
    omega
  cases form with
  | clearScreen same | ret same =>
      rw [same]
      exact ⟨rfl, trivial⟩
  | unknown undefined => exact ⟨UInt16.toNat_ofNat_of_lt' bound, trivial⟩
  | machineCall family | jump family | call family | setIndex family | jumpOffset family =>
      simp only [encode, Encodable, UInt16.toNat_add, Word.toNat_address, Word.family] at family ⊢
      simp
      omega
  | equalsByte family | differsFromByte family | setByte family | addByte family
  | random family =>
      exact ⟨toNat_wordXNN_of_family bound family (Word.toNat_byte number).symm, x_lt⟩
  | equalsRegister family last | differsFromRegister family last =>
      exact ⟨toNat_wordXYN_of_family bound family last, x_lt, y_lt⟩
  | combine operation family last =>
      exact ⟨toNat_wordXYN_of_family bound family last, x_lt, y_lt⟩
  | draw family =>
      have digit_lt : Word.digit number < 16 := Nat.mod_lt _ (by decide)
      have height : (UInt8.ofNat (Word.digit number)).toNat = Word.digit number := by
        simp
        omega
      have last : Word.digit number = (UInt8.ofNat (Word.digit number)).toUInt16.toNat := by
        simp [height]
      refine ⟨toNat_wordXYN_of_family bound family last, x_lt, y_lt, ?_⟩
      rwa [height]
  | keyDown family last | keyUp family last | readDelay family last | awaitKey family last
  | setDelay family last | setSound family last | addIndex family last | pointGlyph family last
  | storeDecimal family last | storeRegisters family last | loadRegisters family last =>
      exact ⟨toNat_wordXNN_of_family bound family last, x_lt⟩

/-- Every word is read as an instruction whose operands fit and which is written as that word. -/
theorem exists_decode? (word : UInt16) :
    ∃ instruction, decode? word = some instruction ∧ instruction.encode = word ∧
      instruction.Encodable := by
  rcases exists_form word with ⟨instruction, form, read⟩
  rcases form.toNat_encode word.toNat_lt with ⟨written, fits⟩
  exact ⟨instruction, read, UInt16.toNat_inj.mp written, fits⟩

@[simp]
theorem encode_decode (word : UInt16) : (decode word).encode = word :=
  UInt16.toNat_inj.mp ((form_decode word).toNat_encode word.toNat_lt).1

theorem encodable_decode (word : UInt16) : (decode word).Encodable :=
  ((form_decode word).toNat_encode word.toNat_lt).2

/-- Exactly the instruction that its form stands for is read from a word. -/
theorem form_iff {instruction : Instruction} :
    instruction.Form word.toNat ↔ decode word = instruction := by
  constructor
  · intro form
    rcases form.toNat_encode word.toNat_lt with ⟨written, fits⟩
    rw [UInt16.toNat_inj] at written
    by_cases defined : Word.IsDefined word.toNat
    · rw [← written]
      apply decode_encode fits
      · intro same
        rw [same] at written
        cases form with
        | machineCall family notClear => exact notClear (congrArg UInt16.toNat written.symm)
        | _ => cases same
      · intro same
        rw [same] at written
        cases form with
        | machineCall family notClear notReturn =>
            exact notReturn (congrArg UInt16.toNat written.symm)
        | _ => cases same
      · rintro other same
        cases form with
        | unknown undefined => exact undefined defined
        | _ => cases same
    · rw [form.eq_unknown_iff.mpr defined, (form_decode word).eq_unknown_iff.mpr defined]
  · rintro rfl
    exact form_decode word

/-- A word has one form. -/
theorem Form.unique {number : Nat} {instruction other : Instruction} (bound : number < 65536)
    (form : instruction.Form number) (same : other.Form number) : instruction = other := by
  rw [← UInt16.toNat_ofNat_of_lt' bound, form_iff] at form same
  exact form.symm.trans same

end Instruction

end Chip8

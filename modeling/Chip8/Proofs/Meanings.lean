import Chip8.Proofs.Forms
import Mathlib

/-!
# Words and their meanings

Reading a word and writing an instruction are inverse to each other, so no two words mean the same
instruction. The words come to all instructions whose operands fit, but for three kinds that are
never read: the two routines of the host's machine code whose words clear the screen and return, and
words kept as data that have another meaning. `Instruction.Readable` leaves these out.
-/

namespace Chip8

namespace Word

/-- All words have a form but some in the families that end in a digit or a byte of their own. -/
theorem family_of_not_isDefined {word : Nat} (undefined : ¬IsDefined word) :
    family word ∈ [0x5, 0x8, 0x9, 0xE, 0xF] := by
  unfold IsDefined at undefined
  split at undefined
  case h_6 => exact absurd trivial undefined
  all_goals
    rename_i same
    simp [same]

end Word

namespace Instruction

/-- The operands fit, and the word of the instruction has no other meaning. -/
structure Readable (instruction : Instruction) : Prop where
  fits : instruction.Encodable
  notClear : instruction ≠ machineCall 0x00E0
  notReturn : instruction ≠ machineCall 0x00EE
  undefined : ∀ word, instruction = unknown word → ¬Word.IsDefined word.toNat

variable {instruction : Instruction} {word : UInt16}

theorem decode_eq_unknown_iff {value : UInt16} :
    decode word = unknown value ↔ value = word ∧ ¬Word.IsDefined word.toNat := by
  rw [← (form_decode word).eq_unknown_iff, UInt16.ofNat_toNat]
  constructor
  · intro read
    -- The value read is the word, for it is written as the word again.
    have written := encode_decode word
    rw [read] at written
    exact ⟨written, read.trans (congrArg unknown written)⟩
  · rintro ⟨rfl, read⟩
    exact read

theorem readable_decode (word : UInt16) : (decode word).Readable := by
  have written := encode_decode word
  refine ⟨encodable_decode word, ?_, ?_, ?_⟩
  · intro clear
    rw [clear] at written
    subst written
    cases clear
  · intro back
    rw [back] at written
    subst written
    cases back
  · intro value kept
    rcases decode_eq_unknown_iff.mp kept with ⟨rfl, undefined⟩
    exact undefined

theorem Readable.decode_encode (readable : instruction.Readable) :
    decode instruction.encode = instruction := by
  rcases readable with ⟨fits, notClear, notReturn, undefined⟩
  cases instruction with
  | unknown value => exact decode_eq_unknown_iff.mpr ⟨rfl, undefined value rfl⟩
  | _ => exact Instruction.decode_encode fits notClear notReturn (by simp)

/-- Every word is read within its four nibbles, as an instruction whose operands fit and which is
written as that word again. Conversely an instruction is read from its word exactly if its operands
fit and its word has no other meaning. So no two words mean the same, and exactly those words of
five families that have no defined form are kept as data. -/
theorem decode_inverts_encode :
    (∀ word, ∃ instruction, decode? word = some instruction ∧ decode word = instruction ∧
        instruction.encode = word ∧ instruction.Encodable) ∧
      (∀ instruction, decode instruction.encode = instruction ↔ instruction.Readable) ∧
      Function.Injective decode ∧
      ∀ word value, decode word = unknown value ↔
        value = word ∧ Word.family word.toNat ∈ [0x5, 0x8, 0x9, 0xE, 0xF] ∧
          ¬Word.IsDefined word.toNat := by
  refine ⟨?_, ?_, ?_, ?_⟩
  · intro word
    rcases exists_decode? word with ⟨instruction, read, written, fits⟩
    have same : decode word = instruction := by simp [decode, read]
    exact ⟨instruction, read, same, written, fits⟩
  · intro instruction
    constructor
    · intro comesBack
      rw [← comesBack]
      exact readable_decode instruction.encode
    · exact Readable.decode_encode
  · exact Function.LeftInverse.injective encode_decode
  · intro word value
    rw [decode_eq_unknown_iff]
    constructor
    · rintro ⟨same, undefined⟩
      exact ⟨same, Word.family_of_not_isDefined undefined, undefined⟩
    · rintro ⟨same, -, undefined⟩
      exact ⟨same, undefined⟩

/-- The word 8AB8, which has no defined form, comes back from where it is written; the routine
called at 0E0 does not. -/
theorem undefined_word_comes_back :
    decode (encode (unknown 0x8AB8)) = unknown 0x8AB8 ∧
      decode (encode (machineCall 0x00E0)) ≠ machineCall 0x00E0 ∧
      Word.family (UInt16.toNat 0x8AB8) ∈ [0x5, 0x8, 0x9, 0xE, 0xF] := by
  rcases decode_inverts_encode with ⟨-, comesBack, -, kept⟩
  have undefined : ¬Word.IsDefined (UInt16.toNat 0x8AB8) := by
    simp [Word.IsDefined, Word.family, Word.digit]
  have readable : (unknown 0x8AB8).Readable := by
    refine ⟨trivial, by simp, by simp, ?_⟩
    rintro value ⟨⟩
    exact undefined
  have back := (comesBack _).mpr readable
  refine ⟨back, ?_, ((kept 0x8AB8 0x8AB8).mp back).2.1⟩
  intro lost
  exact ((comesBack _).mp lost).notClear rfl

end Instruction

end Chip8

import Chip8.Proofs.Numerals
import Mathlib

/-!
# The words of a text

The words of a text are what stands between its blanks, commas, brackets and line breaks. A text of
several fields says no more than its words, so to read a field back it is enough to know that it is
a word of its own, which numbers always are.
-/

namespace Chip8

/-- Whether a character stands between words. -/
def isGap (char : Char) : Bool := char ∈ [' ', ',', '(', ')', '\n']

/-- The words of a text in order. -/
def words (text : List Char) : List (List Char) :=
  (text.splitOnP isGap).filter (· ≠ [])

/-- A text that has something in it and nothing between words. -/
structure IsWord (text : List Char) : Prop where
  ne_nil : text ≠ []
  solid : ∀ char ∈ text, isGap char = false

variable {word : List Char} {gap : Char}

@[simp]
theorem toString_eq_self (text : String) : toString text = text := rfl

@[simp]
theorem splitOnP_isGap_cons (char : Char) (rest : List Char) :
    (char :: rest).splitOnP isGap =
      if char ∈ [' ', ',', '(', ')', '\n'] then [] :: rest.splitOnP isGap
      else (rest.splitOnP isGap).modifyHead (char :: ·) := by
  rw [List.splitOnP_cons_eq_if_modifyHead]
  simp only [isGap, decide_eq_true_eq]

theorem words_append_cons (text rest : List Char) (between : isGap gap) :
    words (text ++ gap :: rest) = words text ++ words rest := by
  rw [words, List.splitOnP_append_cons _ _ between, List.filter_append]
  rfl

/-- The text before the first mark and the text after it are settled by the whole. -/
theorem append_cons_inj {mark : Char} {first second rest other : List Char}
    (free : mark ∉ first) (alsoFree : mark ∉ second) :
    first ++ mark :: rest = second ++ mark :: other ↔ first = second ∧ rest = other := by
  constructor
  · intro same
    have split := congrArg (List.splitOn mark) same
    rw [List.splitOn_append_cons_self_of_not_mem free,
      List.splitOn_append_cons_self_of_not_mem alsoFree] at split
    have firsts := (List.cons.inj split).1
    subst firsts
    exact ⟨rfl, (List.cons.inj (List.append_cancel_left same)).2⟩
  · rintro ⟨rfl, rfl⟩
    rfl

namespace IsWord

/-- A word at the front of a text joins what comes up to the next gap. -/
@[simp]
theorem splitOnP_append (isWord : IsWord word) (rest : List Char) :
    (word ++ rest).splitOnP isGap = (rest.splitOnP isGap).modifyHead (word ++ ·) := by
  have solid := isWord.solid
  clear isWord
  induction word with
  | nil =>
      have same : (fun first : List Char => [] ++ first) = id := rfl
      rw [same, List.modifyHead_id]
      rfl
  | cons char word ih =>
      rw [List.forall_mem_cons] at solid
      rw [List.cons_append, List.splitOnP_cons_eq_if_modifyHead, ih solid.2, solid.1,
        List.modifyHead_modifyHead]
      rfl

@[simp]
theorem splitOnP_eq (isWord : IsWord word) : word.splitOnP isGap = [word] :=
  List.splitOnP_eq_singleton isWord.solid

end IsWord

/-! ## Numbers -/

theorem isWord_of_numerals (ne_nil : word ≠ [])
    (numeric : ∀ char ∈ word, char ∈ Hexadecimal.numerals) : IsWord word := by
  have solid : ∀ char ∈ Hexadecimal.numerals, isGap char = false := by
    simp [Hexadecimal.numerals, isGap]
  exact ⟨ne_nil, fun char mem => solid char (numeric char mem)⟩

@[simp]
theorem isWord_digits (number : Nat) : IsWord (Hexadecimal.digits number) :=
  isWord_of_numerals (Hexadecimal.digits_ne_nil number) fun _ mem =>
    Hexadecimal.mem_numerals_of_mem_digits mem

@[simp]
theorem isWord_padded (width number : Nat) : IsWord (Hexadecimal.padded width number).toList :=
  isWord_of_numerals (by simp) fun _ mem => Hexadecimal.mem_numerals_of_mem_padded mem

@[simp]
theorem isWord_byte (value : UInt8) : IsWord (Hexadecimal.byte value).toList :=
  isWord_padded 2 value.toNat

@[simp]
theorem isWord_decimal (number : Nat) : IsWord (Nat.toDigits 10 number) := by
  refine ⟨Nat.toDigits_ne_nil, ?_⟩
  intro char mem
  have numeric := Nat.isDigit_of_mem_toDigits (by decide) (by decide) mem
  by_contra between
  simp only [isGap, Bool.not_eq_false, decide_eq_true_eq, List.mem_cons, List.not_mem_nil,
    or_false] at between
  rcases between with rfl | rfl | rfl | rfl | rfl <;> cases numeric

end Chip8

import Chip8.Dump
import Chip8.Proofs.Words
import Mathlib

/-!
# What the register dump tells

Up to the state, register dumps have the same number of words, which tell the fields one by one. The
words of the state come last, and no two states or faults have the same. So dumps are equal only if
the machines agree in everything that a dump shows.
-/

namespace Chip8

/-! ## The state -/

namespace Fault

-- `diagnostic` calls itself and is slow to unfold, so each case states the text it comes to.

@[simp]
theorem words_stackOverflow (pc : Address) :
    words (stackOverflow pc).diagnostic.toList =
      ["StackOverflow".toList, ['\x7b'], "pc:".toList, Nat.toDigits 10 pc.toNat, ['\x7d']] := by
  have text : (stackOverflow pc).diagnostic = s!"StackOverflow \x7b pc: {pc.toNat} \x7d" := rfl
  simp [words, text]

@[simp]
theorem words_stackUnderflow (pc : Address) :
    words (stackUnderflow pc).diagnostic.toList =
      ["StackUnderflow".toList, ['\x7b'], "pc:".toList, Nat.toDigits 10 pc.toNat, ['\x7d']] := by
  have text : (stackUnderflow pc).diagnostic = s!"StackUnderflow \x7b pc: {pc.toNat} \x7d" := rfl
  simp [words, text]

@[simp]
theorem words_programTooLarge (size limit : Nat) :
    words (programTooLarge size limit).diagnostic.toList =
      ["ProgramTooLarge".toList, ['\x7b'], "size:".toList, Nat.toDigits 10 size, "max:".toList,
        Nat.toDigits 10 limit, ['\x7d']] := by
  have text : (programTooLarge size limit).diagnostic =
      s!"ProgramTooLarge \x7b size: {size}, max: {limit} \x7d" := rfl
  simp [words, text]

@[simp]
theorem words_halted (cause : Fault) :
    words (halted cause).diagnostic.toList =
      ["Halted".toList, ['\x7b'], "cause:".toList] ++ words cause.diagnostic.toList ++
        [['\x7d']] := by
  have text : (halted cause).diagnostic.toList =
      "Halted \x7b cause:".toList ++ ' ' :: (cause.diagnostic.toList ++ ' ' :: ['\x7d']) := by
    have shown : (halted cause).diagnostic = s!"Halted \x7b cause: {cause.diagnostic} \x7d" := rfl
    simp [shown]
  rw [text, words_append_cons _ _ (by decide), words_append_cons _ _ (by decide),
    ← List.append_assoc]
  simp [words]

/-- The words of its text tell a fault, kind and fields. -/
theorem eq_of_words_diagnostic {first second : Fault}
    (told : words first.diagnostic.toList = words second.diagnostic.toList) : first = second := by
  induction first generalizing second with
  | stackOverflow pc =>
      cases second with
      | stackOverflow other => simpa [UInt16.toNat_inj] using told
      | _ => simp at told
  | stackUnderflow pc =>
      cases second with
      | stackUnderflow other => simpa [UInt16.toNat_inj] using told
      | _ => simp at told
  | programTooLarge size limit =>
      cases second with
      | programTooLarge other bound => simpa using told
      | _ => simp at told
  | halted cause ih =>
      cases second with
      | halted other =>
          rw [words_halted, words_halted, List.append_left_inj, List.append_right_inj] at told
          rw [ih told]
      | _ => simp at told

end Fault

namespace ExecutionState

@[simp]
theorem words_running : words running.diagnostic.toList = ["Running".toList] := by
  have text : running.diagnostic = "Running" := rfl
  simp [words, text]

@[simp]
theorem words_awaitingKey (register : UInt8) (held : UInt16) :
    words (awaitingKey register held).diagnostic.toList =
      ["AwaitingKey".toList, ['\x7b'], "register:".toList, Nat.toDigits 10 register.toNat,
        "held:".toList, Nat.toDigits 10 held.toNat, ['\x7d']] := by
  have text : (awaitingKey register held).diagnostic =
      s!"AwaitingKey \x7b register: {register.toNat}, held: {held.toNat} \x7d" := rfl
  simp [words, text]

@[simp]
theorem words_faulted (cause : Fault) :
    words (faulted cause).diagnostic.toList =
      "Faulted".toList :: words cause.diagnostic.toList := by
  have text : (faulted cause).diagnostic.toList =
      "Faulted".toList ++ '(' :: (cause.diagnostic.toList ++ ')' :: []) := by
    have shown : (faulted cause).diagnostic = s!"Faulted({cause.diagnostic})" := rfl
    simp [shown]
  rw [text, words_append_cons _ _ (by decide), words_append_cons _ _ (by decide)]
  simp [words]

/-- The words of its text tell a state, with the key that it waits for or the fault it stands at. -/
theorem eq_of_words_diagnostic {first second : ExecutionState}
    (told : words first.diagnostic.toList = words second.diagnostic.toList) : first = second := by
  cases first with
  | running =>
      cases second with
      | running => rfl
      | _ => simp at told
  | awaitingKey register held =>
      cases second with
      | awaitingKey other mask => simpa [UInt8.toNat_inj, UInt16.toNat_inj] using told
      | _ => simp at told
  | faulted cause =>
      cases second with
      | faulted other =>
          rw [words_faulted, words_faulted, List.cons_inj_right] at told
          rw [Fault.eq_of_words_diagnostic told]
      | _ => simp at told

end ExecutionState

/-! ## The fields -/

theorem words_intercalate (texts : List (List Char)) :
    words ([' ', ' '].intercalate texts) = texts.flatMap words := by
  induction texts with
  | nil => rfl
  | cons text texts ih =>
      cases texts with
      | nil => simp
      | cons next texts =>
          have gaps : [' ', ' '].intercalate (text :: next :: texts) =
              text ++ ' ' :: ([] ++ ' ' :: [' ', ' '].intercalate (next :: texts)) := by
            simp
          rw [gaps, words_append_cons _ _ (by decide), words_append_cons _ _ (by decide), ih]
          rfl

/-- The registers agree if those of the sixteen numbers do. -/
theorem Registers.eq_of_get {first second : Registers}
    (same : ∀ number < 16, first.get (UInt8.ofNat number) = second.get (UInt8.ofNat number)) :
    first = second := by
  rw [Registers.mk.injEq]
  apply Nibble.eq_of_select
  intro register
  exact same register.val register.isLt

namespace Dump

/-- The words that show a data register. -/
def registerWords (registers : Registers) (register : UInt8) : List (List Char) :=
  ['V' :: Hexadecimal.digits register.toNat, (Hexadecimal.byte (registers.get register)).toList]

/-- The words that show the eight data registers from `start` on. -/
def rowWords (registers : Registers) (start : UInt8) : List (List Char) :=
  (List.range 8).flatMap fun column => registerWords registers (start + UInt8.ofNat column)

/-- The text between the data registers and the state. -/
def statusText (machine : Machine) : String :=
  s!"PC {Hexadecimal.padded 3 machine.pc.toNat}  " ++
  s!"I {Hexadecimal.padded 4 machine.index.toNat}  " ++
  s!"SP {machine.stack.depth}  top {topText machine.stack}\n" ++
  s!"DT {Hexadecimal.byte machine.timers.delay.count}  " ++
  s!"ST {Hexadecimal.byte machine.timers.sound.count}  state"

/-- The words between the data registers and the state. -/
def statusWords (machine : Machine) : List (List Char) :=
  ["PC".toList, (Hexadecimal.padded 3 machine.pc.toNat).toList,
    "I".toList, (Hexadecimal.padded 4 machine.index.toNat).toList,
    "SP".toList, Nat.toDigits 10 machine.stack.depth, "top".toList, (topText machine.stack).toList,
    "DT".toList, (Hexadecimal.byte machine.timers.delay.count).toList,
    "ST".toList, (Hexadecimal.byte machine.timers.sound.count).toList, "state".toList]

variable {first second : Registers}

theorem words_registerText (registers : Registers) (register : UInt8) :
    words (registerText registers register).toList = registerWords registers register := by
  simp [words, registerText, registerWords, Hexadecimal.plain]

theorem words_registerRow (registers : Registers) (start : UInt8) (rest : List Char) :
    words ((registerRow registers start).toList ++ rest) =
      rowWords registers start ++ words rest := by
  have text : (registerRow registers start).toList ++ rest =
      [' ', ' '].intercalate ((List.range 8).map fun column =>
        (registerText registers (start + UInt8.ofNat column)).toList) ++ '\n' :: rest := by
    simp [registerRow, String.toList_intercalate, Function.comp_def]
  rw [text, words_append_cons _ _ (by decide), words_intercalate, List.flatMap_map, rowWords]
  simp only [words_registerText]

@[simp]
theorem isWord_topText (stack : CallStack) : IsWord (topText stack).toList := by
  rw [topText]
  split
  · exact isWord_padded _ _
  · exact ⟨by simp, by simp [isGap]⟩

@[simp]
theorem topText_ne_empty (stack : CallStack) : topText stack ≠ "" := by
  rw [topText]
  split
  · exact Hexadecimal.padded_ne_empty _ _
  · decide

theorem words_statusText (machine : Machine) :
    words (statusText machine).toList = statusWords machine := by
  simp [words, statusText, statusWords]

theorem registers_eq (machine : Machine) :
    Dump.registers machine =
      registerRow machine.registers 0 ++ (registerRow machine.registers 8 ++
        (statusText machine ++ " " ++ machine.state.diagnostic)) := by
  rw [← String.toList_inj]
  simp [Dump.registers, statusText]

theorem words_registers (machine : Machine) :
    words (Dump.registers machine).toList =
      rowWords machine.registers 0 ++ (rowWords machine.registers 8 ++
        (statusWords machine ++ words machine.state.diagnostic.toList)) := by
  have last : (statusText machine ++ " " ++ machine.state.diagnostic).toList =
      (statusText machine).toList ++ ' ' :: machine.state.diagnostic.toList := by
    simp
  rw [registers_eq, String.toList_append, words_registerRow, String.toList_append,
    words_registerRow, last, words_append_cons _ _ (by decide), words_statusText]

theorem eq_of_topText {first second : CallStack} (same : topText first = topText second) :
    first.top? = second.top? := by
  have dashed : ∀ address : Address, Hexadecimal.padded 3 address.toNat ≠ "---" := by
    intro address same
    have dash : '-' ∈ "---".toList := by simp
    exact Hexadecimal.toList_padded_ne dash (by decide) (congrArg String.toList same)
  simp only [topText] at same
  cases top : first.top? with
  | none =>
      cases other : second.top? with
      | none => rfl
      | some address =>
          simp only [top, other] at same
          exact absurd same.symm (dashed address)
  | some address =>
      cases other : second.top? with
      | none =>
          simp only [top, other] at same
          exact absurd same (dashed address)
      | some another =>
          simp only [top, other, Hexadecimal.padded_inj, UInt16.toNat_inj] at same
          rw [same]

@[simp]
theorem length_registerWords (registers : Registers) (register : UInt8) :
    (registerWords registers register).length = 2 := rfl

theorem eq_of_flatMap_registerWords {columns : List Nat} {start : UInt8}
    (same : columns.flatMap (fun column => registerWords first (start + UInt8.ofNat column)) =
      columns.flatMap (fun column => registerWords second (start + UInt8.ofNat column))) :
    ∀ column ∈ columns, first.get (start + UInt8.ofNat column) =
      second.get (start + UInt8.ofNat column) := by
  induction columns with
  | nil => simp
  | cons column columns ih =>
      simp only [List.flatMap_cons] at same
      rcases List.append_inj same (by simp only [length_registerWords]) with ⟨here, later⟩
      rw [List.forall_mem_cons]
      refine ⟨?_, ih later⟩
      simpa only [registerWords, List.cons.injEq, true_and, and_true, String.toList_inj,
        Hexadecimal.byte_inj] using here

theorem eq_of_rowWords (low : rowWords first 0 = rowWords second 0)
    (high : rowWords first 8 = rowWords second 8) : first = second := by
  apply Registers.eq_of_get
  intro number below
  by_cases left : number < 8
  · have there := eq_of_flatMap_registerWords low number (List.mem_range.mpr left)
    rwa [UInt8.zero_add] at there
  · have there := eq_of_flatMap_registerWords high (number - 8) (List.mem_range.mpr (by omega))
    have whole : 8 + UInt8.ofNat (number - 8) = UInt8.ofNat number := by
      have sum := UInt8.ofNat_add 8 (number - 8)
      rw [Nat.add_sub_cancel' (Nat.not_lt.mp left)] at sum
      exact sum.symm
    rwa [whole] at there

@[simp]
theorem length_rowWords (registers : Registers) (start : UInt8) :
    (rowWords registers start).length = 16 := by
  simp [rowWords, List.length_flatMap]

@[simp]
theorem length_statusWords (machine : Machine) : (statusWords machine).length = 13 := rfl

/-- Two register dumps are the same exactly if the machines agree in their data registers, program
counter, index register, number of calls, return address pushed last, timers, and state, with the
key that a wait is for, the keys that were down and the fault with its place. -/
theorem registers_eq_registers_iff (first second : Machine) :
    Dump.registers first = Dump.registers second ↔
      first.registers = second.registers ∧ first.pc = second.pc ∧ first.index = second.index ∧
        first.stack.depth = second.stack.depth ∧ first.stack.top? = second.stack.top? ∧
        first.timers.delay.count = second.timers.delay.count ∧
        first.timers.sound.count = second.timers.sound.count ∧ first.state = second.state := by
  constructor
  · intro same
    have told := congrArg (fun text : String => words text.toList) same
    simp only [words_registers] at told
    rcases List.append_inj told (by simp only [length_rowWords]) with ⟨low, told⟩
    rcases List.append_inj told (by simp only [length_rowWords]) with ⟨high, told⟩
    rcases List.append_inj told (by simp only [length_statusWords]) with ⟨status, state⟩
    simp only [statusWords, List.cons.injEq, true_and, and_true, String.toList_inj,
      Hexadecimal.padded_inj, Hexadecimal.byte_inj, Decimal.toDigits_inj, UInt16.toNat_inj]
      at status
    rcases status with ⟨pc, index, depth, top, delay, sound⟩
    exact ⟨eq_of_rowWords low high, pc, index, depth, eq_of_topText top, delay, sound,
      ExecutionState.eq_of_words_diagnostic state⟩
  · rintro ⟨registers, pc, index, depth, top, delay, sound, state⟩
    simp only [Dump.registers, topText, registers, pc, index, depth, top, delay, sound, state]

end Dump

end Chip8

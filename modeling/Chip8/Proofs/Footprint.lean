import Chip8.Proofs.Calls
import Chip8.Proofs.Forms
import Chip8.Proofs.Randomness
import Chip8.Proofs.Reset
import Chip8.Proofs.Transfers
import Mathlib

/-!
# The footprint of a word

What a step may change can be told from the form of the word due: some registers, a run of bytes in
memory, and for each other part of the machine whether the word is one of the few that have to do
with it. `Confined` says this of the machines before and after a step. The program counter is left
out, and the timers are compared as they are when they have been brought up to date.

There is one lemma for each part of the machine, by cases on the instruction. The form is looked at
only for the instructions that touch the part.
-/

namespace Chip8

/-- The number of bytes that a word writes to memory, from the index register on. -/
def Word.stored (word : Nat) : Nat :=
  match family word, ending word with
  | 0xF, 0x33 => 3
  | 0xF, 0x55 => (x word).toNat + 1
  | _, _ => 0

namespace Machine

/-- The word may write a register. -/
def Writes (machine : Machine) (word : Nat) (register : Nibble) : Prop :=
  let x := Nibble.low (Word.x word)
  let flag := Nibble.low 0xF
  match Word.family word with
  | 0x6 | 0x7 | 0xC => register = x
  | 0x8 =>
    match Word.digit word with
    | 0x0 => register = x
    | 0x1 | 0x2 | 0x3 => register = x ∨ register = flag ∧ machine.dialect.logicClearsFlag
    | 0x4 | 0x5 | 0x6 | 0x7 | 0xE => register = x ∨ register = flag
    | _ => False
  | 0xD => register = flag
  | 0xF => Word.ending word = 0x07 ∧ register = x ∨ Word.ending word = 0x65 ∧ register ≤ x
  | _ => False

variable {machine : Machine} {instruction : Instruction} {word : Nat} {pc : Address}
variable {register : Nibble} {now : Time}

/-! ## Registers -/

theorem bytes_setFlag_of_ne (registers : Registers) (value : Bool)
    (other : register ≠ Nibble.low 0xF) :
    (registers.setFlag value).bytes.get register = registers.bytes.get register :=
  registers.bytes_set_of_ne _ other

theorem bytes_afterLogic (registers : Registers) {dialect : Dialect}
    (kept : register = Nibble.low 0xF → dialect.logicClearsFlag = false) :
    (registers.afterLogic dialect).bytes.get register = registers.bytes.get register := by
  unfold Registers.afterLogic
  split
  · rename_i clears
    apply registers.bytes_set_of_ne
    intro flag
    rw [kept flag] at clears
    cases clears
  · rfl

theorem bytes_combine {operation : Combination} (family : Word.family word = 0x8)
    (digit : Word.digit word = operation.digit.toNat) (spared : ¬machine.Writes word register) :
    (machine.registers.combine machine.dialect operation (Word.x word)
      (Word.y word)).bytes.get register = machine.registers.bytes.get register := by
  cases operation with
  | copy =>
      apply Registers.bytes_set_of_ne
      simpa [Writes, family, digit, Combination.digit] using spared
  | or | and | xor =>
      have apart : register ≠ Nibble.low (Word.x word) ∧
          (register = Nibble.low 0xF → machine.dialect.logicClearsFlag = false) := by
        simpa [Writes, family, digit, Combination.digit] using spared
      exact (bytes_afterLogic _ apart.2).trans (Registers.bytes_set_of_ne _ _ apart.1)
  | add | subtract | subtractReverse | shiftRight | shiftLeft =>
      have apart : register ≠ Nibble.low (Word.x word) ∧ register ≠ Nibble.low 0xF := by
        simpa [Writes, family, digit, Combination.digit] using spared
      exact (bytes_setFlag_of_ne _ _ apart.2).trans (Registers.bytes_set_of_ne _ _ apart.1)

theorem bytes_execute (form : instruction.Form word) (spared : ¬machine.Writes word register) :
    (machine.execute instruction pc).machine.registers.bytes.get register =
      machine.registers.bytes.get register := by
  -- The form is opened where a register is written, to see that it is another one.
  cases instruction with
  | ret | jump | call | skip | jumpOffset =>
      exact part_execute_of_branches (·.registers.bytes.get register) (fun _ _ => rfl) trivial
  | setByte | addByte | random =>
      cases form with
      | _ family =>
        apply Registers.bytes_set_of_ne
        simpa [Writes, family] using spared
  | combine =>
      cases form with
      | combine _ family digit => exact bytes_combine family digit spared
  | draw =>
      cases form with
      | draw family =>
        apply bytes_setFlag_of_ne
        simpa [Writes, family] using spared
  | readDelay =>
      cases form with
      | readDelay family ending =>
        apply Registers.bytes_set_of_ne
        simpa [Writes, family, ending] using spared
  | loadRegisters =>
      cases form with
      | loadRegisters family ending =>
        have above : Nibble.low (Word.x word) < register := by
          simpa [Writes, family, ending] using spared
        have x_lt := Word.toNat_x word
        apply Registers.bytes_fill_of_apart
        intro offset within
        simp only [Fin.lt_def, Nibble.val_low] at above
        simp at within ⊢
        omega
  | _ => rfl

/-! ## Memory -/

theorem memory_execute (form : instruction.Form word) {place : Fin 4096}
    (apart : ∀ offset < Word.stored word, (machine.index.toNat + offset) % 4096 ≠ place.val) :
    (machine.execute instruction pc).machine.memory.bytes.get place =
      machine.memory.bytes.get place := by
  cases instruction with
  | ret | jump | call | skip | jumpOffset =>
      exact part_execute_of_branches (·.memory.bytes.get place) (fun _ _ => rfl) trivial
  | storeDecimal | storeRegisters =>
      cases form
      rename_i family ending
      apply Memory.bytes_store_of_apart
      simpa [Word.stored, family, ending, decimalDigits] using apart
  | _ => rfl

/-! ## The index register, the call stack and the screen -/

theorem index_execute (form : instruction.Form word)
    (kept : ¬(Word.family word = 0xA ∨
      Word.family word = 0xF ∧ (Word.ending word = 0x1E ∨ Word.ending word = 0x29))) :
    (machine.execute instruction pc).machine.index = machine.index := by
  cases instruction with
  | ret | jump | call | skip | jumpOffset =>
      exact part_execute_of_branches (·.index) (fun _ _ => rfl) trivial
  | setIndex =>
      cases form with
      | setIndex family => exact absurd (Or.inl family) kept
  | addIndex =>
      cases form with
      | addIndex family ending => exact absurd (Or.inr ⟨family, Or.inl ending⟩) kept
  | pointGlyph =>
      cases form with
      | pointGlyph family ending => exact absurd (Or.inr ⟨family, Or.inr ending⟩) kept
  | _ => rfl

theorem index_execute_of_addIndex (form : instruction.Form word) (bound : word < 65536)
    (adds : Word.family word = 0xF ∧ Word.ending word = 0x1E) :
    (machine.execute instruction pc).machine.index.toNat =
      (machine.index.toNat +
        (machine.registers.bytes.get (Nibble.low (Word.x word))).toNat) % 65536 := by
  rw [form.unique bound (.addIndex adds.1 adds.2)]
  simp [execute, done, Registers.get_eq_get_bytes]

theorem stack_execute_of_kept (form : instruction.Form word)
    (kept : ¬(Word.family word = 0x2 ∨ word = 0x00EE)) :
    (machine.execute instruction pc).machine.stack = machine.stack := by
  apply stack_execute
  · rintro rfl
    cases form with
    | ret same => exact kept (Or.inr same)
  · rintro target rfl
    cases form with
    | call family => exact kept (Or.inl family)

theorem redraws_iff (form : instruction.Form word) (bound : word < 65536) :
    instruction.outcome.redraws = true ↔ word = 0x00E0 ∨ Word.family word = 0xD := by
  constructor
  · intro redraws
    cases form with
    | clearScreen same => exact Or.inl same
    | draw family => exact Or.inr family
    | _ => cases redraws
  · rintro (same | family)
    · rw [form.unique bound (.clearScreen same)]
      rfl
    · rw [form.unique bound (.draw family)]
      rfl

/-! ## Keys, timers, random numbers and the state of execution -/

theorem keypad_execute (machine : Machine) (instruction : Instruction) (pc : Address) :
    (machine.execute instruction pc).machine.keypad = machine.keypad := by
  cases instruction with
  | ret | jump | call | skip | jumpOffset =>
      exact part_execute_of_branches (·.keypad) (fun _ _ => rfl) trivial
  | _ => rfl

theorem keypad_step (machine : Machine) (now : Time) :
    (machine.step now).machine.keypad = machine.keypad := by
  cases machine.stepCase now with
  | executed running free result_eq machine_eq =>
      rw [machine_eq]
      exact machine.advance.keypad_execute _ _
  | blocked fault running blocked result_eq machine_eq
  | waited register held waiting quiet result_eq machine_eq
  | taken register held key waiting pressed result_eq machine_eq
  | halted cause halted result_eq machine_eq =>
      rw [machine_eq]

theorem timers_execute (form : instruction.Form word) :
    ∃ delay sound, (machine.execute instruction pc).machine.timers =
        { machine.timers with delay, sound } ∧
      (¬(Word.family word = 0xF ∧ Word.ending word = 0x15) → delay = machine.timers.delay) ∧
      (¬(Word.family word = 0xF ∧ Word.ending word = 0x18) → sound = machine.timers.sound) := by
  cases instruction with
  | ret | jump | call | skip | jumpOffset =>
      refine ⟨_, _, part_execute_of_branches timers (fun _ _ => rfl) ?_, fun _ => rfl, fun _ => rfl⟩
      trivial
  | setDelay =>
      cases form with
      | setDelay family ending =>
        exact ⟨_, _, rfl, fun kept => absurd ⟨family, ending⟩ kept, fun _ => rfl⟩
  | setSound =>
      cases form with
      | setSound family ending =>
        exact ⟨_, _, rfl, fun _ => rfl, fun kept => absurd ⟨family, ending⟩ kept⟩
  | _ => exact ⟨_, _, rfl, fun _ => rfl, fun _ => rfl⟩

theorem isRandom_iff (form : instruction.Form word) (bound : word < 65536) :
    instruction.outcome.isRandom = true ↔ Word.family word = 0xC := by
  constructor
  · intro drawn
    cases form with
    | random family => exact family
    | _ => cases drawn
  · intro family
    rw [form.unique bound (.random family)]
    rfl

theorem random_execute (form : instruction.Form word) (bound : word < 65536) :
    (machine.execute instruction pc).machine.random =
      machine.random.skip (if Word.family word = 0xC then 1 else 0) := by
  rw [random_execute_eq_skip]
  simp only [Bool.toNat, cond_eq_ite, isRandom_iff form bound]

theorem state_execute_of_kept (form : instruction.Form word)
    (kept : ¬(Word.family word = 0xF ∧ Word.ending word = 0x0A)) :
    (machine.execute instruction pc).machine.state = machine.state := by
  rw [state_execute]
  cases form with
  | awaitKey family ending => exact absurd ⟨family, ending⟩ kept
  | _ => rfl

/-! ## Words that do nothing -/

theorem execute_of_idle (form : instruction.Form word) (bound : word < 65536)
    (idle : ¬Word.IsDefined word ∨ Word.family word = 0 ∧ word ≠ 0x00E0 ∧ word ≠ 0x00EE) :
    (machine.execute instruction pc).machine = machine := by
  rcases idle with undefined | ⟨family, notClear, notReturn⟩
  · rw [form.unique bound (.unknown undefined)]
    rfl
  · rw [form.unique bound (.machineCall family notClear notReturn)]
    rfl

/-! ## Steps -/

/-- Apart from the program counter, and from the timers' being brought up to date, the machine
after a word differs from the one before in nothing that the form of the word does not name. -/
structure Confined (before after : Machine) (word : Nat) (now : Time) : Prop where
  registers : ∀ register : Nibble, ¬before.Writes word register →
    after.registers.bytes.get register = before.registers.bytes.get register
  memory : ∀ place : Fin 4096,
    (∀ offset < Word.stored word, (before.index.toNat + offset) % 4096 ≠ place.val) →
    after.memory.bytes.get place = before.memory.bytes.get place
  index : ¬(Word.family word = 0xA ∨
      Word.family word = 0xF ∧ (Word.ending word = 0x1E ∨ Word.ending word = 0x29)) →
    after.index = before.index
  sum : Word.family word = 0xF ∧ Word.ending word = 0x1E →
    after.index.toNat =
      (before.index.toNat +
        (before.registers.bytes.get (Nibble.low (Word.x word))).toNat) % 65536
  stack : ¬(Word.family word = 0x2 ∨ word = 0x00EE) → after.stack = before.stack
  screen : ¬(word = 0x00E0 ∨ Word.family word = 0xD) → after.screen = before.screen
  keypad : after.keypad = before.keypad
  timers : ∃ delay sound,
    after.timers = ({ before.timers with delay, sound } : Timers).settled now ∧
      (¬(Word.family word = 0xF ∧ Word.ending word = 0x15) → delay = before.timers.delay) ∧
      (¬(Word.family word = 0xF ∧ Word.ending word = 0x18) → sound = before.timers.sound)
  random : Word.family word ≠ 0xC → after.random = before.random
  drawn : Word.family word = 0xC →
    after.random = { before.random with taken := before.random.taken + 1 }
  state : ¬(Word.family word = 0xF ∧ Word.ending word = 0x0A) → after.state = before.state
  dialect : after.dialect = before.dialect
  idle : ¬Word.IsDefined word ∨ Word.family word = 0 ∧ word ≠ 0x00E0 ∧ word ≠ 0x00EE →
    after = { before with pc := (before.pc + 2).wrap, timers := before.timers.settled now }

theorem confined_execute (form : instruction.Form word) (bound : word < 65536) (now : Time) :
    let executed := (machine.advance.execute instruction machine.pc).machine
    Confined machine { executed with timers := executed.timers.settled now } word now where
  registers register spared := bytes_execute form spared
  memory place apart := memory_execute form apart
  index kept := index_execute form kept
  sum adds := index_execute_of_addIndex form bound adds
  stack kept := stack_execute_of_kept form kept
  screen kept := by
    apply screen_execute_of_quiet
    rwa [← redraws_iff form bound, Bool.not_eq_true] at kept
  keypad := machine.advance.keypad_execute instruction machine.pc
  timers := by
    rcases @timers_execute machine.advance instruction word machine.pc form with
      ⟨delay, sound, executed, kept⟩
    exact ⟨delay, sound, congrArg (·.settled now) executed, kept⟩
  random kept := by
    refine (random_execute form bound).trans ?_
    rw [if_neg kept]
    rfl
  drawn draws := by
    refine (random_execute form bound).trans ?_
    rw [if_pos draws]
    rfl
  state kept := state_execute_of_kept form kept
  dialect := congrArg Prod.snd (@settings_execute machine.advance instruction machine.pc)
  idle idle := by
    simp only [@execute_of_idle machine.advance instruction word machine.pc form bound idle]
    rfl

theorem outcome_eq_unrecognized_iff {other : UInt16} (form : instruction.Form word)
    (bound : word < 65536) :
    instruction.outcome = .unrecognized other ↔ other.toNat = word ∧ ¬Word.IsDefined word := by
  rw [← form.eq_unknown_iff]
  constructor
  · intro told
    cases instruction with
    | unknown kept =>
        cases told
        cases form
        exact ⟨UInt16.toNat_ofNat_of_lt' bound, rfl⟩
    | _ => cases told
  · rintro ⟨rfl, rfl⟩
    rw [UInt16.ofNat_toNat]
    rfl

theorem step_unrecognized_iff {other : UInt16} (running : machine.state = .running)
    (due : machine.currentWord.toNat = word) (now : Time) :
    (machine.step now).result = .ok (.unrecognized other) ↔
      other.toNat = word ∧ ¬Word.IsDefined word := by
  have form := Instruction.form_decode machine.currentWord
  have bound := machine.currentWord.toNat_lt
  rw [due] at form bound
  constructor
  · intro told
    have free := obstacle_of_step_eq_ok running told
    rw [(step_of_obstacle_eq_none now running free).1, Except.ok.injEq] at told
    exact (outcome_eq_unrecognized_iff form bound).mp told
  · rintro ⟨same, undefined⟩
    have free : machine.obstacle machine.pc (.decode machine.currentWord) = none := by
      rw [form.eq_unknown_iff.mpr undefined]
      rfl
    rw [(step_of_obstacle_eq_none now running free).1, Except.ok.injEq]
    exact (outcome_eq_unrecognized_iff form bound).mpr ⟨same, undefined⟩

/-- No step changes the keypad. A running machine calls a word unrecognized exactly if it has none
of the defined forms, and a step that succeeds keeps to the footprint of the word due. -/
theorem step_within_footprint (machine : Machine) (now : Time) :
    (machine.step now).machine.keypad = machine.keypad ∧
      (machine.state = .running →
        let word := machine.memory.number machine.pc.toNat
        (∀ other, (machine.step now).result = .ok (.unrecognized other) ↔
            other.toNat = word ∧ ¬Word.IsDefined word) ∧
          ∀ outcome, (machine.step now).result = .ok outcome →
            Confined machine (machine.step now).machine word now) := by
  refine ⟨keypad_step machine now, ?_⟩
  intro running word
  have due : machine.currentWord.toNat = word := machine.toNat_currentWord
  constructor
  · intro other
    exact step_unrecognized_iff running due now
  · intro outcome succeeded
    have form := Instruction.form_decode machine.currentWord
    have bound := machine.currentWord.toNat_lt
    rw [due] at form bound
    have free := obstacle_of_step_eq_ok running succeeded
    rw [(step_of_obstacle_eq_none now running free).2]
    exact confined_execute form bound now

/-- A program of one word on V5, with the index register at the end of its range. -/
def indexAtEnd (ending : UInt8) : Machine :=
  (Machine.new .standard (.constant 0) .zero).play
    [⟨.zero, .loadProgram [0xF5, ending]⟩, ⟨.zero, .execute (.setByte 5 254) 0⟩,
      ⟨.zero, .execute (.setIndex 0xFFFF) 0⟩]

theorem currentWord_indexAtEnd {ending : UInt8} {word : UInt16}
    (same : word.toNat = 0xF500 + ending.toNat) : (indexAtEnd ending).currentWord = word := by
  have memory_eq : (indexAtEnd ending).memory = Memory.empty.write 512 [0xF5, ending] := rfl
  rw [← UInt16.toNat_inj, toNat_currentWord_of_write memory_eq rfl, same]
  rfl

/-- The digits of V5 go to the last byte of memory and to the first two, and nowhere else. The sum
of the index register and V5 starts over. -/
theorem digits_within_footprint :
    (indexAtEnd 0x33).index = 0xFFFF ∧
      (∃ outcome, ((indexAtEnd 0x33).step .zero).result = .ok outcome) ∧
      (∀ place : Fin 4096, place.val ≠ 4095 → place.val ≠ 0 → place.val ≠ 1 →
        ((indexAtEnd 0x33).step .zero).machine.memory.bytes.get place =
          (indexAtEnd 0x33).memory.bytes.get place) ∧
      ((indexAtEnd 0x1E).step .zero).machine.index.toNat = 253 := by
  have stepped : ∀ {ending word}, (indexAtEnd ending).currentWord = word →
      (indexAtEnd ending).obstacle (indexAtEnd ending).pc (.decode word) = none →
      (∃ outcome, ((indexAtEnd ending).step .zero).result = .ok outcome) ∧
        Confined (indexAtEnd ending) ((indexAtEnd ending).step .zero).machine word.toNat .zero := by
    rintro ending _ rfl free
    have succeeded := (step_of_obstacle_eq_none .zero rfl free).1
    have confined := ((step_within_footprint (indexAtEnd ending) .zero).2 rfl).2 _ succeeded
    rw [← toNat_currentWord] at confined
    exact ⟨⟨_, succeeded⟩, confined⟩
  have digits : (indexAtEnd 0x33).currentWord = 0xF533 := currentWord_indexAtEnd rfl
  have adds : (indexAtEnd 0x1E).currentWord = 0xF51E := currentWord_indexAtEnd rfl
  rcases stepped digits rfl with ⟨succeeded, confined⟩
  refine ⟨by decide, succeeded, ?_, ?_⟩
  · intro place last first second
    apply confined.memory
    have stored : Word.stored (UInt16.toNat 0xF533) = 3 := rfl
    have index_eq : (indexAtEnd 0x33).index.toNat = 65535 := by decide
    intro offset within
    rw [stored] at within
    rw [index_eq]
    omega
  · rw [(stepped adds rfl).2.sum ⟨rfl, rfl⟩]
    decide

end Machine

end Chip8

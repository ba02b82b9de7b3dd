import Chip8.Machine.Basic
import Chip8.Proofs.Fetching
import Mathlib

/-!
# Programs and glyphs in memory

A program that fits goes to its place byte by byte, and one that does not leaves everything as it
was. Programs and glyphs keep out of each other's way, so the order in which they are loaded does
not matter, and neither does loading them again. A program that was written down as words, each
with its high byte first, is fetched as the same words.
-/

namespace Chip8

/-! ## Bytes and words -/

def highByte (word : UInt16) : UInt8 := (word >>> 8).toUInt8

def lowByte (word : UInt16) : UInt8 := word.toUInt8

/-- The two bytes of a word, the high one first. -/
def bigEndian (word : UInt16) : List UInt8 := [highByte word, lowByte word]

theorem toNat_highByte_lowByte (word : UInt16) :
    256 * (highByte word).toNat + (lowByte word).toNat = word.toNat := by
  have word_lt := word.toNat_lt
  simp [highByte, lowByte, Nat.shiftRight_eq_div_pow]
  omega

theorem length_flatMap_bigEndian (words : List UInt16) :
    (words.flatMap bigEndian).length = 2 * words.length := by
  induction words with
  | nil => rfl
  | cons word words ih =>
      rw [List.flatMap_cons, List.length_append, ih, List.length_cons]
      simp [bigEndian]
      omega

theorem getElem?_flatMap_bigEndian (words : List UInt16) (number : Nat) :
    (words.flatMap bigEndian)[2 * number]? = words[number]?.map highByte ∧
      (words.flatMap bigEndian)[2 * number + 1]? = words[number]?.map lowByte := by
  induction words generalizing number with
  | nil => simp
  | cons word words ih =>
      cases number with
      | zero => exact ⟨rfl, rfl⟩
      | succ number => exact ih number

namespace Memory

/-! ## Writing in place -/

/-- The memory `after` has the image from `start` on, and else what `before` has. -/
structure Receives (before after : Memory) (start : Nat) (image : List UInt8) : Prop where
  inside : ∀ offset (within : offset < image.length),
    after.bytes[start + offset]? = some image[offset]
  outside : ∀ place, place < start ∨ start + image.length ≤ place →
    after.bytes[place]? = before.bytes[place]?

variable {memory : Memory} {start : Nat} {image : List UInt8}

theorem receives_write (fits : start + image.length ≤ 4096) :
    memory.Receives (memory.write start image) start image where
  inside offset within := by
    have below : start + offset < 4096 := by omega
    rw [Vector.getElem?_eq_getElem below, getElem_write below]
    simp [within]
  outside place apart := by
    by_cases below : place < 4096
    · rw [Vector.getElem?_eq_getElem below, Vector.getElem?_eq_getElem below, getElem_write below]
      rcases apart with before | behind
      · simp [Nat.not_le.mpr before]
      · have beyond : image.length ≤ place - start := by omega
        simp [beyond]
    · simp [below]

/-- An image is written a second time without effect. -/
theorem write_write (memory : Memory) (start : Nat) (image : List UInt8) :
    (memory.write start image).write start image = memory.write start image := by
  rw [Memory.mk.injEq]
  apply Vector.ext
  intro place below
  rw [getElem_write below, getElem_write below]
  by_cases reached : start ≤ place
  · cases image[place - start]? <;> simp [reached]
  · simp [reached]

/-- Two images are written in any order if one ends where the other starts, or before. -/
theorem write_comm (memory : Memory) {first second : List UInt8} {next : Nat}
    (apart : start + first.length ≤ next) :
    (memory.write start first).write next second =
      (memory.write next second).write start first := by
  rw [Memory.mk.injEq]
  apply Vector.ext
  intro place below
  rw [getElem_write below, getElem_write below, getElem_write below, getElem_write below]
  by_cases reached : next ≤ place
  · have beyond : first.length ≤ place - start := by omega
    simp [beyond]
  · simp [reached]

theorem length_glyphs : glyphs.length = 80 := rfl

/-- Memory has room for all glyphs, so none of their bytes is left out. -/
theorem copy_glyphs (memory : Memory) : memory.copy 0 glyphs = .ok memory.loadGlyphs := by
  apply copy_of_fits
  rw [length_glyphs]
  omega

end Memory

namespace Machine

variable {machine : Machine} {program : List UInt8}

theorem loadProgram_of_fits (fits : program.length ≤ 3584) :
    machine.loadProgram program =
      ⟨{ machine with memory := machine.memory.write 512 program }, .ok (),
        [Memory.loadedRecord program]⟩ := by
  have limit : program.length ≤ Memory.programLimit := fits
  have start : Address.programStart.toNat = 512 := rfl
  have copied : machine.memory.copy 512 program = .ok (machine.memory.write 512 program) :=
    Memory.copy_of_fits (by omega)
  simp only [loadProgram, Memory.loadProgram, if_pos limit, start, copied, Except.mapError]

theorem loadProgram_of_large (large : 3584 < program.length) :
    machine.loadProgram program =
      ⟨machine, .error (.fault (.programTooLarge program.length 3584)), []⟩ := by
  have limit : ¬program.length ≤ Memory.programLimit := Nat.not_le.mpr large
  simp only [loadProgram, Memory.loadProgram, limit]
  rfl

theorem result_loadProgram_eq_ok_iff (machine : Machine) (program : List UInt8) :
    (machine.loadProgram program).result = .ok () ↔ program.length ≤ 3584 := by
  rcases Nat.lt_or_ge 3584 program.length with large | fits
  · simp [loadProgram_of_large large, large]
  · simp [loadProgram_of_fits fits, fits]

/-- The room for programs ends with memory, so no program that is let in goes past the end. -/
theorem result_loadProgram_ne_overflow (machine : Machine) (program : List UInt8)
    (kind : Overflow) : (machine.loadProgram program).result ≠ .error (.overflow kind) := by
  rcases Nat.lt_or_ge 3584 program.length with large | fits
  · simp [loadProgram_of_large large]
  · simp [loadProgram_of_fits fits]

/-- To load a program once more changes nothing and has the same answer. -/
theorem loadProgram_loadProgram (machine : Machine) (program : List UInt8) :
    (machine.loadProgram program).machine.loadProgram program = machine.loadProgram program := by
  rcases Nat.lt_or_ge 3584 program.length with large | fits
  · simp only [loadProgram_of_large large]
  · simp only [loadProgram_of_fits fits, Memory.write_write]

theorem loadGlyphs_loadGlyphs (machine : Machine) :
    machine.loadGlyphs.loadGlyphs = machine.loadGlyphs := by
  simp only [loadGlyphs, Memory.loadGlyphs, Memory.write_write]

/-- Programs start where the glyphs have long ended. -/
theorem loadProgram_loadGlyphs (machine : Machine) (program : List UInt8) :
    machine.loadGlyphs.loadProgram program =
      { machine.loadProgram program with
        machine := (machine.loadProgram program).machine.loadGlyphs } := by
  rcases Nat.lt_or_ge 3584 program.length with large | fits
  · simp only [loadProgram_of_large large]
  · have apart : 0 + Memory.glyphs.length ≤ 512 := by
      rw [Memory.length_glyphs]
      omega
    simp only [loadProgram_of_fits fits, loadGlyphs, Memory.loadGlyphs,
      machine.memory.write_comm apart]

theorem toNat_pc_of_word {number : Nat} (inside : number < 1792) :
    ((0x200 : Address) + UInt16.ofNat (2 * number)).toNat = 512 + 2 * number := by
  rw [UInt16.toNat_add, UInt16.toNat_ofNat']
  have start : UInt16.toNat 0x200 = 512 := rfl
  omega

/-- A program that was written down as words is fetched as these words. -/
theorem currentWord_of_words {memory : Memory} {words : List UInt16} (short : words.length ≤ 1792)
    {number : Nat} (within : number < words.length)
    (loaded : machine.memory = memory.write 512 (words.flatMap bigEndian))
    (pc_eq : machine.pc = 0x200 + UInt16.ofNat (2 * number)) :
    machine.currentWord = words[number] := by
  have bytes := getElem?_flatMap_bigEndian words number
  rw [List.getElem?_eq_getElem within, Option.map_some, Option.map_some] at bytes
  -- Both bytes of the last word are still in memory, so no word starts over at its beginning.
  have inside : number < 1792 := within.trans_le short
  apply UInt16.toNat_inj.mp
  rw [toNat_currentWord, loaded, pc_eq, toNat_pc_of_word inside,
    ← toNat_highByte_lowByte words[number]]
  apply Memory.number_write
  · omega
  · omega
  · rw [Nat.add_sub_cancel_left, bytes.1]
  · rw [Nat.add_assoc, Nat.add_sub_cancel_left, bytes.2]

/-- A program that fits is loaded byte by byte and nothing else is touched; one that does not fit
is refused and nothing is touched at all. Loading a program or the glyphs once more changes nothing,
nor does the order of the two. The words of a program are fetched from where they were loaded. -/
theorem loads_exactly (machine : Machine) (program : List UInt8) :
    let report := machine.loadProgram program
    (report.result = .ok () ↔ program.length ≤ 3584) ∧
      (report.result = .ok () →
        report.machine = { machine with memory := report.machine.memory } ∧
          machine.memory.Receives report.machine.memory 0x200 program) ∧
      (report.result ≠ .ok () →
        report.result = .error (.fault (.programTooLarge program.length 3584)) ∧
          report.machine = machine) ∧
      report.machine.loadProgram program = report ∧
      (machine.loadGlyphs = { machine with memory := machine.loadGlyphs.memory } ∧
        machine.memory.Receives machine.loadGlyphs.memory 0 Memory.glyphs ∧
        Memory.glyphs.length = 80) ∧
      machine.loadGlyphs.loadGlyphs = machine.loadGlyphs ∧
      machine.loadGlyphs.loadProgram program =
        { report with machine := report.machine.loadGlyphs } ∧
      ∀ words : List UInt16, words.length ≤ 1792 →
        let loaded := machine.loadProgram (words.flatMap bigEndian)
        loaded.result = .ok () ∧ ∀ number (within : number < words.length),
          ({ loaded.machine with pc := 0x200 + UInt16.ofNat (2 * number) } : Machine).currentWord =
            words[number] := by
  intro report
  have glyphs_received : machine.memory.Receives machine.loadGlyphs.memory 0 Memory.glyphs := by
    apply Memory.receives_write
    rw [Memory.length_glyphs]
    omega
  refine ⟨?_, ?_, ?_, machine.loadProgram_loadProgram program,
    ⟨rfl, glyphs_received, Memory.length_glyphs⟩, machine.loadGlyphs_loadGlyphs,
    machine.loadProgram_loadGlyphs program, ?_⟩
  · exact machine.result_loadProgram_eq_ok_iff program
  · intro loaded
    have fits := (machine.result_loadProgram_eq_ok_iff program).mp loaded
    have report_eq : report = _ := loadProgram_of_fits fits
    rw [report_eq]
    exact ⟨rfl, Memory.receives_write (by omega)⟩
  · intro refused
    have large := mt (machine.result_loadProgram_eq_ok_iff program).mpr refused
    have report_eq : report = _ := loadProgram_of_large (Nat.lt_of_not_le large)
    rw [report_eq]
    exact ⟨rfl, rfl⟩
  · intro words short loaded
    have fits : (words.flatMap bigEndian).length ≤ 3584 := by
      rw [length_flatMap_bigEndian]
      omega
    have loaded_eq : loaded = _ := loadProgram_of_fits fits
    rw [loaded_eq]
    refine ⟨rfl, ?_⟩
    intro number within
    exact currentWord_of_words short within rfl rfl

/-- As many words as fit, each of them its own number. -/
def numbered : List UInt16 := (List.range 1792).map UInt16.ofNat

/-- The last of them is fetched at the last two bytes of memory; one byte more is refused. -/
theorem last_word_is_fetched :
    let blank := Machine.new .standard (.constant 0) .zero
    ({ (blank.loadProgram (numbered.flatMap bigEndian)).machine with pc := 0xFFE } :
        Machine).currentWord = 0x06FF ∧
      (blank.loadProgram (List.replicate 3585 0x11)).result =
        .error (.fault (.programTooLarge 3585 3584)) ∧
      (blank.loadProgram (List.replicate 3585 0x11)).machine = blank := by
  intro blank
  constructor
  · rcases loads_exactly blank [] with ⟨-, -, -, -, -, -, -, fetches⟩
    rcases fetches numbered (by simp [numbered]) with ⟨-, fetched⟩
    have within : 1791 < numbered.length := by simp [numbered]
    have last_pc : (0x200 : Address) + UInt16.ofNat (2 * 1791) = 0xFFE := by decide
    have last_word : numbered[1791] = 0x06FF := by
      simp only [numbered, List.getElem_map, List.getElem_range]
      decide
    have last := fetched 1791 within
    rw [last_pc, last_word] at last
    exact last
  · rcases loads_exactly blank (List.replicate 3585 0x11) with ⟨fits_iff, -, refused, -⟩
    rw [List.length_replicate] at fits_iff refused
    apply refused
    rw [ne_eq, fits_iff]
    decide

end Machine

end Chip8

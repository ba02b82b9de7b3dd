import Chip8.Dump
import Chip8.Proofs.Words
import Mathlib

/-!
# Memory read back from its dump

The dump has a line of its own for each row of memory that is not zero and a single star for each
longest run of rows that are. An address line tells where its bytes lie, so zeroed memory filled
from these lines is the memory that was shown.
-/

namespace Chip8

namespace Dump

/-- The rows of memory with their numbers. -/
def rows (memory : Memory) : List (Nat × List UInt8) :=
  (List.range 256).map fun number => (number, rowBytes memory number)

/-- Whether all bytes of a row are zero. -/
def isZero (row : Nat × List UInt8) : Bool := row.2.all (· == 0)

/-- Whether two rows are both zero or both shown. -/
def alike (row next : Nat × List UInt8) : Bool := isZero row == isZero next

/-- The lines of a run of rows that are all zero or all shown. -/
def runLines (run : List (Nat × List UInt8)) : List String :=
  if run.all isZero then ["*\n"] else run.map fun row => rowText row.1 row.2

/-- The lines for the longest runs of rows that are all zero or all shown, one after the other. -/
def lines (memory : Memory) : List String :=
  ((rows memory).splitBy alike).flatMap runLines

/-- The place and the bytes that a line tells; a star tells none. -/
def readLine? (text : List Char) : Option (Nat × List UInt8) :=
  match text.splitOn ':' with
  | [place, bytes] => some (Hexadecimal.value place, (words bytes).map Hexadecimal.byteValue)
  | _ => none

/-- The places and the bytes that the lines of a dump tell. -/
def readLines (text : List Char) : List (Nat × List UInt8) :=
  (text.splitOn '\n').filterMap readLine?

/-- Zeroed memory filled from the address lines of a dump. -/
def restore (text : String) : Memory :=
  (readLines text.toList).foldl (fun memory row => memory.write row.1 row.2) .empty

variable {memory : Memory} {row : Nat × List UInt8} {run rest : List (Nat × List UInt8)}

/-! ## Runs of rows -/

theorem rowLines_zeros (zeros : ∀ row ∈ run, isZero row) :
    rowLines true (run ++ rest) = rowLines true rest := by
  induction run with
  | nil => rfl
  | cons row run ih =>
      rcases List.forall_mem_cons.mp zeros with ⟨zero, others⟩
      rw [isZero] at zero
      rw [List.cons_append, rowLines, if_pos zero, if_pos rfl, ih others]

theorem rowLines_first_zeros (ne_nil : run ≠ []) (zeros : ∀ row ∈ run, isZero row) :
    rowLines false (run ++ rest) = "*\n" :: rowLines true rest := by
  cases run with
  | nil => exact absurd rfl ne_nil
  | cons row run =>
      rcases List.forall_mem_cons.mp zeros with ⟨zero, others⟩
      have skipped : rowLines true (run ++ rest) = rowLines true rest := rowLines_zeros others
      rw [isZero] at zero
      rw [List.cons_append, rowLines, if_pos zero, if_neg Bool.false_ne_true, skipped]

theorem rowLines_shown (shown : ∀ row ∈ run, isZero row = false) :
    rowLines false (run ++ rest) =
      run.map (fun row => rowText row.1 row.2) ++ rowLines false rest := by
  induction run with
  | nil => rfl
  | cons row run ih =>
      rcases List.forall_mem_cons.mp shown with ⟨nonzero, others⟩
      rw [isZero] at nonzero
      rw [List.cons_append, rowLines, nonzero, ih others]
      rfl

/-- What was skipped before makes no difference to a row that is shown. -/
theorem rowLines_skipping (shown : ∀ row ∈ rest.head?, isZero row = false) :
    rowLines true rest = rowLines false rest := by
  cases rest with
  | nil => rfl
  | cons row rest =>
      have nonzero := shown row rfl
      rw [isZero] at nonzero
      rw [rowLines, rowLines, nonzero]
      rfl

theorem isZero_eq_head (same : run.IsChain fun row next => alike row next) (ne_nil : run ≠ []) :
    ∀ row ∈ run, isZero row = isZero (run.head ne_nil) := by
  apply same.induction
  · intro row next both known
    rw [← known, beq_iff_eq.mp both]
  · intro _
    rfl

theorem rowLines_flatten {runs : List (List (Nat × List UInt8))} (ne_nil : [] ∉ runs)
    (same : ∀ run ∈ runs, run.IsChain fun row next => alike row next)
    (apart : runs.IsChain fun run next =>
      ∃ some other, alike (run.getLast some) (next.head other) = false) :
    rowLines false runs.flatten = runs.flatMap runLines := by
  induction runs with
  | nil => rfl
  | cons run runs ih =>
      rw [List.mem_cons, not_or] at ne_nil
      rcases List.forall_mem_cons.mp same with ⟨same, others⟩
      rw [List.isChain_cons] at apart
      have later := ih ne_nil.2 others apart.2
      have nonempty : run ≠ [] := Ne.symm ne_nil.1
      have uniform := isZero_eq_head same nonempty
      rw [List.flatten_cons, List.flatMap_cons, ← later]
      cases zero : isZero (run.head nonempty) with
      | false =>
          have shown : ∀ row ∈ run, isZero row = false := by
            intro row mem
            rw [uniform row mem, zero]
          have all : run.all isZero = false := by
            rw [List.all_eq_false]
            exact ⟨run.head nonempty, List.head_mem nonempty, by simp [zero]⟩
          rw [rowLines_shown shown, runLines, all]
          rfl
      | true =>
          have zeros : ∀ row ∈ run, isZero row := by
            intro row mem
            rw [uniform row mem, zero]
          have all : run.all isZero := List.all_eq_true.mpr zeros
          -- The row after a run of zeros is shown, so that a run was skipped is forgotten at once.
          have next : ∀ row ∈ runs.flatten.head?, isZero row = false := by
            intro row first
            cases runs with
            | nil => cases first
            | cons following runs =>
                rcases apart.1 following rfl with ⟨some, other, differ⟩
                have last := uniform _ (List.getLast_mem some)
                rw [List.flatten_cons, List.head?_append_of_ne_nil _ other,
                  List.head?_eq_some_head other, Option.mem_some] at first
                rw [alike, last, zero, first] at differ
                simpa using differ
          rw [rowLines_first_zeros nonempty zeros, rowLines_skipping next, runLines, if_pos all]
          rfl

example : rowLines false [(0, [0, 0]), (1, [0, 0]), (2, [7, 0]), (3, [0, 0])] =
    ["*\n", "020: 07 00\n", "*\n"] := by
  decide

theorem lines_eq (memory : Memory) : lines memory = rowLines false (rows memory) := by
  have runs := rowLines_flatten (List.nil_notMem_splitBy alike (rows memory))
    (fun _ mem => List.isChain_of_mem_splitBy mem)
    (List.isChain_getLast_head_splitBy alike (rows memory))
  rw [List.flatten_splitBy] at runs
  exact runs.symm

/-! ## Lines -/

/-- The line of a row without its line break. -/
def lineText (row : Nat × List UInt8) : List Char :=
  (Hexadecimal.padded 3 (16 * row.1)).toList ++
    ':' :: row.2.flatMap fun byte => ' ' :: (Hexadecimal.byte byte).toList

theorem toList_rowText (row : Nat × List UInt8) :
    (rowText row.1 row.2).toList = lineText row ++ ['\n'] := by
  simp [rowText, lineText, String.toList_join, List.flatMap_map]

theorem toList_rowText_eq_lastDigits (below : row.1 < 256) :
    (rowText row.1 row.2).toList =
      Hexadecimal.lastDigits 3 (16 * row.1) ++
        ':' :: row.2.flatMap (fun byte => ' ' :: Hexadecimal.lastDigits 2 byte.toNat) ++
        ['\n'] := by
  have place : 16 * row.1 < 16 ^ 3 := by omega
  have shown : ∀ byte : UInt8, (Hexadecimal.byte byte).toList =
      Hexadecimal.lastDigits 2 byte.toNat := by
    intro byte
    exact Hexadecimal.toList_padded_eq_lastDigits byte.toNat_lt
  simp only [toList_rowText, lineText, Hexadecimal.toList_padded_eq_lastDigits place, shown]

theorem mem_lineText {char : Char} (mem : char ∈ lineText row) :
    char ∈ Hexadecimal.numerals ∨ char = ':' ∨ char = ' ' := by
  simp only [lineText, List.mem_append, List.mem_cons, List.mem_flatMap] at mem
  rcases mem with place | colon | ⟨byte, -, blank | digit⟩
  · exact .inl (Hexadecimal.mem_numerals_of_mem_padded place)
  · exact .inr (.inl colon)
  · exact .inr (.inr blank)
  · exact .inl (Hexadecimal.mem_numerals_of_mem_padded digit)

theorem break_notMem_lineText (row : Nat × List UInt8) : '\n' ∉ lineText row := by
  intro mem
  have char := mem_lineText mem
  revert char
  decide

theorem rowText_ne_star (row : Nat × List UInt8) : rowText row.1 row.2 ≠ "*\n" := by
  intro same
  have texts : lineText row ++ ['\n'] = ['*'] ++ ['\n'] := by
    rw [← toList_rowText, same]
    rfl
  have star : '*' ∈ lineText row := by
    rw [List.append_cancel_right texts]
    exact List.mem_singleton_self _
  have char := mem_lineText star
  revert char
  decide

theorem line_of_mem_rowLines {skipping : Bool} :
    ∀ line ∈ rowLines skipping rest, ∃ text, line.toList = text ++ ['\n'] ∧ '\n' ∉ text := by
  induction rest generalizing skipping with
  | nil => simp [rowLines]
  | cons row rest ih =>
      intro line mem
      rw [rowLines] at mem
      split at mem
      · split at mem
        · exact ih line mem
        · rcases List.mem_cons.mp mem with rfl | later
          · exact ⟨['*'], rfl, by decide⟩
          · exact ih line later
      · rcases List.mem_cons.mp mem with rfl | later
        · exact ⟨lineText row, toList_rowText row, break_notMem_lineText row⟩
        · exact ih line later

theorem filter_rowLines (skipping : Bool) (rest : List (Nat × List UInt8)) :
    (rowLines skipping rest).filter (· ≠ "*\n") =
      (rest.filter (!isZero ·)).map fun row => rowText row.1 row.2 := by
  induction rest generalizing skipping with
  | nil => rfl
  | cons row rest ih =>
      rw [rowLines]
      split
      · rename_i zero
        rw [List.filter_cons_of_neg (by simpa [isZero] using zero)]
        split
        · exact ih true
        · exact ih true
      · rename_i nonzero
        rw [List.filter_cons_of_pos (by simpa using rowText_ne_star row),
          List.filter_cons_of_pos (by simpa [isZero] using nonzero), ih, List.map_cons]

theorem isChain_rowLines (skipping : Bool) (rest : List (Nat × List UInt8)) :
    (rowLines skipping rest).IsChain (fun line next => line = "*\n" → next ≠ "*\n") ∧
      (skipping = true → ∀ line ∈ (rowLines skipping rest).head?, line ≠ "*\n") := by
  induction rest generalizing skipping with
  | nil => simp [rowLines]
  | cons row rest ih =>
      rw [rowLines]
      split
      · cases skipping with
        | true => exact ih true
        | false =>
            rcases ih true with ⟨chain, first⟩
            exact ⟨List.isChain_cons.mpr ⟨fun next mem _ => first rfl next mem, chain⟩, nofun⟩
      · have shown := rowText_ne_star row
        refine ⟨List.isChain_cons.mpr ⟨fun _ _ star => absurd star shown, (ih false).1⟩, ?_⟩
        rintro - line mem
        rwa [← Option.some.inj mem]

/-! ## Reading -/

theorem readLines_append_cons {line : List Char} (single : '\n' ∉ line) (text : List Char) :
    readLines (line ++ '\n' :: text) = (readLine? line).toList ++ readLines text := by
  rw [readLines, List.splitOn_append_cons_self_of_not_mem single, List.filterMap_cons]
  cases readLine? line <;> rfl

theorem words_bytes (bytes : List UInt8) :
    words (bytes.flatMap fun byte => ' ' :: (Hexadecimal.byte byte).toList) =
      bytes.map fun byte => (Hexadecimal.byte byte).toList := by
  have pieces : (bytes.flatMap fun byte => ' ' :: (Hexadecimal.byte byte).toList).splitOnP isGap =
      [] :: bytes.map fun byte => (Hexadecimal.byte byte).toList := by
    induction bytes with
    | nil => rfl
    | cons byte bytes ih => simp [ih]
  rw [words, pieces]
  simp [List.filter_map, Function.comp_def]

theorem readLine?_lineText (row : Nat × List UInt8) :
    readLine? (lineText row) = some (16 * row.1, row.2) := by
  have place : ':' ∉ (Hexadecimal.padded 3 (16 * row.1)).toList :=
    Hexadecimal.not_mem_padded (by decide)
  have bytes : ':' ∉ row.2.flatMap fun byte => ' ' :: (Hexadecimal.byte byte).toList := by
    intro mem
    simp only [List.mem_flatMap, List.mem_cons] at mem
    rcases mem with ⟨byte, -, blank | digit⟩
    · cases blank
    · exact Hexadecimal.not_mem_padded (by decide) digit
  rw [readLine?, lineText, List.splitOn_append_cons_self_of_not_mem place,
    List.splitOn_eq_singleton bytes]
  simp [words_bytes, Hexadecimal.value_padded, Function.comp_def]

theorem readLines_rowLines (skipping : Bool) (rest : List (Nat × List UInt8)) :
    readLines (String.join (rowLines skipping rest)).toList =
      (rest.filter (!isZero ·)).map fun row => (16 * row.1, row.2) := by
  have star : ∀ text, readLines ("*\n".toList ++ text) = readLines text := by
    intro text
    exact readLines_append_cons (by decide : '\n' ∉ ['*']) text
  induction rest generalizing skipping with
  | nil => rfl
  | cons row rest ih =>
      simp only [String.toList_join] at ih ⊢
      rw [rowLines]
      split
      · rename_i zero
        rw [List.filter_cons_of_neg (by simpa [isZero] using zero)]
        split
        · exact ih true
        · rw [List.flatMap_cons, star, ih]
      · rename_i nonzero
        rw [List.filter_cons_of_pos (by simpa [isZero] using nonzero), List.flatMap_cons,
          toList_rowText, List.append_assoc, List.singleton_append,
          readLines_append_cons (break_notMem_lineText row), readLine?_lineText, ih]
        rfl

/-! ## Filling memory -/

theorem getElem?_rowBytes (memory : Memory) (number offset : Nat) :
    (rowBytes memory number)[offset]? =
      if offset < 16 then memory.bytes[16 * number + offset]? else none := by
  simp [rowBytes, Memory.read, List.getElem?_take, List.getElem?_drop]

theorem length_rowBytes {number : Nat} (below : number < 256) :
    (rowBytes memory number).length = 16 := by
  simp [rowBytes, Memory.read]
  omega

theorem getElem_writeRow {number place : Nat} (other : Memory) (below : place < 4096) :
    (other.write (16 * number) (rowBytes memory number)).bytes[place] =
      if place / 16 = number then memory.bytes[place] else other.bytes[place] := by
  rw [Memory.getElem_write below, getElem?_rowBytes]
  by_cases here : place / 16 = number
  · have start : 16 * number ≤ place := by omega
    have within : place - 16 * number < 16 := by omega
    rw [if_pos start, if_pos within, if_pos here, Nat.add_sub_cancel' start,
      Vector.getElem?_eq_getElem below]
    rfl
  · rw [if_neg here]
    split
    · rw [if_neg (by omega)]
      rfl
    · rfl

/-- Rows written to where they come from bring their own bytes and no others. -/
theorem getElem_writeRows {numbers : List Nat} {place : Nat} (other : Memory)
    (below : place < 4096) :
    (numbers.foldl (fun filled number => filled.write (16 * number) (rowBytes memory number))
      other).bytes[place] =
      if place / 16 ∈ numbers then memory.bytes[place] else other.bytes[place] := by
  induction numbers generalizing other with
  | nil => rfl
  | cons number numbers ih =>
      rw [List.foldl_cons, ih, getElem_writeRow other below]
      by_cases later : place / 16 ∈ numbers
      · rw [if_pos later, if_pos (List.mem_cons_of_mem _ later)]
      · rw [if_neg later]
        simp [later]

theorem getElem_of_isZero {place : Nat} (below : place < 4096)
    (zero : isZero (place / 16, rowBytes memory (place / 16))) : memory.bytes[place] = 0 := by
  have shown : (rowBytes memory (place / 16))[place % 16]? = some memory.bytes[place] := by
    rw [getElem?_rowBytes, if_pos (Nat.mod_lt _ (by decide)), Nat.div_add_mod,
      Vector.getElem?_eq_getElem below]
  exact beq_iff_eq.mp (List.all_eq_true.mp zero _ (List.mem_of_getElem? shown))

theorem restore_memory (memory : Memory) : restore (Dump.memory memory) = memory := by
  have read : readLines (Dump.memory memory).toList =
      ((List.range 256).filter fun number => !isZero (number, rowBytes memory number)).map
        fun number => (16 * number, rowBytes memory number) := by
    rw [Dump.memory, readLines_rowLines, List.filter_map, List.map_map]
    rfl
  rw [restore, read, List.foldl_map, Memory.mk.injEq]
  ext place below
  rw [getElem_writeRows .empty below]
  split
  · rfl
  · rename_i left
    have zero : isZero (place / 16, rowBytes memory (place / 16)) := by
      have number : place / 16 < 256 := by omega
      simpa [number] using left
    rw [getElem_of_isZero below zero]
    simp [Memory.empty]

theorem flatMap_rows (memory : Memory) : (rows memory).flatMap Prod.snd = memory.bytes.toList := by
  have front : ∀ count, (List.range count).flatMap (rowBytes memory) =
      memory.bytes.toList.take (16 * count) := by
    intro count
    induction count with
    | zero => rfl
    | succ count ih =>
        rw [List.range_succ, List.flatMap_append, ih, List.flatMap_singleton, Nat.mul_succ,
          List.take_add]
        rfl
  rw [rows, List.flatMap_map]
  exact (front 256).trans (List.take_of_length_le (by simp))

/-- The dump of memory is made of lines for its rows in order. Each longest run of zero rows has a
star, each other row has its address in three digits and its sixteen bytes in two each; so no two
stars follow one another, and zeroed memory filled from the address lines is the memory shown. -/
theorem memory_is_told_by_lines (memory : Memory) :
    Dump.memory memory = String.join (lines memory) ∧
      (rows memory).flatMap Prod.snd = memory.bytes.toList ∧
      (∀ row ∈ rows memory, row.2.length = 16 ∧
        (rowText row.1 row.2).toList =
          Hexadecimal.lastDigits 3 (16 * row.1) ++
            ':' :: row.2.flatMap (fun byte => ' ' :: Hexadecimal.lastDigits 2 byte.toNat) ++
            ['\n']) ∧
      (∀ line ∈ lines memory, ∃ text, line.toList = text ++ ['\n'] ∧ '\n' ∉ text) ∧
      (lines memory).filter (· ≠ "*\n") =
        ((rows memory).filter (!isZero ·)).map (fun row => rowText row.1 row.2) ∧
      (lines memory).IsChain (fun line next => line = "*\n" → next ≠ "*\n") ∧
      restore (Dump.memory memory) = memory ∧
      ∀ other, Dump.memory other = Dump.memory memory ↔ other = memory := by
  refine ⟨?_, flatMap_rows memory, ?_, ?_, ?_, ?_, restore_memory memory, ?_⟩
  · rw [lines_eq]
    rfl
  · intro row mem
    rcases List.mem_map.mp mem with ⟨number, below, rfl⟩
    rw [List.mem_range] at below
    exact ⟨length_rowBytes below, toList_rowText_eq_lastDigits below⟩
  · rw [lines_eq]
    exact line_of_mem_rowLines
  · rw [lines_eq]
    exact filter_rowLines false (rows memory)
  · rw [lines_eq]
    exact (isChain_rowLines false (rows memory)).1
  · intro other
    have injective : Function.Injective Dump.memory :=
      Function.LeftInverse.injective restore_memory
    exact injective.eq_iff

end Dump

end Chip8

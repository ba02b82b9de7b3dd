import Chip8.Proofs.Execution
import Chip8.Proofs.Loading
import Chip8.Proofs.Script
import Mathlib

/-!
# Well-formed machines

In every machine that a host can reach, the program counter and the return addresses name bytes
of memory, the call stack holds at most sixteen addresses, and every cell of the screen is 0 or 1.
Nothing overflows along the way: the timers never do, no program is copied past the end of memory,
and the moved target of a jump does only if the host executes a jump whose target leaves no room
for a byte, which no word of memory can hold.
-/

namespace Chip8

/-! ## Parts -/

namespace CallStack

/-- At most sixteen addresses are held, and each names a byte of memory. -/
structure WellFormed (stack : CallStack) : Prop where
  depth_le : stack.depth ≤ 16
  returns_lt : ∀ address ∈ stack.toList, address.toNat < 4096

theorem wellFormed_empty : empty.WellFormed :=
  ⟨by decide, by simp⟩

theorem top?_eq_none_iff {stack : CallStack} (depth_le : stack.depth ≤ 16) :
    stack.top? = none ↔ stack.depth = 0 := by
  rw [top?_eq_getLast? depth_le, List.getLast?_eq_none_iff, ← List.length_eq_zero_iff,
    length_toList depth_le]

theorem WellFormed.push {stack pushed : CallStack} {address pc : Address}
    (wellFormed : stack.WellFormed) (bound : address.toNat < 4096)
    (success : stack.push address pc = .ok pushed) : pushed.WellFormed := by
  have held := toList_push success
  refine ⟨depth_le_of_push success, ?_⟩
  intro other other_mem
  rw [held, List.mem_append, List.mem_singleton] at other_mem
  rcases other_mem with old | new
  · exact wellFormed.returns_lt other old
  · rw [new]
    exact bound

theorem WellFormed.pop {stack popped : CallStack} {address pc : Address}
    (wellFormed : stack.WellFormed) (success : stack.pop pc = .ok (address, popped)) :
    popped.WellFormed ∧ address.toNat < 4096 := by
  have held := toList_pop wellFormed.depth_le success
  have bound := wellFormed.returns_lt
  rw [held] at bound
  refine ⟨⟨depth_le_of_pop wellFormed.depth_le success, ?_⟩, ?_⟩
  · intro other other_mem
    exact bound other (List.mem_append_left _ other_mem)
  · exact bound address (List.mem_append_right _ (List.mem_singleton.mpr rfl))

end CallStack

namespace Screen

/-- Every cell is 0 or 1. -/
def IsBinary (cells : Vector UInt8 2048) : Prop :=
  ∀ place, cells.get place = 0 ∨ cells.get place = 1

theorem isBinary_dark : IsBinary (Vector.replicate 2048 0) := by
  intro place
  left
  simp [Vector.get_eq_getElem]

/-- A cell that is struck is toggled, and no other cell is. -/
theorem get_strike (painted : Vector UInt8 2048 × Bool) (struck place : Fin 2048) :
    (strike painted struck).1.get place =
      painted.1.get place ^^^ if struck = place then 1 else 0 := by
  simp only [Vector.get_eq_getElem]
  by_cases same : struck = place
  · simp [strike, same]
  · have apart : struck.val ≠ place.val := fun equal => same (Fin.ext equal)
    simp [strike, same, apart]

theorem IsBinary.strike {cells : Vector UInt8 2048} {collided : Bool} (binary : IsBinary cells)
    (place : Fin 2048) : IsBinary (Screen.strike (cells, collided) place).1 := by
  intro other
  rw [get_strike]
  by_cases same : place = other
  · rcases binary other with dark | lit
    · simp [dark, same]
    · simp [lit, same]
  · simpa [same] using binary other

theorem IsBinary.foldl_strike {places : List (Fin 2048)} {painted : Vector UInt8 2048 × Bool}
    (binary : IsBinary painted.1) : IsBinary (places.foldl Screen.strike painted).1 := by
  induction places generalizing painted with
  | nil => exact binary
  | cons place places ih => exact ih (binary.strike place)

theorem IsBinary.paint {screen : Screen} (binary : IsBinary screen.cells) (x y : UInt8)
    (sprite : List UInt8) : IsBinary (screen.paint x y sprite).1.cells :=
  @IsBinary.foldl_strike _ (screen.cells, false) binary

end Screen

/-! ## The whole machine -/

namespace Machine

/-- The program counter and all return addresses name bytes of memory, the call stack keeps to
its places, and the cells of the screen are bits. -/
structure WellFormed (machine : Machine) : Prop where
  pc_lt : machine.pc.toNat < 4096
  stack : machine.stack.WellFormed
  cells : Screen.IsBinary machine.screen.cells

variable {machine : Machine} {instruction : Instruction} {pc : Address} {now : Time}

theorem wellFormed_new (config : Config) (random : Source UInt32) (start : Time) :
    (Machine.new config random start).WellFormed :=
  ⟨show Address.programStart.toNat < 4096 by decide, CallStack.wellFormed_empty,
    Screen.isBinary_dark⟩

namespace WellFormed

theorem jump (wellFormed : machine.WellFormed) (address : Address) :
    (machine.jump address).WellFormed :=
  ⟨by simp [Machine.jump]; omega, wellFormed.stack, wellFormed.cells⟩

theorem advance (wellFormed : machine.WellFormed) : machine.advance.WellFormed :=
  wellFormed.jump _

theorem execute (wellFormed : machine.WellFormed) (instruction : Instruction) (pc : Address) :
    (machine.execute instruction pc).machine.WellFormed := by
  have ⟨pc_lt, stack, cells⟩ := wellFormed
  cases instruction with
  | clearScreen => exact ⟨pc_lt, stack, Screen.isBinary_dark⟩
  | ret =>
      cases popped : machine.stack.pop pc with
      | error fault => simpa [Machine.execute, popped] using wellFormed
      | ok result =>
          have sound : ({ machine with stack := result.2 } : Machine).WellFormed :=
            ⟨pc_lt, (stack.pop popped).1, cells⟩
          simp only [Machine.execute, popped]
          exact sound.jump result.1
  | call address =>
      cases pushed : machine.stack.push machine.pc pc with
      | error fault => simpa [Machine.execute, pushed] using wellFormed
      | ok result =>
          have sound : ({ machine with stack := result } : Machine).WellFormed :=
            ⟨pc_lt, stack.push pc_lt pushed, cells⟩
          simp only [Machine.execute, pushed]
          exact sound.jump address
  | jump address => exact wellFormed.jump address
  | skip condition =>
      simp only [Machine.execute, done]
      split
      · exact wellFormed.advance
      · exact wellFormed
  | jumpOffset target =>
      simp only [Machine.execute]
      split
      · exact wellFormed.jump _
      · exact wellFormed
  | draw x y height => exact ⟨pc_lt, stack, cells.paint _ _ _⟩
  | awaitKey x =>
      have back := wellFormed.jump pc
      exact ⟨back.pc_lt, back.stack, back.cells⟩
  | _ => exact ⟨pc_lt, stack, cells⟩

theorem step (wellFormed : machine.WellFormed) : (machine.step now).machine.WellFormed := by
  have ⟨pc_lt, stack, cells⟩ := wellFormed
  cases machine.stepCase now with
  | executed running free result_eq machine_eq =>
      have executed := wellFormed.advance.execute (.decode machine.currentWord) machine.pc
      rw [machine_eq]
      exact ⟨executed.pc_lt, executed.stack, executed.cells⟩
  | blocked fault running blocked result_eq machine_eq =>
      rw [machine_eq]
      exact ⟨(wellFormed.jump machine.pc).pc_lt, stack, cells⟩
  | waited register held waiting quiet result_eq machine_eq =>
      rw [machine_eq]
      exact ⟨pc_lt, stack, cells⟩
  | taken register held key waiting pressed result_eq machine_eq =>
      rw [machine_eq]
      exact ⟨wellFormed.advance.pc_lt, stack, cells⟩
  | halted cause halted result_eq machine_eq =>
      rw [machine_eq]
      exact wellFormed

theorem perform (wellFormed : machine.WellFormed) (action : Action) :
    (machine.perform now action).machine.WellFormed := by
  have ⟨pc_lt, stack, cells⟩ := wellFormed
  cases action with
  | loadProgram program =>
      simp only [Machine.perform, Report.map, Machine.loadProgram]
      split
      · exact ⟨pc_lt, stack, cells⟩
      · exact wellFormed
  | reset =>
      exact ⟨show Address.programStart.toNat < 4096 by decide, CallStack.wellFormed_empty,
        Screen.isBinary_dark⟩
  | step => exact wellFormed.step
  | fetch => exact wellFormed.advance
  | execute instruction pc => exact wellFormed.execute instruction pc
  | _ => exact ⟨pc_lt, stack, cells⟩

end WellFormed

/-! ## Reachable machines -/

theorem step_ne_overflow (machine : Machine) (now : Time) (kind : Overflow) :
    (machine.step now).result ≠ .error (.overflow kind) := by
  cases machine.stepCase now with
  | executed running free result_eq machine_eq => simp [result_eq]
  | blocked fault running blocked result_eq machine_eq => simp [result_eq]
  | waited register held waiting quiet result_eq machine_eq => simp [result_eq]
  | taken register held key waiting pressed result_eq machine_eq => simp [result_eq]
  | halted cause halted result_eq machine_eq => simp [result_eq]

theorem perform_ne_overflow {action : Action} (bounded : action.Bounded) (kind : Overflow) :
    (machine.perform now action).result ≠ .error (.overflow kind) := by
  cases action with
  | loadProgram program =>
      simp only [perform, ne_eq, Report.result_map_eq_error]
      exact result_loadProgram_ne_overflow machine program kind
  | step =>
      simp only [perform, ne_eq, Report.result_map_eq_error]
      exact step_ne_overflow machine now kind
  | execute instruction pc =>
      have room : ∀ target, instruction = .jumpOffset target → target.toNat ≤ 0xFF00 := by
        rintro target rfl
        exact bounded
      simp only [perform, ne_eq, Report.result_map_eq_error, result_execute]
      cases found : machine.obstacle pc instruction with
      | none => simp
      | some failure =>
          simp only [Except.error.injEq]
          rintro rfl
          exact obstacle_ne_overflow kind room found
  | _ => simp [perform, quietly]

theorem Reachable.wellFormed {permitted : Action → Prop}
    (reachable : machine.Reachable permitted) : machine.WellFormed :=
  reachable.invariant wellFormed_new fun _ _ action holds _ => holds.perform action

/-- Every reachable machine is well-formed, its next word is an instruction, and only an empty call
stack has no address to give back. The glyphs and every program that is loaded end within memory,
and no further action of the host overflows. -/
theorem Reachable.sound (reachable : machine.Reachable Action.Bounded) :
    machine.WellFormed ∧
      (∃ instruction, Instruction.decode? machine.currentWord = some instruction) ∧
      (machine.stack.top? = none ↔ machine.stack.depth = 0) ∧
      machine.memory.copy 0 Memory.glyphs = .ok machine.loadGlyphs.memory ∧
      (∀ program, (machine.loadProgram program).result = .ok () →
        0x200 + program.length ≤ 4096) ∧
      ∀ now action, action.Bounded →
        ∀ kind, (machine.perform now action).result ≠ .error (.overflow kind) := by
  have wellFormed := reachable.wellFormed
  rcases Instruction.exists_decode? machine.currentWord with ⟨instruction, read, -⟩
  refine ⟨wellFormed, ⟨instruction, read⟩, ?_, machine.memory.copy_glyphs, ?_, ?_⟩
  · exact CallStack.top?_eq_none_iff wellFormed.stack.depth_le
  · intro program loaded
    have fits := (machine.result_loadProgram_eq_ok_iff program).mp loaded
    omega
  · intro now action bounded kind
    exact perform_ne_overflow bounded kind

/-- A machine that has carried out the highest jump that the bound allows. -/
def jumped : Machine :=
  (Machine.new .standard (.constant 0) .zero).play
    [⟨.zero, .execute (.setByte 0 0xFF) 0⟩, ⟨.zero, .execute (.jumpOffset 0xFF00) 0⟩]

/-- A program that goes on to the last byte of memory. -/
def filling : List UInt8 := List.replicate 3584 0x11

/-- The jump lands on the last byte of memory. A program can then still be loaded that ends there,
and one with a byte more is refused without running past the end. -/
theorem sound_after_highest_jump :
    jumped.pc = 0x0FFF ∧ jumped.WellFormed ∧
      (∀ now kind, (jumped.perform now .step).result ≠ .error (.overflow kind)) ∧
      (jumped.loadProgram filling).result = .ok () ∧ 0x200 + filling.length ≤ 4096 ∧
      ∀ now kind, (jumped.perform now (.loadProgram (0x11 :: filling))).result ≠
        .error (.overflow kind) := by
  have reachable : jumped.Reachable Action.Bounded :=
    ⟨.standard, .constant 0, .zero, _, by simp [Action.Bounded], rfl⟩
  rcases reachable.sound with ⟨wellFormed, -, -, -, ends, unharmed⟩
  have filling_length : filling.length = 3584 := List.length_replicate
  have loaded := (jumped.result_loadProgram_eq_ok_iff filling).mpr filling_length.le
  refine ⟨by decide, wellFormed, ?_, loaded, ends filling loaded, ?_⟩
  · intro now
    exact unharmed now .step trivial
  · intro now
    exact unharmed now (.loadProgram _) trivial

end Machine

end Chip8

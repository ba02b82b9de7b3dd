import Chip8.Proofs.Executing
import Chip8.Proofs.Footprint
import Mathlib

/-!
# Dialects

A dialect is asked for its turns by the shifts, by the logic instructions and by the jump with
offset, and by nothing else. `Machine.Contested` says when an instruction then means something else
in another dialect: a shift only if VX and VY differ, the jump only if V0 and the other register
do. Any other instruction comes to the same in both dialects, so two machines that were switched on
with different dialects stay together as long as no action executes a contested instruction. A
contested logic instruction is the mildest way to part, for the machines then differ in VF at most.
-/

namespace Chip8

namespace Machine

/-- The machine as a speaker of another dialect. -/
def speaking (machine : Machine) (dialect : Dialect) : Machine :=
  { machine with dialect }

/-- The instruction means something else in the other dialect. -/
def Contested (machine : Machine) (dialect : Dialect) : Instruction → Prop
  | .combine .shiftRight x y | .combine .shiftLeft x y =>
      machine.dialect.shiftsY ≠ dialect.shiftsY ∧
        machine.registers.get x ≠ machine.registers.get y
  | .combine .or _ _ | .combine .and _ _ | .combine .xor _ _ =>
      machine.dialect.logicClearsFlag ≠ dialect.logicClearsFlag
  | .jumpOffset target =>
      machine.dialect.jumpsByX ≠ dialect.jumpsByX ∧
        machine.registers.get (target >>> 8).toUInt8 ≠ machine.registers.get 0
  | _ => False

/-- No action of the script executes an instruction that means something else in the other
dialect. -/
def Uncontested (machine : Machine) (dialect : Dialect) : List Event → Prop
  | [] => True
  | event :: script =>
    (∀ instruction, machine.Executes event.action instruction →
        ¬machine.Contested dialect instruction) ∧
      Uncontested (machine.perform event.now event.action).machine dialect script

end Machine

/-- The report of a machine as a speaker of another dialect. -/
def Report.speaking {α : Type} (report : Report α) (dialect : Dialect) : Report α :=
  { report with machine := report.machine.speaking dialect }

/-- The combination is one of those after which a dialect may clear VF. -/
def Combination.IsLogic : Combination → Prop
  | or | and | xor => True
  | _ => False

namespace Machine

variable {machine : Machine} {dialect : Dialect} {instruction : Instruction} {action : Action}
variable {now : Time}

/-! ## Instructions -/

theorem combine_speaking {operation : Combination} {x y : UInt8}
    (agreed : ¬machine.Contested dialect (.combine operation x y)) :
    machine.registers.combine dialect operation x y =
      machine.registers.combine machine.dialect operation x y := by
  cases operation with
  | or | and | xor =>
      have same : machine.dialect.logicClearsFlag = dialect.logicClearsFlag := by
        simpa [Contested] using agreed
      simp [Registers.combine, Registers.afterLogic, same]
  | shiftRight | shiftLeft =>
      have same : machine.registers.shiftSource dialect x y =
          machine.registers.shiftSource machine.dialect x y := by
        by_cases turns : machine.dialect.shiftsY = dialect.shiftsY
        · simp [Registers.shiftSource, turns]
        · have equal : machine.registers.get x = machine.registers.get y := by
            simpa [Contested, turns] using agreed
          simp [Registers.shiftSource, equal]
      simp [Registers.combine, same]
  | _ => rfl

theorem jumpOffset_speaking {target : Address}
    (agreed : ¬machine.Contested dialect (.jumpOffset target)) :
    (machine.speaking dialect).jumpOffset target = machine.jumpOffset target := by
  by_cases turns : machine.dialect.jumpsByX = dialect.jumpsByX
  · have asked : dialect.jumpsByX = true ↔ machine.dialect.jumpsByX = true := by rw [turns]
    exact if_congr asked rfl rfl
  · have equal : machine.registers.get (target >>> 8).toUInt8 = machine.registers.get 0 := by
      simpa [Contested, turns] using agreed
    simp [jumpOffset, speaking, equal]

theorem execute_speaking (agreed : ¬machine.Contested dialect instruction) (pc : Address) :
    (machine.speaking dialect).execute instruction pc =
      (machine.execute instruction pc).speaking dialect := by
  cases instruction with
  | combine operation x y =>
      have same := combine_speaking agreed
      simp [execute, done, speaking, Report.speaking, same]
  | jumpOffset target =>
      simp only [execute, jumpOffset_speaking agreed]
      split <;> rfl
  | ret | call =>
      simp only [execute, speaking]
      split <;> rfl
  | skip condition =>
      have same : (machine.speaking dialect).holds condition = machine.holds condition := by
        cases condition <;> rfl
      simp only [execute, same]
      split <;> rfl
  | _ => rfl

/-- After a contested logic instruction only VF tells the dialects apart. -/
theorem bytes_combine_speaking (machine : Machine) (dialect : Dialect) {operation : Combination}
    (logic : operation.IsLogic) (x y : UInt8) (register : Nibble)
    (other : register ≠ Nibble.low 0xF) :
    (machine.registers.combine dialect operation x y).bytes.get register =
      (machine.registers.combine machine.dialect operation x y).bytes.get register := by
  have kept : ∀ (registers : Registers) (spoken : Dialect),
      (registers.afterLogic spoken).bytes.get register = registers.bytes.get register := by
    intro registers spoken
    apply bytes_afterLogic
    exact fun same => absurd same other
  cases operation with
  | or | and | xor => simp only [Registers.combine, kept]
  | _ => cases logic

/-! ## Steps -/

theorem runInstruction_speaking
    (agreed : ¬machine.Contested dialect (.decode machine.currentWord)) :
    (machine.speaking dialect).runInstruction = machine.runInstruction.speaking dialect := by
  have executed : (machine.advance.speaking dialect).execute (.decode machine.currentWord)
      machine.pc = _ :=
    @execute_speaking machine.advance dialect (.decode machine.currentWord) agreed machine.pc
  have fetched : (machine.speaking dialect).fetch =
      (.decode machine.currentWord, machine.advance.speaking dialect) := rfl
  have same_pc : (machine.speaking dialect).pc = machine.pc := rfl
  simp only [runInstruction, fetched, same_pc, executed]
  simp only [fetch, Report.speaking]
  split <;> rfl

theorem pollKey_speaking (machine : Machine) (dialect : Dialect) (register : UInt8)
    (held : UInt16) :
    (machine.speaking dialect).pollKey register held =
      (machine.pollKey register held).speaking dialect := by
  have same : (machine.speaking dialect).keypad = machine.keypad := rfl
  simp only [pollKey, same]
  split <;> rfl

theorem synced_speaking {α : Type} (report : Report α) (dialect : Dialect) (now : Time) :
    (report.speaking dialect).synced now = (report.synced now).speaking dialect := by
  have same : (report.speaking dialect).result = report.result := rfl
  cases result : report.result with
  | error failure =>
      rw [Report.synced_of_error result, Report.synced_of_error (same.trans result)]
  | ok answer =>
      rw [Report.synced_of_ok result, Report.synced_of_ok (same.trans result)]
      rfl

theorem step_speaking
    (agreed : machine.state = .running → ¬machine.Contested dialect (.decode machine.currentWord))
    (now : Time) :
    (machine.speaking dialect).step now = (machine.step now).speaking dialect := by
  have same : (machine.speaking dialect).state = machine.state := rfl
  simp only [step, same]
  cases state : machine.state with
  | running => simp only [runInstruction_speaking (agreed state), synced_speaking]
  | awaitingKey register held => simp only [pollKey_speaking, synced_speaking]
  | faulted cause => rfl

theorem perform_speaking
    (agreed : ∀ instruction, machine.Executes action instruction →
      ¬machine.Contested dialect instruction) (now : Time) :
    (machine.speaking dialect).perform now action =
      (machine.perform now action).speaking dialect := by
  cases action with
  | step =>
      have due : machine.state = .running →
          ¬machine.Contested dialect (.decode machine.currentWord) := by
        intro running
        exact agreed _ (executes_step_iff.mpr ⟨running, rfl⟩)
      simp only [perform, step_speaking due]
      rfl
  | execute instruction pc =>
      simp only [perform, execute_speaking (agreed instruction (.execute instruction pc)) pc]
      rfl
  | loadProgram program =>
      simp only [perform, loadProgram, speaking]
      split <;> rfl
  | _ => rfl

/-- Speakers of two dialects give the same answers as long as nothing contested is executed, and
differ in nothing but the dialect. -/
theorem replies_speaking {script : List Event} (agreed : machine.Uncontested dialect script) :
    (machine.speaking dialect).replies script = machine.replies script ∧
      (machine.speaking dialect).play script = (machine.play script).speaking dialect := by
  induction script generalizing machine with
  | nil => exact ⟨rfl, rfl⟩
  | cons event script ih =>
      have performed := perform_speaking agreed.1 event.now
      rcases ih agreed.2 with ⟨replies_eq, played⟩
      simp only [replies, play, performed]
      refine ⟨?_, played⟩
      simp only [Report.speaking, replies_eq]

/-! ## Parting -/

/-- Speakers of two dialects that execute a logic instruction differ in VF at most. -/
theorem perform_logic_speaking (dialect : Dialect) {operation : Combination} {x y : UInt8}
    (logic : operation.IsLogic) (executes : machine.Executes action (.combine operation x y))
    (now : Time) :
    let one := machine.perform now action
    let other := (machine.speaking dialect).perform now action
    other.result = one.result ∧
      other.machine = { one.machine with dialect, registers := other.machine.registers } ∧
      ∀ register, register ≠ Nibble.low 0xF →
        other.machine.registers.bytes.get register = one.machine.registers.bytes.get register := by
  have kept := machine.bytes_combine_speaking dialect logic x y
  cases executes with
  | execute _ pc => exact ⟨rfl, rfl, kept⟩
  | step running due =>
      have read : Instruction.decode machine.currentWord = .combine operation x y :=
        (executes_step_iff.mp (.step running due)).2
      have again : Instruction.decode (machine.speaking dialect).currentWord =
        .combine operation x y := read
      have one := step_of_obstacle_eq_none now running (by rw [read]; rfl)
      have other := @step_of_obstacle_eq_none (machine.speaking dialect) now running
        (by rw [again]; rfl)
      rw [read] at one
      rw [again] at other
      simp only [perform, Report.map, one, other, true_and]
      exact ⟨rfl, kept⟩

/-- Machines switched on with different dialects give the same answers and have the same state until
an action executes an instruction on which the dialects differ: a shift or a jump with offset whose
two registers hold different bytes, or a logic instruction. A logic instruction leaves them the same
in all but VF. -/
theorem dialects_agree_until_contested (config : Config) (dialect : Dialect)
    (random : Source UInt32) (start : Time) {script : List Event}
    (uncontested : (Machine.new config random start).Uncontested dialect script) :
    let one := Machine.new config random start
    let other := Machine.new { config with dialect } random start
    other.replies script = one.replies script ∧
      other.play script = { one.play script with dialect } ∧
      ∀ now action operation x y, operation.IsLogic →
        (one.play script).Executes action (.combine operation x y) →
        let after := (one.play script).perform now action
        let otherAfter := (other.play script).perform now action
        otherAfter.result = after.result ∧
          otherAfter.machine =
            { after.machine with dialect, registers := otherAfter.machine.registers } ∧
          ∀ register, register ≠ Nibble.low 0xF →
            otherAfter.machine.registers.bytes.get register =
              after.machine.registers.bytes.get register := by
  intro one other
  have spoken : other = one.speaking dialect := rfl
  rcases replies_speaking uncontested with ⟨replies_eq, played⟩
  rw [spoken]
  refine ⟨replies_eq, played, ?_⟩
  intro now action operation x y logic executes after otherAfter
  have parted := perform_logic_speaking dialect logic executes now
  rw [← played] at parted
  exact parted

/-- The host loads a program that shifts V0 and puts the same byte into V0 and V1. -/
def preparing : List Event :=
  [⟨.zero, .execute (.setByte 0 3) 0⟩, ⟨.zero, .execute (.setByte 1 3) 0⟩,
    ⟨.zero, .loadProgram [0x80, 0x16]⟩]

def shifting : Machine :=
  (Machine.new .standard (.constant 0) .zero).play preparing

theorem currentWord_shifting : shifting.currentWord = 0x8016 := by
  have memory_eq : shifting.memory = Memory.empty.write 512 [0x80, 0x16] := rfl
  rw [← UInt16.toNat_inj]
  exact toNat_currentWord_of_write memory_eq rfl

/-- A shift of equal bytes sets VF in both dialects, and a logic instruction then clears it in one
of them only. -/
theorem dialects_part_at_logic :
    let script := preparing ++ [⟨.zero, .step⟩]
    let one := Machine.new .standard (.constant 0) .zero
    let other := Machine.new { Config.standard with dialect := ⟨true, true, true⟩ } (.constant 0) .zero
    let logic := Action.execute (.combine .xor 0 1) 0
    let after := ((one.play script).perform .zero logic).machine.registers
    let otherAfter := ((other.play script).perform .zero logic).machine.registers
    other.replies script = one.replies script ∧ after.get 0xF = 1 ∧ otherAfter.get 0xF = 0 ∧
      ∀ register, register ≠ Nibble.low 0xF →
        otherAfter.bytes.get register = after.bytes.get register := by
  intro script one other logic after otherAfter
  have uncontested : one.Uncontested ⟨true, true, true⟩ script := by
    refine ⟨?_, ?_, nofun, ?_, trivial⟩
    · rintro _ ⟨⟩
      exact id
    · rintro _ ⟨⟩
      exact id
    · intro instruction executes
      have due := (@executes_step_iff shifting instruction).mp executes
      rw [currentWord_shifting] at due
      rw [← due.2]
      intro contested
      exact contested.2 rfl
  have agreed := dialects_agree_until_contested .standard ⟨true, true, true⟩ (.constant 0) .zero
    uncontested
  have stepped :=
    (@step_of_obstacle_eq_none shifting .zero rfl (by rw [currentWord_shifting]; rfl)).2
  rw [currentWord_shifting] at stepped
  have reached : one.play script = (shifting.step .zero).machine :=
    play_append_step one preparing .zero
  have played := reached.trans stepped
  refine ⟨agreed.1, ?_, ?_, (agreed.2.2 .zero logic .xor 0 1 trivial (.execute _ 0)).2.2⟩
  · simp only [after, played]
    rfl
  · have same : other.play script = { one.play script with dialect := ⟨true, true, true⟩ } :=
      agreed.2.1
    rw [played] at same
    simp only [otherAfter, same]
    rfl

end Machine

end Chip8

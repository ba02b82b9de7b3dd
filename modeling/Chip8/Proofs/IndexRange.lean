import Chip8.Proofs.Transfers
import Chip8.Proofs.Veils
import Mathlib

/-!
# The range of the index register

The index register has sixteen bits, but whatever is read or written through it lies in 4096 bytes.
The four high bits are carried along in sums and never come back down, so a machine that had them
dropped goes on as before: dropping them is a veil behind which all instructions come to the same.
-/

namespace Chip8

/-- The veil that drops the four high bits of the index register. -/
def Veil.lowIndex : Veil where
  index := Address.wrap
  screen := id
  timers := id
  random := id

/-- A sum has the same low bits whether or not the high bits of a part were dropped before. -/
theorem Address.wrap_wrap_add (address offset : Address) :
    (address.wrap + offset).wrap = (address + offset).wrap := by
  rw [← UInt16.toNat_inj]
  simp only [toNat_wrap, UInt16.toNat_add]
  omega

namespace Veil

theorem lowIndex_again (report : Report Outcome) :
    (report.veiled lowIndex).veiled lowIndex = report.veiled lowIndex := by
  simp [Report.veiled, Machine.veiled, lowIndex]

theorem execute_lowIndex (machine : Machine) (instruction : Instruction) (pc : Address) :
    ((machine.veiled lowIndex).execute instruction pc).veiled lowIndex =
      (machine.execute instruction pc).veiled lowIndex := by
  -- Memory is reached through the index register in runs only, which depend on the cell where they
  -- start. The last cases do not ask for the register and leave it as it is on both sides.
  have branching := lowIndex.execute_of_branches machine instruction pc
  cases instruction with
  | draw | loadRegisters =>
      have loaded : machine.memory.load (Address.wrap machine.index) =
          machine.memory.load machine.index := by
        funext count
        exact Memory.load_congr _ (Address.cell_wrap _) _
      simp [Machine.execute, Machine.veiled, Report.veiled, Machine.done, lowIndex, loaded]
  | storeDecimal | storeRegisters =>
      have stored : machine.memory.store (Address.wrap machine.index) =
          machine.memory.store machine.index := by
        funext bytes
        exact Memory.store_congr _ (Address.cell_wrap _) _
      simp [Machine.execute, Machine.veiled, Report.veiled, Machine.done, lowIndex, stored]
  | addIndex =>
      simp [Machine.execute, Machine.veiled, Report.veiled, Machine.done, lowIndex,
        Address.wrap_wrap_add]
  | setIndex | pointGlyph => rfl
  | ret | jump | call | skip | jumpOffset =>
      rw [branching trivial, lowIndex_again]
  | _ =>
      rw [← lowIndex_again (machine.execute _ pc)]
      rfl

theorem hides_lowIndex : lowIndex.Hides where
  again machine := by
    simp [Machine.veiled, lowIndex]
  clean screen := rfl
  execute := execute_lowIndex

end Veil

namespace Machine

theorem veiled_lowIndex_eq_iff {first second : Machine} :
    first.veiled .lowIndex = second.veiled .lowIndex ↔
      { first with index := second.index } = second ∧
        first.index.toNat % 4096 = second.index.toNat % 4096 := by
  have wrapped : Address.wrap first.index = Address.wrap second.index ↔
      first.index.toNat % 4096 = second.index.toNat % 4096 := by
    rw [← UInt16.toNat_inj, Address.toNat_wrap, Address.toNat_wrap]
  rw [← wrapped]
  cases first
  cases second
  simp only [veiled, Veil.lowIndex, Machine.mk.injEq, id_eq]
  tauto

/-- Machines that differ at most in the four high bits of their index registers give the same
answers along every script, and differ in nothing else afterwards. -/
theorem replies_eq_of_index_congr {first second : Machine}
    (same : { first with index := second.index } = second)
    (congruent : first.index.toNat % 4096 = second.index.toNat % 4096) (script : List Event) :
    first.replies script = second.replies script ∧
      { first.play script with index := (second.play script).index } = second.play script ∧
      (first.play script).index.toNat % 4096 = (second.play script).index.toNat % 4096 := by
  have like := veiled_lowIndex_eq_iff.mpr ⟨same, congruent⟩
  rcases Veil.hides_lowIndex.replies_eq (fun _ => rfl) like script with ⟨replies_eq, played⟩
  exact ⟨replies_eq, veiled_lowIndex_eq_iff.mp played⟩

/-- A program that moves the index register on by a register and stores digits from there on. -/
def pointing (index : UInt16) : Machine :=
  (Machine.new .standard (.constant 0) .zero).play
    [⟨.zero, .writeMemory 0x200 [0xF0, 0x1E, 0xF1, 0x33]⟩, ⟨.zero, .execute (.setByte 0 1) 0⟩,
      ⟨.zero, .execute (.setIndex index) 0⟩]

@[simp]
theorem index_pointing (index : UInt16) : (pointing index).index = index := rfl

/-- The sum passes the end of memory for one index and the end of the register for the other. -/
theorem pointing_past_ends :
    let low := pointing 0x0FFF
    let high := pointing 0xFFFF
    let script : List Event := [⟨.zero, .step⟩, ⟨.zero, .step⟩]
    low.index ≠ high.index ∧ low.replies script = high.replies script ∧
      { low.play script with index := (high.play script).index } = high.play script := by
  intro low high script
  have same : { low with index := high.index } = high := rfl
  have congruent : low.index.toNat % 4096 = high.index.toNat % 4096 := by
    simp [low, high]
  rcases replies_eq_of_index_congr same congruent script with ⟨replies_eq, played, _⟩
  exact ⟨by simp [low, high], replies_eq, played⟩

end Machine

end Chip8

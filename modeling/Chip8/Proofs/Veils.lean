import Chip8.Proofs.Execution
import Chip8.Proofs.Script
import Mathlib

/-!
# Veiled machines

A veil hides something about a machine: it puts other contents in the place of a part, or gives a
part a fixed value. If every instruction comes to the same on a machine and on the veiled machine,
once both results are veiled, then so does every action of the host, and machines that look the same
behind the veil give the same answers along every script. This is said here once for all veils.

A step asks for the moment, so what is said of steps is for veils that show the timers. A veil that
hides how the timers are driven has to settle its steps by itself.
-/

namespace Chip8

/-- What is shown in place of the parts of a machine that a veil can hide. -/
structure Veil where
  index : UInt16 → UInt16
  screen : Screen → Screen
  timers : Timers → Timers
  random : Source UInt32 → Source UInt32

/-- The machine as it is seen behind a veil. -/
def Machine.veiled (machine : Machine) (veil : Veil) : Machine :=
  { machine with
    index := veil.index machine.index
    screen := veil.screen machine.screen
    timers := veil.timers machine.timers
    random := veil.random machine.random }

def Report.veiled {α : Type} (report : Report α) (veil : Veil) : Report α :=
  { report with machine := report.machine.veiled veil }

/-- Behind the veil no instruction tells a machine from the veiled machine. -/
structure Veil.Hides (veil : Veil) : Prop where
  again : ∀ machine : Machine, (machine.veiled veil).veiled veil = machine.veiled veil
  clean : ∀ screen, veil.screen (veil.screen screen).clean = veil.screen screen.clean
  execute : ∀ (machine : Machine) instruction pc,
    ((machine.veiled veil).execute instruction pc).veiled veil =
      (machine.execute instruction pc).veiled veil

/-- An instruction that only chooses where to go on does so behind any veil. -/
theorem Veil.execute_of_branches (veil : Veil) (machine : Machine) (instruction : Instruction)
    (pc : Address) (branches : instruction.Branches) :
    (machine.veiled veil).execute instruction pc =
      (machine.execute instruction pc).veiled veil := by
  cases instruction with
  | jump => rfl
  | ret | call =>
      simp only [Machine.execute, Machine.veiled]
      split <;> rfl
  | skip condition =>
      have same : (machine.veiled veil).holds condition = machine.holds condition := by
        cases condition <;> rfl
      simp only [Machine.execute, same]
      split <;> rfl
  | jumpOffset target =>
      have same : (machine.veiled veil).jumpOffset target = machine.jumpOffset target := rfl
      simp only [Machine.execute, same]
      split <;> rfl
  | _ => cases branches

variable {α β : Type} {veil : Veil} {now later : Time}

namespace Report

theorem synced_veiled {report other : Report α} (like : report.veiled veil = other.veiled veil)
    (settled : veil.timers (report.machine.timers.settled now) =
      veil.timers (other.machine.timers.settled later)) :
    (report.synced now).veiled veil = (other.synced later).veiled veil := by
  have result_eq : report.result = other.result := congrArg (·.result) like
  cases result : other.result with
  | error failure =>
      rw [synced_of_error result, synced_of_error (result_eq.trans result), like]
  | ok answer =>
      rw [synced_of_ok result, synced_of_ok (result_eq.trans result)]
      simp only [veiled, Machine.veiled, mk.injEq, Machine.mk.injEq] at like ⊢
      simp [like, settled]

theorem map_veiled {report other : Report α} (f : α → β)
    (like : report.veiled veil = other.veiled veil) :
    (report.map f).veiled veil = (other.map f).veiled veil := by
  simp only [veiled, mk.injEq] at like
  simp only [map, veiled, like]

end Report

namespace Veil.Hides

variable (hides : veil.Hides) (machine : Machine)

include hides

theorem runInstruction :
    (machine.veiled veil).runInstruction.veiled veil = machine.runInstruction.veiled veil := by
  have fetched : (machine.veiled veil).fetch =
      (.decode machine.currentWord, machine.advance.veiled veil) := rfl
  have same_pc : (machine.veiled veil).pc = machine.pc := rfl
  have executed := hides.execute machine.advance (.decode machine.currentWord) machine.pc
  simp only [Report.veiled, Report.mk.injEq] at executed
  rcases executed with ⟨machine_eq, result_eq, log_eq⟩
  have stopped : ∀ (other : Machine) (pc : Address) (fault : Fault),
      ({ other.jump pc with state := .faulted fault } : Machine).veiled veil =
        { (other.veiled veil).jump pc with state := .faulted fault } := by
    intro other pc fault
    rfl
  simp only [Machine.runInstruction, fetched, same_pc]
  simp only [Machine.fetch, result_eq, log_eq]
  split
  · simp only [Report.veiled, stopped, machine_eq]
  · simp only [Report.veiled, machine_eq]

theorem pollKey (register : UInt8) (held : UInt16) :
    ((machine.veiled veil).pollKey register held).veiled veil =
      (machine.pollKey register held).veiled veil := by
  have same : (machine.veiled veil).keypad = machine.keypad := rfl
  simp only [Machine.pollKey, same]
  split
  · have waiting := hides.again { machine with state := .awaitingKey register machine.keypad.mask }
    simp only [Report.veiled, Report.mk.injEq, and_true]
    exact waiting
  · rename_i key _
    have taken := hides.again { (machine.setRegister register (UInt8.ofNat key.val)).advance with
      state := .running }
    simp only [Report.veiled, Report.mk.injEq, and_true]
    exact taken

theorem step (timed : ∀ timers, veil.timers timers = timers) (now : Time) :
    ((machine.veiled veil).step now).veiled veil = (machine.step now).veiled veil := by
  have same : (machine.veiled veil).state = machine.state := rfl
  have settled : ∀ {first second : Report Outcome}, first.veiled veil = second.veiled veil →
      veil.timers (first.machine.timers.settled now) =
        veil.timers (second.machine.timers.settled now) := by
    intro first second like
    have timers_eq := congrArg (·.machine.timers) like
    simp only [Report.veiled, Machine.veiled, timed] at timers_eq
    rw [timers_eq]
  simp only [Machine.step, same]
  cases machine.state with
  | running =>
      have like := hides.runInstruction machine
      exact Report.synced_veiled like (settled like)
  | awaitingKey register held =>
      have like := hides.pollKey machine register held
      exact Report.synced_veiled like (settled like)
  | faulted cause => simp only [Report.veiled, hides.again]

theorem reset (timed : ∀ timers, veil.timers timers = timers) (now : Time) :
    ((machine.veiled veil).reset now).veiled veil = (machine.reset now).veiled veil := by
  have again := hides.again machine
  simp only [Machine.veiled, Machine.mk.injEq] at again
  simp [Machine.reset, Machine.clearMemory, Machine.veiled, Screen.clear, timed, again]

/-- Only a reset and a step ask for the moment. -/
theorem perform_of_step {action : Action}
    (reset : ((machine.veiled veil).reset later).veiled veil = (machine.reset now).veiled veil)
    (stepped : action = .step →
      ((machine.veiled veil).step later).veiled veil = (machine.step now).veiled veil) :
    ((machine.veiled veil).perform later action).veiled veil =
      (machine.perform now action).veiled veil := by
  have written : ∀ memory pc keypad,
      (({ machine with memory, pc, keypad } : Machine).veiled veil).veiled veil =
        ({ machine with memory, pc, keypad } : Machine).veiled veil := by
    intro memory pc keypad
    exact hides.again _
  cases action with
  | step => exact Report.map_veiled _ (stepped rfl)
  | execute instruction pc => exact Report.map_veiled _ (hides.execute machine instruction pc)
  | reset => exact congrArg (Machine.quietly · .done) reset
  | loadProgram program =>
      have same : (machine.veiled veil).memory = machine.memory := rfl
      simp only [Machine.perform, Machine.loadProgram, same]
      split
      · simp only [Report.veiled, Report.map, Report.mk.injEq, and_true]
        exact written _ machine.pc machine.keypad
      · simp only [Report.veiled, Report.map, hides.again]
  | fetch =>
      exact congrArg (Machine.quietly · (.instruction (.decode machine.currentWord)))
        (written machine.memory machine.advance.pc machine.keypad)
  | clearDrawFlag =>
      -- The one action of the host that reaches behind the veil.
      have again := hides.again machine
      simp only [Machine.veiled, Machine.mk.injEq] at again
      simp [Machine.perform, Machine.quietly, Machine.clearDrawFlag, Report.veiled, Machine.veiled,
        hides.clean, again]
  | loadGlyphs => exact congrArg (Machine.quietly · .done) (written _ machine.pc machine.keypad)
  | writeMemory => exact congrArg (Machine.quietly · .done) (written _ machine.pc machine.keypad)
  | setKey key pressed =>
      exact congrArg (Machine.quietly · .done)
        (written machine.memory machine.pc (machine.keypad.set key pressed))
  | setKeypad keypad =>
      exact congrArg (Machine.quietly · .done) (written machine.memory machine.pc keypad)
  | holdKeys held =>
      exact congrArg (Machine.quietly · .done)
        (written machine.memory machine.pc (machine.keypad.hold held))

theorem perform (timed : ∀ timers, veil.timers timers = timers) (now : Time) (action : Action) :
    ((machine.veiled veil).perform now action).veiled veil =
      (machine.perform now action).veiled veil := by
  apply hides.perform_of_step
  · exact hides.reset machine timed now
  · intro _
    exact hides.step machine timed now

omit machine in
/-- Machines that look the same behind a veil give the same answers and go on looking the same. -/
theorem replies_eq {first second : Machine} (timed : ∀ timers, veil.timers timers = timers)
    (like : first.veiled veil = second.veiled veil) (script : List Event) :
    first.replies script = second.replies script ∧
      (first.play script).veiled veil = (second.play script).veiled veil := by
  induction script generalizing first second with
  | nil => exact ⟨rfl, like⟩
  | cons event script ih =>
      have performed : (first.perform event.now event.action).veiled veil =
          (second.perform event.now event.action).veiled veil := by
        rw [← hides.perform first timed, like, hides.perform second timed]
      simp only [Report.veiled, Report.mk.injEq] at performed
      rcases performed with ⟨machine_eq, result_eq, log_eq⟩
      rcases ih machine_eq with ⟨replies_eq, played⟩
      refine ⟨?_, played⟩
      simp only [Machine.replies, result_eq, log_eq, replies_eq]

end Veil.Hides

end Chip8

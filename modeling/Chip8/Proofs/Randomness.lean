import Chip8.Proofs.Executing
import Chip8.Proofs.Transfers
import Chip8.Proofs.Veils
import Mathlib

/-!
# Random numbers

A random instruction takes one value from the source, and nothing else that a host can have a
machine do takes any or puts any back. So the number of values taken since the machine was switched
on is the number of random instructions that it executed, which the host can count in the answers,
and the next random instruction gets the value of that number, whatever happened in between.

Of a value only the low byte is asked for. Cutting all values to their low bytes is a veil, so
machines whose sources have the same low bytes go on alike.
-/

namespace Chip8

/-- A random instruction was carried out. -/
def Outcome.isRandom : Outcome → Bool
  | .executed (.random _ _) => true
  | _ => false

def tellsRandom : Except Failure Answer → Bool
  | .ok (.outcome outcome) => outcome.isRandom
  | _ => false

/-- The number of random instructions that the host was told of. -/
def randomsTold (replies : List (Except Failure Answer × List LogRecord)) : Nat :=
  replies.countP fun reply => tellsRandom reply.1

namespace Source

/-- The source with all values cut to their low bytes. -/
def lowBytes (source : Source UInt32) : Source UInt32 :=
  { source with values := fun number => (source.values number).toUInt8.toUInt32 }

theorem next_lowBytes (source : Source UInt32) :
    source.lowBytes.next = (source.next.1.toUInt8.toUInt32, source.next.2.lowBytes) := rfl

theorem lowBytes_lowBytes (source : Source UInt32) :
    source.lowBytes.lowBytes = source.lowBytes := by
  simp only [lowBytes, UInt8.toUInt8_toUInt32]

end Source

namespace Machine

variable {machine : Machine} {now : Time}

/-! ## What was taken -/

theorem random_execute_eq_skip (machine : Machine) (instruction : Instruction) (pc : Address) :
    (machine.execute instruction pc).machine.random =
      machine.random.skip instruction.outcome.isRandom.toNat := by
  cases instruction with
  | ret | jump | call | skip | jumpOffset =>
      exact part_execute_of_branches (·.random) (fun _ _ => rfl) trivial
  | _ => rfl

theorem random_step_eq_skip (machine : Machine) (now : Time) :
    (machine.step now).machine.random =
      machine.random.skip (tellsRandom (machine.perform now .step).result).toNat := by
  simp only [perform, Report.map]
  cases machine.stepCase now with
  | executed running free result_eq machine_eq =>
      rw [result_eq, machine_eq]
      exact random_execute_eq_skip machine.advance _ machine.pc
  | blocked fault running blocked result_eq machine_eq
  | waited register held waiting quiet result_eq machine_eq
  | taken register held key waiting pressed result_eq machine_eq
  | halted cause halted result_eq machine_eq =>
      rw [result_eq, machine_eq]
      rfl

theorem random_perform_eq_skip (machine : Machine) (now : Time) (action : Action) :
    (machine.perform now action).machine.random =
      machine.random.skip (tellsRandom (machine.perform now action).result).toNat := by
  cases action with
  | step => exact random_step_eq_skip machine now
  | execute instruction pc =>
      simp only [perform, Report.map, result_execute]
      cases blocked : machine.obstacle pc instruction with
      | none => exact random_execute_eq_skip machine instruction pc
      | some failure =>
          rw [machine_execute_of_obstacle blocked]
          rfl
  | loadProgram program =>
      simp only [perform, Report.map, loadProgram]
      split <;> rfl
  | _ => rfl

/-- As many values are taken as random instructions are told of. -/
theorem random_play_eq_skip (machine : Machine) (script : List Event) :
    (machine.play script).random = machine.random.skip (randomsTold (machine.replies script)) := by
  induction script generalizing machine with
  | nil => rfl
  | cons event script ih =>
      have one : ∀ told : Bool, (if told = true then 1 else 0) = told.toNat := by
        intro told
        cases told <;> rfl
      simp only [play, replies, randomsTold, List.countP_cons, one]
      rw [ih, random_perform_eq_skip, Source.skip_skip, Nat.add_comm]
      rfl

theorem gets_perform_of_random {action : Action} {x mask : UInt8}
    (executes : machine.Executes action (.random x mask)) (now : Time) :
    machine.registers.Gets (machine.perform now action).machine.registers x
      (mask &&& (machine.random.values machine.random.taken).toUInt8) := by
  rcases exists_perform_eq_of_executes executes (fun _ => rfl) now with ⟨_, _, _, performed⟩
  rw [performed]
  exact machine.registers.gets_set x _

end Machine

/-! ## What is asked for -/

namespace Veil

/-- The veil that cuts the random numbers to their low bytes. -/
def lowBytes : Veil where
  index := id
  screen := id
  timers := id
  random := Source.lowBytes

theorem lowBytes_again (report : Report Outcome) :
    (report.veiled lowBytes).veiled lowBytes = report.veiled lowBytes := by
  simp only [Report.veiled, Machine.veiled, lowBytes, Source.lowBytes_lowBytes, id_eq]

theorem hides_lowBytes : lowBytes.Hides where
  again machine := by
    simp only [Machine.veiled, lowBytes, Source.lowBytes_lowBytes, id_eq]
  clean screen := rfl
  execute machine instruction pc := by
    have branching := lowBytes.execute_of_branches machine instruction pc
    cases instruction with
    | random x mask =>
        simp only [Machine.execute, Machine.veiled, lowBytes, Source.next_lowBytes,
          UInt8.toUInt8_toUInt32, Report.veiled, Machine.done, Machine.setRegister,
          Source.lowBytes_lowBytes, id_eq]
    | ret | jump | call | skip | jumpOffset => rw [branching trivial, lowBytes_again]
    | _ =>
        rw [← lowBytes_again (machine.execute _ pc)]
        rfl

end Veil

namespace Machine

theorem eq_of_veiled_lowBytes_eq {first second : Machine}
    (like : first.veiled .lowBytes = second.veiled .lowBytes) :
    first = { second with random := first.random } := by
  cases first
  cases second
  simp only [veiled, Veil.lowBytes, Machine.mk.injEq, id_eq, and_true] at like ⊢
  tauto

/-- Machines that differ in their sources only, and there not in the low bytes, give the same answers
and go on to differ in nothing else. -/
theorem replies_eq_of_lowBytes_eq {first second : Machine}
    (like : first.veiled .lowBytes = second.veiled .lowBytes) (script : List Event) :
    first.replies script = second.replies script ∧
      first.play script = { second.play script with random := (first.play script).random } := by
  rcases Veil.hides_lowBytes.replies_eq (fun _ => rfl) like script with ⟨replies_eq, played⟩
  exact ⟨replies_eq, eq_of_veiled_lowBytes_eq played⟩

/-- From the moment a machine is switched on, the random instruction after `executed` others gets
the low byte of the value of that number, and only random instructions take values. Machines whose
values have the same low bytes give the same answers and differ in nothing but the values. -/
theorem randoms_in_order (config : Config) (values : Nat → UInt32) (start : Time)
    (script : List Event) :
    let fresh := Machine.new config (.ofStream values) start
    let machine := fresh.play script
    let executed := randomsTold (fresh.replies script)
    machine.random = ⟨values, executed⟩ ∧
      (∀ now action x mask,
        let report := machine.perform now action
        (report.result = .ok (.outcome (.executed (.random x mask))) ↔
            machine.Executes action (.random x mask)) ∧
          (machine.Executes action (.random x mask) →
            machine.registers.Gets report.machine.registers x
              (mask &&& (values executed).toUInt8))) ∧
      ∀ other : Nat → UInt32,
        (∀ number, (other number).toUInt8 = (values number).toUInt8) →
          let twin := Machine.new config (.ofStream other) start
          twin.replies script = fresh.replies script ∧
            twin.play script = { machine with random := ⟨other, executed⟩ } := by
  intro fresh machine executed
  have random_eq : machine.random = ⟨values, executed⟩ :=
    (random_play_eq_skip fresh script).trans (Source.skip_ofStream values executed)
  refine ⟨random_eq, ?_, ?_⟩
  · intro now action x mask report
    refine ⟨result_perform_eq_executed_iff rfl (fun _ => rfl) now action, ?_⟩
    intro executes
    have drawn := gets_perform_of_random executes now
    rw [random_eq] at drawn
    exact drawn
  · intro other same twin
    have like : twin.veiled .lowBytes = fresh.veiled .lowBytes := by
      simp only [twin, fresh, veiled, Veil.lowBytes, Source.lowBytes, new, Source.ofStream, same]
    rcases replies_eq_of_lowBytes_eq like script with ⟨replies_eq, played⟩
    have other_random : (twin.play script).random = ⟨other, executed⟩ := by
      rw [random_play_eq_skip, replies_eq]
      exact Source.skip_ofStream other executed
    rw [other_random] at played
    exact ⟨replies_eq, played⟩

/-- The low bytes of the values are 5, 6, 7 and so on. -/
def counting (above : UInt32) (number : Nat) : UInt32 :=
  UInt32.ofNat (256 * above.toNat + number + 5)

/-- Two random numbers are drawn, with a reset, a fault and a wait for a key in between. The third
is then the same for sources that differ in all their values. -/
theorem third_random_is_seven :
    let script : List Event :=
      [⟨.zero, .execute (.random 0 0xFF) 0⟩, ⟨.zero, .reset⟩, ⟨.zero, .execute .ret 0⟩,
        ⟨.zero, .execute (.random 1 0x0C) 0⟩, ⟨.zero, .execute (.awaitKey 2) 0⟩, ⟨.zero, .step⟩]
    let fresh := Machine.new .standard (.ofStream (counting 0)) .zero
    let twin := Machine.new .standard (.ofStream (counting 9)) .zero
    let draw := Action.execute (.random 3 0x0F) 0
    (fresh.play script).random.taken = 2 ∧ (fresh.play script).registers.bytes.get 1 = 4 ∧
      ((fresh.play script).perform .zero draw).machine.registers.bytes.get 3 = 7 ∧
      twin.replies script = fresh.replies script ∧
      (twin.play script).registers.bytes.get 1 = 4 := by
  intro script fresh twin draw
  have same : ∀ number, (counting 9 number).toUInt8 = (counting 0 number).toUInt8 := by
    intro number
    rw [← UInt8.toNat_inj]
    simp [counting]
  have ordered := randoms_in_order .standard (counting 0) .zero script
  rcases ordered with ⟨random_eq, drawn, agree⟩
  rcases agree (counting 9) same with ⟨replies_eq, played⟩
  have executes : (fresh.play script).Executes draw (.random 3 0x0F) := .execute _ 0
  refine ⟨?_, ?_, ?_, replies_eq, ?_⟩
  · rw [random_eq]
    rfl
  · decide
  · have three : Nibble.low 3 = 3 := rfl
    rw [← three, ((drawn .zero draw 3 0x0F).2 executes).named]
    decide
  · rw [played]
    decide

end Machine

end Chip8

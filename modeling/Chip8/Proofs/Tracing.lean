import Chip8.Proofs.Assembler
import Chip8.Proofs.ExecutionState
import Chip8.Proofs.Meanings
import Chip8.Proofs.Script
import Mathlib

/-!
# What the trace tells

A step of a running machine opens its records with the place and the text of the instruction that it
is about to execute, whether or not this goes well, and nothing else that a host can have a machine
do makes a record of that severity. As neither texts nor meanings coincide, the trace of a run tells
which word was fetched at which place each time.
-/

namespace Chip8

/-- The trace among the records that were made along a script. -/
def traces (replies : List (Except Failure Answer × List LogRecord)) : List LogRecord :=
  (replies.flatMap Prod.snd).filter (·.severity = .trace)

namespace Machine

/-- The place and the word that an action fetches if it is a step of a running machine. -/
def fetched (machine : Machine) : Action → List (Address × UInt16)
  | .step => if machine.state = .running then [(machine.pc, machine.currentWord)] else []
  | _ => []

/-- The places and words that the steps of a script fetch. -/
def fetches (machine : Machine) : List Event → List (Address × UInt16)
  | [] => []
  | event :: script =>
    machine.fetched event.action ++ (machine.perform event.now event.action).machine.fetches script

/-- The record that a word fetched at a place leaves in the trace. -/
def traceOf (fetch : Address × UInt16) : LogRecord :=
  traceRecord fetch.1 (.decode fetch.2)

variable {machine : Machine} {now : Time}

/-! ## One record -/

@[simp]
theorem traceRecord_inj {pc other : Address} {instruction another : Instruction} :
    traceRecord pc instruction = traceRecord other another ↔
      pc = other ∧ instruction = another := by
  have colon : ∀ address : Address, ':' ∉ (Instruction.addressText address).toList := by
    intro address
    exact Hexadecimal.not_mem_padded (by decide)
  have text : ∀ (address : Address) (shown : Instruction),
      (traceRecord address shown).text.toList =
        (Instruction.addressText address).toList ++ ':' :: ' ' :: shown.mnemonic.toList := by
    intro address shown
    simp [traceRecord]
  constructor
  · intro same
    have texts := congrArg (fun record : LogRecord => record.text.toList) same
    simp only [text] at texts
    rcases (append_cons_inj (colon pc) (colon other)).mp texts with ⟨places, rest⟩
    rw [String.toList_inj, Instruction.addressText, Instruction.addressText,
      Hexadecimal.padded_inj, UInt16.toNat_inj] at places
    refine ⟨places, Instruction.mnemonic_injective ?_⟩
    rw [← String.toList_inj]
    exact (List.cons.inj rest).2
  · rintro ⟨rfl, rfl⟩
    rfl

theorem traceOf_injective : Function.Injective traceOf := by
  rintro ⟨pc, word⟩ ⟨other, another⟩ same
  rcases traceRecord_inj.mp same with ⟨places, meanings⟩
  exact Prod.ext places (Function.LeftInverse.injective Instruction.encode_decode meanings)

/-! ## One action -/

theorem severity_execute (machine : Machine) (instruction : Instruction) (pc : Address) :
    ∀ record ∈ (machine.execute instruction pc).log, record.severity ≠ .trace := by
  cases instruction with
  | ret | call | skip | jumpOffset =>
      simp only [execute]
      split <;> simp [done]
  | draw | awaitKey | unknown => simp [execute, Screen.paintRecord]
  | _ => simp [execute, done]

theorem severity_pollKey (machine : Machine) (register : UInt8) (held : UInt16) :
    ∀ record ∈ (machine.pollKey register held).log, record.severity ≠ .trace := by
  simp only [pollKey]
  split <;> simp

theorem log_runInstruction (machine : Machine) :
    ∃ later, machine.runInstruction.log =
        traceRecord machine.pc (.decode machine.currentWord) :: later ∧
      ∀ record ∈ later, record.severity ≠ .trace := by
  have quiet := severity_execute machine.advance (.decode machine.currentWord) machine.pc
  simp only [runInstruction, fetch]
  split
  · refine ⟨_, rfl, ?_⟩
    intro record mem
    rcases List.mem_append.mp mem with executed | last
    · exact quiet record executed
    · rw [List.mem_singleton.mp last]
      simp
  · exact ⟨_, rfl, quiet⟩

theorem log_synced {α : Type} (report : Report α) (now : Time) :
    (report.synced now).log = report.log := by
  simp only [Report.synced]
  split
  · rfl
  · split <;> rfl

theorem log_step_of_running (now : Time) (running : machine.state = .running) :
    ∃ later, (machine.step now).log =
        traceRecord machine.pc (.decode machine.currentWord) :: later ∧
      ∀ record ∈ later, record.severity ≠ .trace := by
  rw [step, running]
  simp only [log_synced]
  exact log_runInstruction machine

theorem log_step_of_not_running (resting : machine.state ≠ .running) :
    ∀ record ∈ (machine.step now).log, record.severity ≠ .trace := by
  cases state : machine.state with
  | running => exact absurd state resting
  | awaitingKey register held =>
      rw [step, state]
      simp only [log_synced]
      exact severity_pollKey machine register held
  | faulted cause => simp [step, state]

/-- An action leaves in the trace what it fetches, and nothing else. -/
theorem trace_perform (machine : Machine) (now : Time) (action : Action) :
    (machine.perform now action).log.filter (·.severity = .trace) =
      (machine.fetched action).map traceOf := by
  have none : ∀ log : List LogRecord, (∀ record ∈ log, record.severity ≠ .trace) →
      log.filter (·.severity = .trace) = [] := by
    intro log quiet
    simpa [List.filter_eq_nil_iff] using quiet
  cases action with
  | step =>
      by_cases running : machine.state = .running
      · rcases log_step_of_running now running with ⟨later, log, quiet⟩
        simp only [perform, Report.map, log, fetched, if_pos running]
        rw [List.filter_cons_of_pos (by simp [traceRecord]), none later quiet]
        rfl
      · simp only [perform, Report.map, fetched, if_neg running]
        exact none _ (log_step_of_not_running running)
  | execute instruction pc => exact none _ (severity_execute machine instruction pc)
  | loadProgram program =>
      apply none
      simp only [perform, Report.map, loadProgram]
      split <;> simp [Memory.loadedRecord]
  | _ => rfl

/-! ## A run -/

theorem traces_replies (machine : Machine) (script : List Event) :
    traces (machine.replies script) = (machine.fetches script).map traceOf := by
  induction script generalizing machine with
  | nil => rfl
  | cons event script ih =>
      have here := trace_perform machine event.now event.action
      have later := ih (machine.perform event.now event.action).machine
      simp only [traces] at later
      simp only [traces, replies, fetches, List.flatMap_cons, List.filter_append, List.map_append]
      rw [here, later]

/-- No two instructions have the same text. A step of a running machine opens its records with the
place and the text of what it fetched, and nothing else is traced; so two runs have the same trace
exactly if they fetched the same words at the same places. -/
theorem trace_tells_fetches :
    Function.Injective Instruction.mnemonic ∧
      (∀ (machine : Machine) (now : Time), machine.state = .running →
        ∃ later, (machine.step now).log =
            traceRecord machine.pc (.decode machine.currentWord) :: later ∧
          ∀ record ∈ later, record.severity ≠ .trace) ∧
      (∀ (machine : Machine) (script : List Event),
        traces (machine.replies script) = (machine.fetches script).map traceOf) ∧
      ∀ (first second : Machine) (script other : List Event),
        traces (first.replies script) = traces (second.replies other) ↔
          first.fetches script = second.fetches other := by
  refine ⟨Instruction.mnemonic_injective, ?_, traces_replies, ?_⟩
  · intro machine now running
    exact log_step_of_running now running
  · intro first second script other
    rw [traces_replies, traces_replies]
    exact traceOf_injective.list_map.eq_iff

/-- A return that nothing called is traced though it fails, and the step refused after it is not. -/
theorem stray_return_is_traced :
    traces (stray.replies [⟨.zero, .step⟩, ⟨.zero, .step⟩]) = [⟨.trace, "200: RET"⟩] ∧
      ∃ later, (stray.step .zero).log = ⟨.trace, "200: RET"⟩ :: later := by
  have memory_eq : stray.memory = Memory.empty.write 512 [0x00, 0xEE] := rfl
  have word_eq : stray.currentWord = 0x00EE := by
    rw [← UInt16.toNat_inj]
    exact toNat_currentWord_of_write memory_eq rfl
  have record : traceRecord stray.pc (.decode stray.currentWord) = ⟨.trace, "200: RET"⟩ := by
    rw [word_eq]
    decide
  have blocked : stray.obstacle stray.pc (.decode stray.currentWord) =
      some (.fault (.stackUnderflow 0x200)) := by
    rw [word_eq]
    rfl
  have stepped := (step_of_obstacle_eq_fault .zero rfl blocked).2
  have once : stray.fetches [⟨.zero, .step⟩, ⟨.zero, .step⟩] =
      [(stray.pc, stray.currentWord)] := by
    have running : stray.state = .running := rfl
    simp [fetches, fetched, perform, Report.map, stepped, running]
  rcases trace_tells_fetches with ⟨-, opens, told, -⟩
  rcases opens stray .zero rfl with ⟨later, log, -⟩
  refine ⟨?_, later, ?_⟩
  · rw [told, once, List.map_singleton, traceOf, record]
  · rw [log, record]

end Machine

end Chip8

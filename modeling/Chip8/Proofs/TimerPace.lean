import Chip8.Proofs.Execution
import Chip8.Proofs.Fetching
import Chip8.Proofs.WellFormed
import Mathlib

/-!
# How a timer keeps pace with the clock

A step executes its instruction before it brings the timers up to date, so the time that passed
between the last update and the step is charged to a count that the step itself has just set.
`Timers.lag` is that time. What bringing the timers up to date charges, in whole periods, it takes
off the lag, so along a run

    period * (periods charged) + lag ≤ (lag at first) + (time since)

is an invariant. Hence a lag of at most one period costs the count at most the one period that
a boundary right after the setting may cost, and a longer lag costs it more.
-/

namespace Chip8

/-! ## Lag -/

namespace Timers

variable (timers : Timers) (now : Time)

/-- The time that has passed since the timers were last brought up to date, as far as a number
of periods with sixty-four bits can tell. -/
def lag : Nat :=
  (now.nanoseconds - timers.lastUpdated.nanoseconds) % (2 ^ 64 * 16666666)

theorem toNat_elapsedPeriods_eq_lag_div :
    (timers.elapsedPeriods now).toNat = timers.lag now / 16666666 := by
  rw [toNat_elapsedPeriods, lag]
  omega

variable {now later : Time}

theorem lag_later_le (ordered : now.nanoseconds ≤ later.nanoseconds) :
    timers.lag later ≤ timers.lag now + (later.nanoseconds - now.nanoseconds) := by
  simp only [lag]
  omega

variable {timers}

/-- A lag that is not nothing grows as fast as the clock, short of its bound. -/
theorem lag_later_eq (ordered : now.nanoseconds ≤ later.nanoseconds)
    (pending : 0 < timers.lag now)
    (small : timers.lag now + (later.nanoseconds - now.nanoseconds) < 2 ^ 64 * 16666666) :
    timers.lag later = timers.lag now + (later.nanoseconds - now.nanoseconds) := by
  simp only [lag] at pending small ⊢
  omega

/-- Bringing the timers up to date leaves the rest of a period. -/
theorem lag_settled (driven : timers.mode = .wallClock)
    (small : timers.lag now < 2 ^ 32 * 16666666) :
    (timers.settled now).lag now = timers.lag now % 16666666 := by
  rw [lag, lastUpdated_settled driven, nanoseconds_moved, toNat_elapsedPeriods_eq_lag_div]
  simp only [lag] at small ⊢
  omega

/-- Timers that agree in everything that one of the two counts depends on. -/
structure Agrees (channel : Channel) (timers other : Timers) : Prop where
  mode : other.mode = timers.mode
  lastUpdated : other.lastUpdated = timers.lastUpdated
  countdown : other.countdown channel = timers.countdown channel

theorem Agrees.refl (channel : Channel) (timers : Timers) : timers.Agrees channel timers :=
  ⟨rfl, rfl, rfl⟩

theorem Agrees.periods_eq {channel : Channel} {other : Timers}
    (agrees : timers.Agrees channel other) (now : Time) :
    other.periods now = timers.periods now := by
  simp only [Timers.periods, elapsedPeriods, agrees.mode, agrees.lastUpdated]

theorem Agrees.settled {channel : Channel} {other : Timers} (agrees : timers.Agrees channel other)
    (now : Time) : (timers.settled now).Agrees channel (other.settled now) := by
  refine ⟨?_, ?_, ?_⟩
  · simp [agrees.mode]
  · simp only [Timers.settled, agrees.mode, moved, elapsedPeriods, agrees.lastUpdated]
    cases timers.mode with
    | perStep => exact agrees.lastUpdated
    | wallClock => rfl
  · simp [agrees.countdown, agrees.periods_eq now]

end Timers

/-! ## What an action does to a timer -/

namespace Machine

variable {machine : Machine} {channel : Channel} {x : UInt8} {now : Time}

/-- Only the instruction that sets a timer sets it. -/
theorem agrees_execute {instruction : Instruction} {pc : Address}
    (other : ∀ x, instruction ≠ .setting channel x) :
    machine.timers.Agrees channel (machine.execute instruction pc).machine.timers := by
  have kept := Timers.Agrees.refl channel machine.timers
  cases instruction with
  | ret | jump | call | skip | jumpOffset =>
      rw [part_execute_of_branches timers fun _ _ => rfl]
      · exact kept
      · trivial
  | setDelay x =>
      cases channel with
      | delay => exact absurd rfl (other x)
      | sound => exact ⟨rfl, rfl, rfl⟩
  | setSound x =>
      cases channel with
      | delay => exact ⟨rfl, rfl, rfl⟩
      | sound => exact absurd rfl (other x)
  | _ => exact kept

/-- A step sets a timer only by the instruction that is due, and then charges it at once. -/
theorem step_of_setting
    (sets : (machine.step now).result = .ok (.executed (.setting channel x))) :
    machine.state = .running ∧
      (machine.step now).machine =
        { machine.advance with
          timers := (machine.timers.set channel (machine.registers.get x)).settled now } := by
  cases machine.stepCase now with
  | executed running free result_eq machine_eq =>
      rw [result_eq] at sets
      have due := Instruction.eq_of_outcome_eq_executed (Except.ok.inj sets)
      refine ⟨running, ?_⟩
      rw [machine_eq, due]
      cases channel <;> rfl
  | blocked fault running blocked result_eq machine_eq =>
      rw [result_eq] at sets
      cases sets
  | waited register held waiting quiet result_eq machine_eq =>
      rw [result_eq] at sets
      cases sets
  | taken register held key waiting pressed result_eq machine_eq =>
      rw [result_eq] at sets
      cases channel <;> cases sets
  | halted cause halted result_eq machine_eq =>
      rw [result_eq] at sets
      cases sets

/-- The event neither resets the machine nor sets the timer. -/
def Spares (machine : Machine) (channel : Channel) (event : Event) : Prop :=
  event.action ≠ .reset ∧
    ∀ x, (machine.perform event.now event.action).result ≠
      .ok (.outcome (.executed (.setting channel x)))

/-- A step that does not set a timer leaves it or brings it up to date. -/
theorem agrees_step
    (spares : ∀ x, (machine.step now).result ≠ .ok (.executed (.setting channel x))) :
    machine.timers.Agrees channel (machine.step now).machine.timers ∨
      (machine.timers.settled now).Agrees channel (machine.step now).machine.timers := by
  have kept := Timers.Agrees.refl channel machine.timers
  have settled := kept.settled now
  cases machine.stepCase now with
  | executed running free result_eq machine_eq =>
      have other : ∀ x, Instruction.decode machine.currentWord ≠ .setting channel x := by
        intro x due
        apply spares x
        rw [result_eq, due]
        cases channel <;> rfl
      rw [machine_eq]
      exact Or.inr ((@agrees_execute machine.advance _ _ machine.pc other).settled now)
  | blocked fault running blocked result_eq machine_eq =>
      rw [machine_eq]
      exact Or.inl kept
  | waited register held waiting quiet result_eq machine_eq =>
      rw [machine_eq]
      exact Or.inr settled
  | taken register held key waiting pressed result_eq machine_eq =>
      rw [machine_eq]
      exact Or.inr settled
  | halted cause halted result_eq machine_eq =>
      rw [machine_eq]
      exact Or.inl kept

theorem agrees_perform {event : Event} (spares : machine.Spares channel event) :
    machine.timers.Agrees channel (machine.perform event.now event.action).machine.timers ∨
      (machine.timers.settled event.now).Agrees channel
        (machine.perform event.now event.action).machine.timers := by
  rcases event with ⟨now, action⟩
  have kept := Timers.Agrees.refl channel machine.timers
  cases action with
  | loadProgram program =>
      left
      simp only [perform, Report.map, loadProgram]
      split <;> exact kept
  | reset => exact absurd rfl spares.1
  | step =>
      apply agrees_step
      intro x sets
      apply spares.2 x
      simp [perform, Report.map, sets, Except.map]
  | execute instruction pc =>
      left
      apply agrees_execute
      rintro x rfl
      apply spares.2 x
      cases channel <;> rfl
  | _ => exact Or.inl kept

/-- The script neither resets the machine nor sets the timer. -/
def SparedBy (channel : Channel) : Machine → List Event → Prop
  | _, [] => True
  | machine, event :: script =>
    machine.Spares channel event ∧
      SparedBy channel (machine.perform event.now event.action).machine script

end Machine

/-! ## The order of time -/

/-- No event of the script lies before the one that precedes it, nor the first before `start`. -/
def InOrder (start : Time) : List Event → Prop
  | [] => True
  | event :: script => start.nanoseconds ≤ event.now.nanoseconds ∧ InOrder event.now script

/-- The moment of the last event. -/
def finish (start : Time) : List Event → Time
  | [] => start
  | event :: script => finish event.now script

theorem InOrder.le_finish {start : Time} {script : List Event} (ordered : InOrder start script) :
    start.nanoseconds ≤ (finish start script).nanoseconds := by
  induction script generalizing start with
  | nil => exact le_rfl
  | cons event script ih => exact ordered.1.trans (ih ordered.2)

/-! ## Along a run -/

namespace Timers

variable {timers other : Timers} {channel : Channel} {count budget : Nat} {now later : Time}

/-- So many periods may have been charged to a count, and the lag is to be charged yet; together
they keep to a budget of time. -/
structure InBudget (timers : Timers) (channel : Channel) (count budget : Nat) (now : Time) :
    Prop where
  mode : timers.mode = .wallClock
  charged : ∃ periods, count ≤ (timers.countdown channel).count.toNat + periods ∧
    16666666 * periods + timers.lag now ≤ budget

theorem InBudget.wait (inBudget : timers.InBudget channel count budget now)
    (ordered : now.nanoseconds ≤ later.nanoseconds) :
    timers.InBudget channel count (budget + (later.nanoseconds - now.nanoseconds)) later := by
  rcases inBudget.charged with ⟨periods, count_le, spent⟩
  have growth := lag_later_le timers ordered
  exact ⟨inBudget.mode, periods, count_le, by omega⟩

/-- What is charged to the count is taken off the lag. -/
theorem InBudget.settled (inBudget : timers.InBudget channel count budget now)
    (small : budget < 2 ^ 32 * 16666666) :
    (timers.settled now).InBudget channel count budget now := by
  rcases inBudget.charged with ⟨periods, count_le, spent⟩
  have driven := inBudget.mode
  have taken := toNat_elapsedPeriods_eq_lag_div timers now
  have rest : (timers.settled now).lag now = timers.lag now % 16666666 :=
    lag_settled driven (by omega)
  refine ⟨by rw [mode_settled, driven], periods + timers.lag now / 16666666, ?_, ?_⟩
  · simp only [countdown_settled, Countdown.toNat_lower, Timers.periods, driven, taken]
    omega
  · rw [rest]
    omega

theorem InBudget.agrees (inBudget : timers.InBudget channel count budget now)
    (agrees : timers.Agrees channel other) : other.InBudget channel count budget now := by
  rcases inBudget.charged with ⟨periods, count_le, spent⟩
  refine ⟨agrees.mode.trans inBudget.mode, periods, ?_, ?_⟩
  · rw [agrees.countdown]
    exact count_le
  · rw [lag, agrees.lastUpdated]
    exact spent

end Timers

namespace Machine

variable {machine : Machine} {channel : Channel} {x : UInt8} {start : Time}

/-- Every event spends at most the time that has passed since the one before. -/
theorem play_inBudget {script : List Event} {count budget : Nat}
    (inBudget : machine.timers.InBudget channel count budget start)
    (ordered : InOrder start script) (spared : machine.SparedBy channel script)
    (small : budget + ((finish start script).nanoseconds - start.nanoseconds) <
      2 ^ 32 * 16666666) :
    (machine.play script).timers.InBudget channel count
      (budget + ((finish start script).nanoseconds - start.nanoseconds))
      (finish start script) := by
  induction script generalizing machine start budget with
  | nil => simpa [play, finish] using inBudget
  | cons event script ih =>
      have after := ordered.2.le_finish
      have sooner := ordered.1
      have total : budget + (event.now.nanoseconds - start.nanoseconds) +
          ((finish event.now script).nanoseconds - event.now.nanoseconds) =
            budget + ((finish event.now script).nanoseconds - start.nanoseconds) := by
        omega
      -- The budget grows while the event is awaited; the event itself does not touch it.
      have awaited := inBudget.wait sooner
      simp only [finish] at small ⊢
      rw [← total] at small ⊢
      apply ih _ ordered.2 spared.2 small
      rcases agrees_perform spared.1 with left | settled
      · exact awaited.agrees left
      · exact (awaited.settled (by omega)).agrees settled

/-- From `start` on, a count that was set then is never further down than the whole periods since,
and one more for a boundary that was crossed right after. -/
def KeepsPace (machine : Machine) (channel : Channel) (count : Nat) (start : Time) : Prop :=
  ∀ script, InOrder start script → machine.SparedBy channel script →
    (∀ event ∈ script.getLast?, event.action = .step) →
    count ≤ ((machine.play script).timers.countdown channel).count.toNat +
      (((finish start script).nanoseconds - start.nanoseconds) / 16666666 + 1)

/-! ## A timer that is set late -/

theorem count_of_setting (driven : machine.timers.mode = .wallClock)
    (sets : (machine.step start).result = .ok (.executed (.setting channel x))) :
    ((machine.step start).machine.timers.countdown channel).count.toNat =
      (machine.registers.get x).toNat - machine.timers.lag start / 16666666 := by
  rw [(step_of_setting sets).2]
  simp [Timers.periods, driven, Timers.toNat_elapsedPeriods_eq_lag_div, Timers.lag]

theorem mode_of_setting (driven : machine.timers.mode = .wallClock)
    (sets : (machine.step start).result = .ok (.executed (.setting channel x))) :
    (machine.step start).machine.timers.mode = .wallClock := by
  rw [(step_of_setting sets).2]
  simp [driven]

theorem lag_of_setting (driven : machine.timers.mode = .wallClock)
    (sets : (machine.step start).result = .ok (.executed (.setting channel x)))
    (small : machine.timers.lag start < 2 ^ 32 * 16666666) :
    (machine.step start).machine.timers.lag start = machine.timers.lag start % 16666666 := by
  have same : (machine.timers.set channel (machine.registers.get x)).lag start =
      machine.timers.lag start := by
    simp [Timers.lag]
  rw [(step_of_setting sets).2]
  simp only
  rw [Timers.lag_settled (by simp [driven]) (by rw [same]; exact small), same]

/-- A count that was set with a lag below two periods is charged at most what the clock adds to
the lag. -/
theorem count_le_of_spared {script : List Event} (driven : machine.timers.mode = .wallClock)
    (sets : (machine.step start).result = .ok (.executed (.setting channel x)))
    (small : machine.timers.lag start < 2 * 16666666) (ordered : InOrder start script)
    (spared : (machine.step start).machine.SparedBy channel script) :
    (machine.registers.get x).toNat ≤
      (((machine.step start).machine.play script).timers.countdown channel).count.toNat +
        (machine.timers.lag start +
          ((finish start script).nanoseconds - start.nanoseconds)) / 16666666 := by
  have count_eq := count_of_setting driven sets
  have lag_eq := lag_of_setting driven sets (by omega)
  have byte_lt := (machine.registers.get x).toNat_lt
  have inBudget : (machine.step start).machine.timers.InBudget channel
      ((machine.registers.get x).toNat - machine.timers.lag start / 16666666)
      (machine.timers.lag start % 16666666) start :=
    ⟨mode_of_setting driven sets, 0, by omega, by omega⟩
  -- After so long a time even a count of 255 may have run out.
  by_cases long : 2 ^ 8 * 16666666 ≤ (finish start script).nanoseconds - start.nanoseconds
  · omega
  · rcases (play_inBudget inBudget ordered spared (by omega)).charged with
      ⟨periods, count_le, spent⟩
    omega

/-- The host clears memory, and the machine takes a step. -/
def idling (now later : Time) : List Event :=
  [⟨now, .writeMemory 0 (List.replicate 4096 0)⟩, ⟨later, .step⟩]

theorem currentWord_of_cleared :
    ({ machine with memory := machine.memory.write 0 (List.replicate 4096 0) } :
      Machine).currentWord = 0 := by
  have clear : ∀ address : Address,
      (machine.memory.write 0 (List.replicate 4096 0)).get address = 0 := by
    intro address
    rw [Memory.get_write, List.getElem?_replicate, if_pos (by omega), if_pos (by omega)]
    rfl
  rw [currentWord, Memory.word, clear, clear]
  rfl

/-- A running machine can always be brought to charge its timers without setting them. -/
theorem play_idling {now later : Time} (running : machine.state = .running) :
    machine.SparedBy channel (idling now later) ∧
      (machine.play (idling now later)).timers = machine.timers.settled later := by
  let cleared : Machine :=
    { machine with memory := machine.memory.write 0 (List.replicate 4096 0) }
  have due : Instruction.decode cleared.currentWord = .machineCall 0 := by
    rw [currentWord_of_cleared]
    rfl
  have free : cleared.obstacle cleared.pc (.decode cleared.currentWord) = none := by
    rw [due]
    rfl
  have stepped := @step_of_obstacle_eq_none cleared later running free
  rw [due] at stepped
  refine ⟨⟨⟨nofun, ?_⟩, ⟨nofun, ?_⟩, trivial⟩, ?_⟩
  · intro x sets
    cases sets
  · intro x sets
    change (Except.map Answer.outcome (cleared.step later).result) = _ at sets
    rw [stepped.1] at sets
    cases channel <;> cases sets
  · change (cleared.step later).machine.timers = _
    rw [stepped.2]
    rfl

/-- The charge of a lag between one and two periods grows with the clock. -/
theorem count_of_idling {later : Time} (driven : machine.timers.mode = .wallClock)
    (sets : (machine.step start).result = .ok (.executed (.setting channel x)))
    (overdue : 16666666 < machine.timers.lag start)
    (below : machine.timers.lag start < 2 * 16666666)
    (ordered : start.nanoseconds ≤ later.nanoseconds)
    (soon : later.nanoseconds - start.nanoseconds ≤ 16666666) :
    (machine.step start).machine.SparedBy channel (idling start later) ∧
      (((machine.step start).machine.play (idling start later)).timers.countdown
          channel).count.toNat =
        (machine.registers.get x).toNat -
          (machine.timers.lag start + (later.nanoseconds - start.nanoseconds)) / 16666666 := by
  have count_eq := count_of_setting driven sets
  have lag_eq := lag_of_setting driven sets (by omega)
  have running : (machine.step start).machine.state = .running := by
    rw [(step_of_setting sets).2]
    exact (step_of_setting sets).1
  rcases @play_idling _ channel start later running with ⟨spared, settled⟩
  refine ⟨spared, ?_⟩
  have lag_grown := @Timers.lag_later_eq (machine.step start).machine.timers start later ordered
    (by omega) (by omega)
  rw [settled, Timers.countdown_settled, Countdown.toNat_lower, Timers.periods,
    mode_of_setting driven sets]
  simp only [Timers.toNat_elapsedPeriods_eq_lag_div, lag_grown]
  omega

/-- A timer that a step sets keeps pace with the clock exactly if at most one period had passed
since the timers were last brought up to date, unless the count is too small to lose two periods
or the clock ends before a second boundary. -/
theorem keepsPace_of_setting_iff (driven : machine.timers.mode = .wallClock)
    (sets : (machine.step start).result = .ok (.executed (.setting channel x))) :
    (machine.step start).machine.KeepsPace channel (machine.registers.get x).toNat start ↔
      (machine.registers.get x).toNat ≤ 1 ∨
        machine.timers.lag start ≤ 16666666 ∨
        (machine.timers.lag start < 2 * 16666666 ∧
          Time.largest < start.nanoseconds + (2 * 16666666 - machine.timers.lag start)) := by
  constructor
  · intro keepsPace
    by_contra late
    push Not at late
    rcases late with ⟨enough, overdue, reachable⟩
    -- A lag of two periods shows at once; a shorter one shows at the next boundary.
    have at_once := keepsPace [] trivial trivial (by simp)
    simp only [play, finish, count_of_setting driven sets] at at_once
    have below : machine.timers.lag start < 2 * 16666666 := by omega
    have boundary : ∃ later : Time,
        later.nanoseconds = start.nanoseconds + (2 * 16666666 - machine.timers.lag start) :=
      ⟨⟨_, reachable below⟩, rfl⟩
    rcases boundary with ⟨later, later_eq⟩
    have forward : start.nanoseconds ≤ later.nanoseconds := by omega
    rcases count_of_idling driven sets overdue below forward (by omega) with ⟨spared, charged⟩
    have behind := keepsPace (idling start later) ⟨le_rfl, forward, trivial⟩ spared
      (by rintro event ⟨⟩; rfl)
    have ends : finish start (idling start later) = later := rfl
    rw [charged, ends] at behind
    omega
  · intro condition script ordered spared _
    have end_le := (finish start script).le_largest
    rcases condition with small | soon | ⟨below, ends⟩
    · omega
    · have count_le := count_le_of_spared driven sets (by omega) ordered spared
      omega
    · have count_le := count_le_of_spared driven sets below ordered spared
      have forward := ordered.le_finish
      omega

/-- V0 holds sixty, and the program puts it into the delay timer. -/
def alarmed : Machine :=
  (Machine.new .standard (.constant 0) .zero).play
    [⟨.zero, .loadProgram [0xF0, 0x15]⟩, ⟨.zero, .execute (.setByte 0 60) 0x200⟩]

/-- Ten periods that pass before the timer is set are charged to it. -/
theorem late_setting_outpaces_clock :
    alarmed.Reachable Action.Bounded ∧ alarmed.registers.get 0 = 60 ∧
      ∃ start : Time, start.nanoseconds = 10 * 16666666 ∧
        (alarmed.step start).result = .ok (.executed (.setting .delay 0)) ∧
        ¬(alarmed.step start).machine.KeepsPace .delay 60 start := by
  have reachable : alarmed.Reachable Action.Bounded :=
    ⟨.standard, .constant 0, .zero, _, by simp [Action.Bounded], rfl⟩
  have count_eq : alarmed.registers.get 0 = 60 := by decide
  have memory_eq : alarmed.memory = Memory.empty.write 512 [0xF0, 0x15] := rfl
  have word : alarmed.currentWord = 0xF015 := by
    rw [← UInt16.toNat_inj, toNat_currentWord, memory_eq]
    exact Memory.number_write .empty 512 512 [0xF0, 0x15] (by omega) le_rfl rfl rfl
  have due : Instruction.decode alarmed.currentWord = .setting .delay 0 := by
    rw [word]
    rfl
  have start_le : 10 * 16666666 ≤ Time.largest := by decide
  have sets := (@step_of_obstacle_eq_none alarmed ⟨_, start_le⟩ rfl (by rw [due]; rfl)).1
  rw [due] at sets
  refine ⟨reachable, count_eq, ⟨_, start_le⟩, rfl, sets, ?_⟩
  intro keepsPace
  have condition := (keepsPace_of_setting_iff rfl sets).mp (by rw [count_eq]; exact keepsPace)
  have lag_eq : alarmed.timers.lag ⟨_, start_le⟩ = 10 * 16666666 := rfl
  have sixty : (60 : UInt8).toNat = 60 := rfl
  rw [count_eq, lag_eq, sixty] at condition
  omega

end Machine

end Chip8

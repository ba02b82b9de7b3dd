import Chip8.Clock
import Chip8.Instruction.Basic
import Chip8.Machine.Step
import Mathlib

/-!
# Timers that are brought up to date

Bringing the timers up to date cannot overflow. The moment of the last update moves by a number
of periods that is at most the number that have passed, so it stays below the later of the old
moment and now. `Timers.settled` is what the timers then are, and `Timers.sync_eq` lets all later
proofs forget that the sum was checked.

The delay and the sound timer are told apart by a `Channel`, so that what holds of one is proved
for both at once.
-/

namespace Chip8

namespace Time

@[simp]
theorem nanoseconds_period : period.nanoseconds = 16666666 := rfl

theorem scale_eq_ok {time : Time} {count : UInt32}
    (fits : time.nanoseconds * count.toNat ≤ largest) :
    time.scale count = .ok ⟨time.nanoseconds * count.toNat, fits⟩ := by
  simp [scale, ofNanoseconds, fits]

theorem add_eq_ok {time other : Time} (fits : time.nanoseconds + other.nanoseconds ≤ largest) :
    time.add other = .ok ⟨time.nanoseconds + other.nanoseconds, fits⟩ := by
  simp [add, ofNanoseconds, fits]

theorem nanoseconds_of_add {time span sum : Time} (added : time.add span = .ok sum) :
    sum.nanoseconds = time.nanoseconds + span.nanoseconds := by
  rw [add, ofNanoseconds] at added
  split at added
  · cases added
    rfl
  · cases added

end Time

/-- A clock that is moved on by whole periods shows them all, unless it would end before. -/
theorem Clock.advancePeriods_eq_ok_iff {clock moved : Clock} {count : UInt32} :
    clock.advancePeriods count = .ok moved ↔
      moved.now.nanoseconds = clock.now.nanoseconds + 16666666 * count.toNat := by
  have count_lt := count.toNat_lt
  have span_fits : Time.period.nanoseconds * count.toNat ≤ Time.largest := by
    rw [Time.nanoseconds_period, Time.largest]
    omega
  rw [advancePeriods, Time.scale_eq_ok span_fits]
  change clock.advance ⟨_, span_fits⟩ = _ ↔ _
  rw [advance]
  constructor
  · intro moves
    cases sum : clock.now.add ⟨_, span_fits⟩ with
    | error overflow =>
        rw [sum] at moves
        cases moves
    | ok later =>
        rw [sum] at moves
        cases moves
        exact Time.nanoseconds_of_add sum
  · intro elapsed
    have fits : clock.now.nanoseconds + Time.period.nanoseconds * count.toNat ≤ Time.largest := by
      rw [Time.nanoseconds_period, ← elapsed]
      exact moved.now.le_largest
    have sum : (⟨_, fits⟩ : Time) = moved.now := by
      rw [Time.mk.injEq]
      exact elapsed.symm
    rw [@Time.add_eq_ok _ ⟨_, span_fits⟩ fits, sum]
    rfl

@[simp]
theorem Countdown.toNat_lower (countdown : Countdown) (periods : UInt64) :
    (countdown.lower periods).count.toNat = countdown.count.toNat - periods.toNat := by
  have bound := countdown.count.toNat_lt
  simp only [Countdown.lower, UInt8.toNat_ofNat']
  omega

/-- One of the two timers. -/
inductive Channel
  | delay
  | sound
  deriving DecidableEq

/-- The instruction that puts VX into a timer. -/
def Instruction.setting (channel : Channel) (x : UInt8) : Instruction :=
  match channel with
  | .delay => .setDelay x
  | .sound => .setSound x

namespace Timers

variable (timers : Timers) (now : Time)

/-- The countdown of a channel. -/
def countdown (channel : Channel) : Countdown :=
  match channel with
  | .delay => timers.delay
  | .sound => timers.sound

/-- Puts a count into a channel. -/
def set (channel : Channel) (count : UInt8) : Timers :=
  match channel with
  | .delay => timers.setDelay count
  | .sound => timers.setSound count

/-- The periods that bringing the timers up to date takes off them. -/
def periods : UInt64 :=
  match timers.mode with
  | .perStep => 1
  | .wallClock => timers.elapsedPeriods now

theorem toNat_elapsedPeriods :
    (timers.elapsedPeriods now).toNat =
      (now.nanoseconds - timers.lastUpdated.nanoseconds) / 16666666 % 2 ^ 64 := by
  simp [elapsedPeriods, Time.since]

/-- The last update does not move past the later of its old moment and now. -/
theorem moved_le_largest :
    timers.lastUpdated.nanoseconds +
        16666666 * (timers.elapsedPeriods now).toUInt32.toNat ≤ Time.largest := by
  have before := timers.lastUpdated.le_largest
  have present := now.le_largest
  have cut := timers.toNat_elapsedPeriods now
  rw [UInt64.toNat_toUInt32]
  omega

/-- The moment of the last update after the timers were brought up to date by a clock. -/
def moved : Time where
  nanoseconds :=
    timers.lastUpdated.nanoseconds + 16666666 * (timers.elapsedPeriods now).toUInt32.toNat
  le_largest := timers.moved_le_largest now

theorem nanoseconds_moved : (timers.moved now).nanoseconds =
    timers.lastUpdated.nanoseconds + 16666666 * ((timers.elapsedPeriods now).toNat % 2 ^ 32) := by
  simp [moved, UInt64.toNat_toUInt32]

/-- The timers after they were brought up to date. -/
def settled : Timers :=
  match timers.mode with
  | .perStep => timers.lower 1
  | .wallClock =>
      { timers.lower (timers.elapsedPeriods now) with lastUpdated := timers.moved now }

/-- Neither the time of the periods nor the moment after it is too large. -/
theorem exists_span_eq : ∃ span,
    Time.period.scale (timers.elapsedPeriods now).toUInt32 = .ok span ∧
      timers.lastUpdated.add span = .ok (timers.moved now) := by
  have fits := timers.moved_le_largest now
  have span : Time.period.nanoseconds * (timers.elapsedPeriods now).toUInt32.toNat ≤
      Time.largest := by
    rw [Time.nanoseconds_period]
    omega
  exact ⟨_, Time.scale_eq_ok span, Time.add_eq_ok fits⟩

/-- The timers can always be brought up to date. -/
theorem sync_eq : timers.sync now = .ok (timers.settled now, timers.periods now) := by
  cases driven : timers.mode with
  | perStep => simp [sync, settled, periods, driven]
  | wallClock =>
      rcases timers.exists_span_eq now with ⟨span, scaled, added⟩
      simp only [sync, settled, periods, driven, scaled]
      change (timers.lastUpdated.add span >>= _) = _
      rw [added]
      rfl

variable {timers now}

@[simp]
theorem countdown_set (channel : Channel) (count : UInt8) :
    (timers.set channel count).countdown channel = ⟨count⟩ := by
  cases channel <;> rfl

@[simp]
theorem mode_set (channel : Channel) (count : UInt8) :
    (timers.set channel count).mode = timers.mode := by
  cases channel <;> rfl

@[simp]
theorem lastUpdated_set (channel : Channel) (count : UInt8) :
    (timers.set channel count).lastUpdated = timers.lastUpdated := by
  cases channel <;> rfl

@[simp]
theorem mode_settled : (timers.settled now).mode = timers.mode := by
  cases driven : timers.mode <;> simp [settled, driven, lower]

@[simp]
theorem countdown_settled (channel : Channel) :
    (timers.settled now).countdown channel =
      (timers.countdown channel).lower (timers.periods now) := by
  cases driven : timers.mode <;> cases channel <;>
    simp [settled, periods, countdown, lower, driven]

theorem lastUpdated_settled (driven : timers.mode = .wallClock) :
    (timers.settled now).lastUpdated = timers.moved now := by
  simp [settled, driven]

/-- Timers that are driven by steps do not look at the clock. -/
theorem lastUpdated_settled_of_perStep (driven : timers.mode = .perStep) :
    (timers.settled now).lastUpdated = timers.lastUpdated := by
  simp [settled, driven, lower]

end Timers

namespace Report

variable {α : Type} {report : Report α} {now : Time}

theorem synced_of_error {failure : Failure} (failed : report.result = .error failure) :
    report.synced now = report := by
  simp [synced, failed]

theorem synced_of_ok {answer : α} (succeeded : report.result = .ok answer) :
    report.synced now =
      { report with machine :=
          { report.machine with timers := report.machine.timers.settled now } } := by
  simp [synced, succeeded, Timers.sync_eq]

end Report

end Chip8

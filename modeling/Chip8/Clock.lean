import Chip8.Timers

/-!
# A clock moved by hand

A host that wants to decide about time itself keeps a clock that stands still until it is
moved on, by a span of time or by a number of timer periods.
-/

namespace Chip8

/-- A clock that shows the time since it was made. -/
structure Clock where
  now : Time
  deriving DecidableEq

namespace Clock

/-- A clock that has not been moved. -/
def new : Clock := ⟨.zero⟩

/-- Moves the clock on by a span of time. -/
def advance (clock : Clock) (span : Time) : Except Overflow Clock := do
  return ⟨← clock.now.add span⟩

/-- Moves the clock on by a number of timer periods. -/
def advancePeriods (clock : Clock) (count : UInt32) : Except Overflow Clock := do
  clock.advance (← Time.period.scale count)

end Clock

end Chip8

import Chip8.Config
import Chip8.Time

/-!
# Timers

A countdown holds a byte that goes down to zero and stays there. The machine has two, driven
together sixty times in a second: bringing them up to date takes as many periods off both as
have passed since they were last updated, and moves that moment by whole periods only, so
that the rest of a period is not lost.
-/

namespace Chip8

/-- A count that goes down to zero. -/
structure Countdown where
  count : UInt8
  deriving DecidableEq

/-- Takes a number of periods off a countdown, which stops at zero. -/
def Countdown.lower (countdown : Countdown) (periods : UInt64) : Countdown :=
  ⟨UInt8.ofNat (countdown.count.toNat - periods.toNat)⟩

/-- A sixtieth of a second in whole nanoseconds. -/
def Time.period : Time := ⟨1000000000 / 60, by decide⟩

/-- The delay and sound timers. -/
structure Timers where
  delay : Countdown
  sound : Countdown
  mode : TimerMode
  /-- The moment up to which periods have been counted. -/
  lastUpdated : Time
  deriving DecidableEq

namespace Timers

/-- Timers at zero, up to date now. -/
def new (mode : TimerMode) (now : Time) : Timers := ⟨⟨0⟩, ⟨0⟩, mode, now⟩

/-- Puts the timers back to zero, up to date now. -/
def reset (timers : Timers) (now : Time) : Timers :=
  { timers with delay := ⟨0⟩, sound := ⟨0⟩, lastUpdated := now }

/-- Sets the delay count. -/
def setDelay (timers : Timers) (count : UInt8) : Timers :=
  { timers with delay := ⟨count⟩ }

/-- Sets the sound count. -/
def setSound (timers : Timers) (count : UInt8) : Timers :=
  { timers with sound := ⟨count⟩ }

/-- Whether a tone is to be heard. -/
def isSoundActive (timers : Timers) : Bool := timers.sound.count > 0

/-- Takes a number of periods off both timers. -/
def lower (timers : Timers) (periods : UInt64) : Timers :=
  { timers with delay := timers.delay.lower periods, sound := timers.sound.lower periods }

/-- The whole periods from the last update to now, modulo 2 ^ 64. -/
def elapsedPeriods (timers : Timers) (now : Time) : UInt64 :=
  UInt64.ofNat ((now.since timers.lastUpdated).nanoseconds / Time.period.nanoseconds)

/-- Brings the timers up to date and tells how many periods were taken off. The moment of the
last update moves by that number of periods modulo 2 ^ 32. -/
def sync (timers : Timers) (now : Time) : Except Overflow (Timers × UInt64) :=
  match timers.mode with
  | .perStep => .ok (timers.lower 1, 1)
  | .wallClock => do
    let periods := timers.elapsedPeriods now
    let moved ← timers.lastUpdated.add (← Time.period.scale periods.toUInt32)
    return ({ timers.lower periods with lastUpdated := moved }, periods)

end Timers

end Chip8

/-!
# Configuration

What can be chosen about a machine: how its timers are driven, the dialect of the instruction
set it speaks, and the seed of its random numbers.
-/

namespace Chip8

/-- How the delay and sound timers are driven. -/
inductive TimerMode
  /-- Sixty times in a second of the host's clock. -/
  | wallClock
  /-- Once for each step. -/
  | perStep
  deriving DecidableEq

/-- The instructions on which historical machines differ. -/
structure Dialect where
  /-- The shifts 8XY6 and 8XYE take VY, not VX, as their source. -/
  shiftsY : Bool
  /-- The logic instructions 8XY1, 8XY2 and 8XY3 put zero into VF. -/
  logicClearsFlag : Bool
  /-- The jump BXNN moves its target by VX, not by V0. -/
  jumpsByX : Bool
  deriving DecidableEq

/-- The choices for a machine. -/
structure Config where
  timerMode : TimerMode
  dialect : Dialect
  /-- The seed of the random numbers, if runs are to be reproducible. -/
  seed : Option UInt64
  deriving DecidableEq

/-- The dialect that takes none of the historical turns. -/
def Dialect.plain : Dialect := ⟨false, false, false⟩

/-- The choices made when nothing is asked for. -/
def Config.standard : Config := ⟨.wallClock, .plain, none⟩

end Chip8

import Chip8.Fault

/-!
# Time

Times are spans of nanoseconds. The largest has a whole number of seconds that just fits
sixty-four bits and a full fraction of a second; a sum beyond it is an overflow.
-/

namespace Chip8

/-- The number of nanoseconds in the largest time. -/
def Time.largest : Nat := 18446744073709551615 * 1000000000 + 999999999

/-- A span of time in nanoseconds. -/
structure Time where
  nanoseconds : Nat
  le_largest : nanoseconds ≤ Time.largest
  deriving DecidableEq

namespace Time

/-- No time at all. -/
def zero : Time := ⟨0, by decide⟩

/-- The time of so many nanoseconds, unless there are too many. -/
def ofNanoseconds (nanoseconds : Nat) : Except Overflow Time :=
  if fits : nanoseconds ≤ largest then .ok ⟨nanoseconds, fits⟩ else .error .time

/-- The sum of two times. -/
def add (time other : Time) : Except Overflow Time :=
  ofNanoseconds (time.nanoseconds + other.nanoseconds)

/-- A time repeated `count` times. -/
def scale (time : Time) (count : UInt32) : Except Overflow Time :=
  ofNanoseconds (time.nanoseconds * count.toNat)

/-- How much later one time is than another, and nothing if it is earlier. -/
def since (time earlier : Time) : Time :=
  ⟨time.nanoseconds - earlier.nanoseconds,
    Nat.le_trans (Nat.sub_le _ _) time.le_largest⟩

end Time

end Chip8

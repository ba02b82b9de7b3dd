/-!
# Sources

A source is an endless stream together with the number of values already taken from it. Random
numbers and sound samples come from sources, so what was taken and when is part of the state.
-/

namespace Chip8

/-- A stream and the number of values taken from it. -/
structure Source (α : Type) where
  values : Nat → α
  taken : Nat

namespace Source

variable {α : Type}

/-- A source that starts at the first value of a stream. -/
def ofStream (values : Nat → α) : Source α := ⟨values, 0⟩

/-- A source that yields the same value for ever. -/
def constant (value : α) : Source α := ofStream fun _ => value

/-- A source that goes through a list over and over; an empty list stands for `default`. -/
def cycle (values : List α) (default : α) : Source α :=
  let values := values.toArray
  ofStream fun number => values[number % values.size]?.getD default

/-- The next value, and the source after it was taken. -/
def next (source : Source α) : α × Source α :=
  (source.values source.taken, { source with taken := source.taken + 1 })

/-- The source after a number of further values were taken. -/
def skip (source : Source α) (count : Nat) : Source α :=
  { source with taken := source.taken + count }

theorem skip_skip (source : Source α) (first second : Nat) :
    (source.skip first).skip second = source.skip (first + second) := by
  simp only [skip, Nat.add_assoc]

theorem skip_ofStream (values : Nat → α) (count : Nat) :
    (ofStream values).skip count = ⟨values, count⟩ := by
  simp only [ofStream, skip, Nat.zero_add]

end Source

end Chip8

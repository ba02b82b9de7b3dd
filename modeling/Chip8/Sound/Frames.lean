import Chip8.Source

/-!
# Frames of sound

A sound buffer is a row of frames with one element for each channel, of which the last frame
may be cut short. Filling it takes one sample for each frame and gives it to every channel.
-/

namespace Chip8

namespace Frames

variable {α β : Type}

/-- Fills a buffer frame by frame with the next samples of a source, each brought into the
form of the buffer. Without channels there are no frames, and the buffer stays as it is. -/
def fill (convert : α → β) (channels : Nat) (buffer : List β) (source : Source α) :
    List β × Source α :=
  if channels = 0 ∨ buffer = [] then
    (buffer, source)
  else
    let (sample, source) := source.next
    let frame := (buffer.take channels).map fun _ => convert sample
    let (rest, source) := fill convert channels (buffer.drop channels) source
    (frame ++ rest, source)
termination_by buffer.length
decreasing_by
  have := List.length_pos_iff.mpr (not_or.mp ‹_›).2
  simp only [List.length_drop]
  omega

end Frames

end Chip8

import Chip8.Sound.Frames
import Chip8.Sound.Sample
import Mathlib

/-!
# Filled buffers

A sound buffer takes one sample for each of its frames, and the last frame takes a whole one even if
it is cut short. So a place gets the sample whose number is that of its frame (`spread`), and what
the buffer held before is lost. Buffers that are filled one after the other go on with the same tone
as long as each but the last has whole frames.
-/

namespace Chip8

namespace Frames

variable {α β : Type} {convert : α → β} {channels : Nat} {buffer : List β} {source : Source α}

/-- The next samples of a source, each for all places of a frame, for a number of places. -/
def spread (convert : α → β) (channels : Nat) (source : Source α) (length : Nat) : List β :=
  (List.range length).map fun place => convert (source.values (source.taken + place / channels))

theorem length_spread (convert : α → β) (channels : Nat) (source : Source α) (length : Nat) :
    (spread convert channels source length).length = length := by
  rw [spread, List.length_map, List.length_range]

theorem getElem?_spread {place length : Nat} (within : place < length) :
    (spread convert channels source length)[place]? =
      some (convert (source.values (source.taken + place / channels))) := by
  rw [spread, List.getElem?_map, List.getElem?_range within]
  rfl

theorem spread_of_le {length : Nat} (single : length ≤ channels) :
    spread convert channels source length = List.replicate length (convert source.next.1) := by
  apply List.eq_replicate_iff.mpr
  refine ⟨length_spread convert channels source length, ?_⟩
  intro element element_mem
  rcases List.mem_map.mp element_mem with ⟨place, place_mem, rfl⟩
  have first : place / channels = 0 :=
    Nat.div_eq_of_lt (Nat.lt_of_lt_of_le (List.mem_range.mp place_mem) single)
  simp only [first, Nat.add_zero, Source.next]

/-- After whole frames the source goes on with the sample that follows theirs. -/
theorem spread_mul_add (convert : α → β) (positive : 0 < channels) (source : Source α)
    (frames length : Nat) :
    spread convert channels source (channels * frames + length) =
      spread convert channels source (channels * frames) ++
        spread convert channels (source.skip frames) length := by
  simp only [spread, List.range_add, List.map_append, List.map_map, List.append_cancel_left_eq]
  apply List.map_congr_left
  intro place _
  have later : (channels * frames + place) / channels = frames + place / channels :=
    Nat.mul_add_div positive frames place
  simp only [Function.comp_apply, Source.skip, later, Nat.add_assoc]

theorem ceilDiv_mul_add (positive : 0 < channels) (frames length : Nat) :
    (channels * frames + length) ⌈/⌉ channels = frames + length ⌈/⌉ channels := by
  have whole : channels * frames + length + channels - 1 =
      channels * frames + (length + channels - 1) := by omega
  rw [Nat.ceilDiv_eq_add_pred_div, Nat.ceilDiv_eq_add_pred_div, whole, Nat.mul_add_div positive]

/-- The first frame gets the next sample, and the places behind it the samples that follow. -/
theorem spread_frame (convert : α → β) (positive : 0 < channels) (source : Source α)
    (length : Nat) :
    spread convert channels source length =
      List.replicate (min channels length) (convert source.next.1) ++
        spread convert channels (source.skip 1) (length - channels) := by
  rcases Nat.le_total channels length with whole | short
  · have parts := spread_mul_add convert positive source 1 (length - channels)
    rw [Nat.mul_one, Nat.add_sub_cancel' whole, spread_of_le (Nat.le_refl channels)] at parts
    rw [parts, Nat.min_eq_left whole]
  · rw [spread_of_le short, Nat.min_eq_right short, Nat.sub_eq_zero_of_le short]
    exact (List.append_nil _).symm

theorem ceilDiv_frame (positive : 0 < channels) {length : Nat} (some_place : 0 < length) :
    length ⌈/⌉ channels = 1 + (length - channels) ⌈/⌉ channels := by
  rcases Nat.le_total channels length with whole | short
  · have parts := ceilDiv_mul_add positive 1 (length - channels)
    rwa [Nat.mul_one, Nat.add_sub_cancel' whole] at parts
  · rw [Nat.sub_eq_zero_of_le short, zero_ceilDiv]
    apply Nat.div_eq_of_lt_le <;> omega

theorem fill_nil : fill convert channels [] source = ([], source) := by
  rw [fill, if_pos (Or.inr rfl)]

/-- One frame is filled with one sample, and the rest of the buffer with those that follow. -/
theorem fill_of_ne_nil (positive : 0 < channels) (ne_nil : buffer ≠ []) :
    fill convert channels buffer source =
      (List.replicate (min channels buffer.length) (convert source.next.1) ++
          (fill convert channels (buffer.drop channels) (source.skip 1)).1,
        (fill convert channels (buffer.drop channels) (source.skip 1)).2) := by
  have going : ¬(channels = 0 ∨ buffer = []) := by
    rintro (mute | nothing)
    · exact absurd mute (Nat.ne_of_gt positive)
    · exact ne_nil nothing
  rw [fill, if_neg going]
  simp [Source.next, Source.skip]

/-- What is in the buffer and where the source stands once all frames are filled. -/
theorem fill_eq (convert : α → β) (positive : 0 < channels) (buffer : List β)
    (source : Source α) :
    fill convert channels buffer source =
      (spread convert channels source buffer.length,
        source.skip (buffer.length ⌈/⌉ channels)) := by
  -- The induction is over the frames, and the first one takes one sample off the source.
  induction buffer, source using fill.induct convert channels with
  | case1 buffer source ended =>
      rcases ended with mute | rfl
      · exact absurd mute (Nat.ne_of_gt positive)
      · rw [fill_nil, List.length_nil, zero_ceilDiv]
        rfl
  | case2 buffer source going sample later taken rest final filled ih =>
      rcases not_or.mp going with ⟨-, ne_nil⟩
      have later_eq : source.skip 1 = later := congrArg Prod.snd taken
      have places := spread_frame convert positive source buffer.length
      have frames := ceilDiv_frame positive (List.length_pos_iff.mpr ne_nil)
      rw [← later_eq, List.length_drop] at ih
      rw [fill_of_ne_nil positive ne_nil, ih, places, frames, Source.skip_skip]

/-- Whole frames can be filled first and the rest of the buffer later. -/
theorem fill_append (positive : 0 < channels) (first second : List β) (source : Source α)
    (whole : channels ∣ first.length) :
    fill convert channels (first ++ second) source =
      let early := fill convert channels first source
      let late := fill convert channels second early.2
      (early.1 ++ late.1, late.2) := by
  rcases whole with ⟨frames, length_eq⟩
  have exactly : channels * frames ⌈/⌉ channels = frames := by
    have parts := ceilDiv_mul_add positive frames 0
    rwa [zero_ceilDiv, Nat.add_zero] at parts
  simp only [fill_eq convert positive, List.length_append, length_eq,
    spread_mul_add convert positive, ceilDiv_mul_add positive, exactly, Source.skip_skip]

/-- As many samples are taken as there are frames, a cut one included, and each place gets the
sample of its frame, whatever it held before. Without places nothing is taken. A buffer that is
filled in two parts, of which the first has whole frames only, ends up the same. -/
theorem frames_take_samples_in_order (convert : α → β) {channels : Nat} (positive : 0 < channels)
    (buffer : List β) (source : Source α) :
    let filled := fill convert channels buffer source
    filled.2 = source.skip (buffer.length ⌈/⌉ channels) ∧
      filled.1.length = buffer.length ∧
      (∀ place < buffer.length, filled.1[place]? =
        some (convert (source.values (source.taken + place / channels)))) ∧
      (∀ other : List β, other.length = buffer.length →
        fill convert channels other source = filled) ∧
      fill convert channels [] source = ([], source) ∧
      ∀ first second, buffer = first ++ second → channels ∣ first.length →
        let early := fill convert channels first source
        let late := fill convert channels second early.2
        filled = (early.1 ++ late.1, late.2) := by
  have filled_eq := fill_eq convert positive buffer source
  intro filled
  refine ⟨congrArg Prod.snd filled_eq, ?_, ?_, ?_, fill_nil, ?_⟩
  · rw [congrArg Prod.fst filled_eq, length_spread]
  · intro place within
    rw [congrArg Prod.fst filled_eq, getElem?_spread within]
  · intro other same
    rw [fill_eq convert positive, same]
    exact filled_eq.symm
  · rintro first second rfl whole
    exact fill_append positive first second source whole

/-- A square wave of loudness 0.2 that turns with every sample. -/
def wave : Source Sample := .cycle [⟨0x3E4CCCCD⟩, ⟨0xBE4CCCCD⟩] ⟨0⟩

/-- Five places are two frames for two channels and the first half of a third one, in one part or
in two. -/
theorem third_frame_is_cut_short :
    let filled := fill (SampleFormat.signed 16).convert 2 [1, 2, 3, 4, 5] wave
    let early := fill (SampleFormat.signed 16).convert 2 [1, 2, 3, 4] wave
    let late := fill (SampleFormat.signed 16).convert 2 [5] early.2
    filled.2 = wave.skip 3 ∧ filled.1[3]? = some (-6553) ∧ filled.1[4]? = some 6553 ∧
      filled = (early.1 ++ late.1, late.2) := by
  rcases frames_take_samples_in_order (SampleFormat.signed 16).convert (by decide : 0 < 2)
    [1, 2, 3, 4, 5] wave with ⟨taken, -, elements, -, -, parts⟩
  refine ⟨taken, ?_, ?_, parts [1, 2, 3, 4] [5] rfl (by decide)⟩
  · rw [elements 3 (by decide)]
    decide +kernel
  · rw [elements 4 (by decide)]
    decide +kernel

end Frames

end Chip8

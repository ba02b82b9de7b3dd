import Chip8.Proofs.Timing
import Mathlib

/-!
# Bringing the timers up to date, once and again

Timers can be brought up to date at any moment: the last update moves forward, and not past the
later of its old moment and now. At the same moment again there should be nothing left to do, for
the periods that were told lie behind the last update by then. But the last update moves by their
number cut to thirty-two bits. What the cut leaves over is told a second time and taken off counts
that may have been set in between; and having no low bits, it does not move the last update either,
so it is told as often as the timers are brought up to date.
-/

namespace Chip8

namespace Timers

variable {timers : Timers} {now : Time}

/-! ## Once -/

/-- The timers after they were brought up to date and told a number of periods. -/
structure Settles (timers : Timers) (now : Time) (synced : Timers) (told : UInt64) : Prop where
  forward : timers.lastUpdated.nanoseconds ≤ synced.lastUpdated.nanoseconds
  bounded : synced.lastUpdated.nanoseconds ≤ max timers.lastUpdated.nanoseconds now.nanoseconds
  perStep : timers.mode = .perStep → synced.lastUpdated = timers.lastUpdated
  /-- Neither the product nor the sum is too large for a time. -/
  wallClock : timers.mode = .wallClock → ∃ span, Time.period.scale told.toUInt32 = .ok span ∧
    timers.lastUpdated.add span = .ok synced.lastUpdated
  lowered : ∀ channel, ((synced.countdown channel).count.toNat : Int) =
    max 0 ((timers.countdown channel).count.toNat - told.toNat)
  count_le : ∀ channel, (synced.countdown channel).count ≤ (timers.countdown channel).count
  count_eq_iff : ∀ channel, (synced.countdown channel).count = (timers.countdown channel).count ↔
    (timers.countdown channel).count = 0 ∨ told = 0

/-- No cut makes the number of periods larger, so the last update moves by no more time than has
passed. -/
theorem nanoseconds_moved_le (timers : Timers) (now : Time) :
    (timers.moved now).nanoseconds ≤ max timers.lastUpdated.nanoseconds now.nanoseconds := by
  have elapsed := timers.toNat_elapsedPeriods now
  rw [nanoseconds_moved]
  omega

theorem lastUpdated_settled_between (timers : Timers) (now : Time) :
    timers.lastUpdated.nanoseconds ≤ (timers.settled now).lastUpdated.nanoseconds ∧
      (timers.settled now).lastUpdated.nanoseconds ≤
        max timers.lastUpdated.nanoseconds now.nanoseconds := by
  cases driven : timers.mode with
  | perStep =>
      rw [lastUpdated_settled_of_perStep driven]
      exact ⟨le_rfl, le_max_left _ _⟩
  | wallClock =>
      rw [lastUpdated_settled driven]
      exact ⟨Nat.le_add_right _ _, timers.nanoseconds_moved_le now⟩

/-- Timers can be brought up to date at any moment, whatever they show and whenever this was done
last. No time becomes too large, and the counts fall by what is told, down to zero at most. -/
theorem sync_settles (timers : Timers) (now : Time) :
    ∃ synced told, timers.sync now = .ok (synced, told) ∧ timers.Settles now synced told := by
  have between := timers.lastUpdated_settled_between now
  have lowered : ∀ channel, ((timers.settled now).countdown channel).count.toNat =
      (timers.countdown channel).count.toNat - (timers.periods now).toNat := by
    intro channel
    rw [countdown_settled, Countdown.toNat_lower]
  refine ⟨timers.settled now, timers.periods now, timers.sync_eq now, ?_⟩
  refine ⟨between.1, between.2, lastUpdated_settled_of_perStep, ?_, ?_, ?_, ?_⟩
  · intro driven
    rw [lastUpdated_settled driven]
    simpa only [periods, driven] using timers.exists_span_eq now
  · intro channel
    rw [lowered]
    omega
  · intro channel
    rw [UInt8.le_iff_toNat_le, lowered]
    exact Nat.sub_le _ _
  · intro channel
    rw [← UInt8.toNat_inj, ← UInt8.toNat_inj, ← UInt64.toNat_inj, lowered, UInt8.toNat_zero,
      UInt64.toNat_zero]
    omega

/-! ## Again -/

/-- Timers whose last update has moved to a moment find there the periods that the cut left over. -/
theorem toNat_elapsedPeriods_of_moved {again : Timers}
    (moved : again.lastUpdated = timers.moved now) :
    (again.elapsedPeriods now).toNat =
      (timers.elapsedPeriods now).toNat - (timers.elapsedPeriods now).toNat % 2 ^ 32 := by
  have elapsed := timers.toNat_elapsedPeriods now
  rw [toNat_elapsedPeriods, moved, nanoseconds_moved]
  omega

/-- A number of periods without low bits does not move the last update. -/
theorem settled_of_no_low_bits (driven : timers.mode = .wallClock)
    (none_low : (timers.elapsedPeriods now).toNat % 2 ^ 32 = 0) :
    timers.settled now = timers.lower (timers.elapsedPeriods now) := by
  have stays : timers.moved now = timers.lastUpdated := by
    rw [Time.mk.injEq, nanoseconds_moved, none_low, Nat.mul_zero, Nat.add_zero]
  simp only [settled, driven, stays]
  rfl

theorem lower_zero (timers : Timers) : timers.lower 0 = timers := by
  simp [lower, Countdown.lower]

/-- Timers that a clock drives are brought up to date twice at one moment, with any counts set in
between. Exactly if the first time told less than 2 ^ 32 periods, the second tells none and changes
nothing; else it tells again what is above the low thirty-two bits. -/
theorem sync_again (driven : timers.mode = .wallClock) (now : Time) :
    ∃ synced told, timers.sync now = .ok (synced, told) ∧
      told.toNat = (now.nanoseconds - timers.lastUpdated.nanoseconds) / 16666666 % 2 ^ 64 ∧
      ∀ delay sound, let set : Timers := { synced with delay, sound }
        (set.sync now = .ok (set, 0) ↔ told.toNat < 2 ^ 32) ∧
          ∃ left : UInt64, left.toNat = told.toNat - told.toNat % 2 ^ 32 ∧
            set.sync now = .ok (set.lower left, left) := by
  refine ⟨timers.settled now, timers.elapsedPeriods now, ?_, timers.toNat_elapsedPeriods now, ?_⟩
  · rw [sync_eq, periods, driven]
  · intro delay sound set
    have set_driven : set.mode = .wallClock := mode_settled.trans driven
    have left_eq : (set.elapsedPeriods now).toNat = _ :=
      toNat_elapsedPeriods_of_moved (lastUpdated_settled driven)
    -- What is left has no low bits, so the last update stays where it is from now on.
    have synced : set.sync now =
        .ok (set.lower (set.elapsedPeriods now), set.elapsedPeriods now) := by
      rw [sync_eq, settled_of_no_low_bits set_driven (by omega), periods, set_driven]
    refine ⟨?_, set.elapsedPeriods now, left_eq, synced⟩
    constructor
    · intro nothing
      have none_left : set.elapsedPeriods now = 0 := by
        rw [synced, Except.ok.injEq, Prod.mk.injEq] at nothing
        exact nothing.2
      rw [none_left, UInt64.toNat_zero] at left_eq
      omega
    · intro few
      have none_left : set.elapsedPeriods now = 0 := by
        rw [← UInt64.toNat_inj, left_eq, UInt64.toNat_zero]
        omega
      rw [synced, none_left, lower_zero]

/-- The moment when a clock has shown 2 ^ 32 periods, after two years and a quarter. -/
def afterYears : Time := ⟨2 ^ 32 * 16666666, by decide⟩

/-- A delay that is set after years at rest is lost at once, at no time at all. -/
theorem delay_lost_after_years :
    ∃ synced, (new .wallClock .zero).sync afterYears = .ok (synced, 4294967296) ∧
      ((synced.setDelay 60).sync afterYears ≠ .ok (synced.setDelay 60, 0)) ∧
      ∃ again, (synced.setDelay 60).sync afterYears = .ok (again, 4294967296) ∧
        again.delay.count = 0 := by
  rcases @sync_again (new .wallClock .zero) rfl afterYears with
    ⟨synced, told, first, told_eq, second⟩
  rcases second ⟨60⟩ synced.sound with ⟨nothing_iff, left, left_eq, again⟩
  have told_all : told = 4294967296 := by
    rw [← UInt64.toNat_inj, told_eq]
    rfl
  have left_all : left = 4294967296 := by
    rw [← UInt64.toNat_inj, left_eq, told_all]
    rfl
  rw [told_all] at first nothing_iff
  rw [left_all] at again
  refine ⟨synced, first, ?_, _, again, ?_⟩
  · intro nothing
    exact absurd (nothing_iff.mp nothing) (by decide)
  · apply UInt8.toNat_inj.mp
    exact Countdown.toNat_lower ⟨60⟩ 4294967296

end Timers

end Chip8

import Chip8.Proofs.Timing
import Mathlib

/-!
# Periods without drift

Timers that are brought up to date now and then, at any moments in any order, count each whole
period since they were made once. The rest of a period is kept, because the moment of the last
update moves by whole periods: it stays less than a period behind the latest moment that was seen,
and an earlier moment changes nothing. A count that was set loses the periods counted from then on.
All this holds while no more periods are found at once than the last update can move by.
-/

namespace Chip8

/-- What happens to timers: a count is set, or they are brought up to date. -/
inductive TimerEvent
  | set (channel : Channel) (count : UInt8)
  | sync (now : Time)

namespace TimerEvent

def moment? : TimerEvent → Option Nat
  | .set _ _ => none
  | .sync now => some now.nanoseconds

/-- The event leaves a channel to the clock. -/
def Spares (channel : Channel) : TimerEvent → Prop
  | .set other _ => other ≠ channel
  | .sync _ => True

end TimerEvent

/-- The moments at which timers are brought up to date. -/
def moments (events : List TimerEvent) : List Nat :=
  events.filterMap TimerEvent.moment?

/-- The later of a moment and the latest of a number of events. -/
def latest (start : Nat) (events : List TimerEvent) : Nat :=
  (moments events).foldl max start

/-- The sum of periods told. -/
def sumTold (told : List UInt64) : Nat :=
  (told.map UInt64.toNat).sum

namespace Timers

/-- The timers after a number of events, and the periods told each time they were brought up to
date. -/
def follow (timers : Timers) : List TimerEvent → Except Overflow (Timers × List UInt64)
  | [] => .ok (timers, [])
  | .set channel count :: events => (timers.set channel count).follow events
  | .sync now :: events => do
    let (synced, periods) ← timers.sync now
    let (final, told) ← synced.follow events
    return (final, periods :: told)

/-- The timers are never found 2 ^ 32 periods behind. -/
def Prompt (timers : Timers) : List TimerEvent → Prop
  | [] => True
  | .set channel count :: events => (timers.set channel count).Prompt events
  | .sync now :: events =>
    (now.nanoseconds - timers.lastUpdated.nanoseconds) / 16666666 < 2 ^ 32 ∧
      (timers.settled now).Prompt events

/-- The timers have counted all whole periods up to a moment. -/
structure UpTo (timers : Timers) (moment : Nat) : Prop where
  mode : timers.mode = .wallClock
  reached : timers.lastUpdated.nanoseconds ≤ moment
  rest : moment < timers.lastUpdated.nanoseconds + 16666666

variable {timers final : Timers} {events : List TimerEvent} {told : List UInt64}
variable {channel : Channel} {moment : Nat} {now : Time}

/-! ## One event -/

theorem UpTo.set (upTo : timers.UpTo moment) (channel : Channel) (count : UInt8) :
    (timers.set channel count).UpTo moment := by
  refine ⟨?_, ?_, ?_⟩
  · rw [mode_set, upTo.mode]
  · rw [lastUpdated_set]
    exact upTo.reached
  · rw [lastUpdated_set]
    exact upTo.rest

theorem countdown_set_of_ne {other : Channel} (apart : other ≠ channel) (count : UInt8) :
    (timers.set other count).countdown channel = timers.countdown channel := by
  cases other with
  | delay =>
      cases channel with
      | delay => exact absurd rfl apart
      | sound => rfl
  | sound =>
      cases channel with
      | delay => rfl
      | sound => exact absurd rfl apart

/-- The whole periods up to the later moment are counted, and nothing is if it is an earlier one. -/
theorem UpTo.settled (upTo : timers.UpTo moment)
    (prompt : (now.nanoseconds - timers.lastUpdated.nanoseconds) / 16666666 < 2 ^ 32) :
    (timers.settled now).UpTo (max moment now.nanoseconds) ∧
      (timers.settled now).lastUpdated.nanoseconds =
        timers.lastUpdated.nanoseconds + 16666666 * (timers.periods now).toNat := by
  have reached := upTo.reached
  have rest := upTo.rest
  have elapsed : (timers.elapsedPeriods now).toNat =
      (now.nanoseconds - timers.lastUpdated.nanoseconds) / 16666666 := by
    rw [toNat_elapsedPeriods]
    omega
  -- The last update moves by the periods cut to 32 bits; being prompt, they lose nothing by it.
  have moves : (timers.settled now).lastUpdated.nanoseconds =
      timers.lastUpdated.nanoseconds + 16666666 * (timers.elapsedPeriods now).toNat := by
    rw [lastUpdated_settled upTo.mode, nanoseconds_moved]
    omega
  refine ⟨⟨?_, ?_, ?_⟩, ?_⟩
  · rw [mode_settled, upTo.mode]
  · rw [moves, elapsed]
    omega
  · rw [moves, elapsed]
    omega
  · rw [moves, Timers.periods, upTo.mode]

/-- Timers that have counted up to a moment find a number of whole periods after it. -/
theorem UpTo.periods_eq (upTo : timers.UpTo moment) {count : UInt32}
    (later : now.nanoseconds = moment + 16666666 * count.toNat) :
    timers.periods now = count.toUInt64 := by
  have reached := upTo.reached
  have rest := upTo.rest
  have count_lt := count.toNat_lt
  rw [← UInt64.toNat_inj, UInt32.toNat_toUInt64, Timers.periods, upTo.mode]
  simp only [toNat_elapsedPeriods]
  omega

/-! ## Any number of events -/

theorem follow_sync (timers : Timers) (now : Time) (events : List TimerEvent) :
    timers.follow (.sync now :: events) =
      ((timers.settled now).follow events).map fun (final, told) =>
        (final, timers.periods now :: told) := by
  rw [follow, sync_eq]
  rfl

theorem exists_follow_eq (timers : Timers) (events : List TimerEvent) :
    ∃ final told, timers.follow events = .ok (final, told) := by
  induction events generalizing timers with
  | nil => exact ⟨timers, [], rfl⟩
  | cons event events ih =>
      cases event with
      | set channel count => exact ih (timers.set channel count)
      | sync now =>
          rcases ih (timers.settled now) with ⟨final, told, followed⟩
          refine ⟨final, timers.periods now :: told, ?_⟩
          rw [follow_sync, followed]
          rfl

theorem follow_sync_eq_ok (followed : timers.follow (.sync now :: events) = .ok (final, told)) :
    ∃ later, told = timers.periods now :: later ∧
      (timers.settled now).follow events = .ok (final, later) := by
  rcases exists_follow_eq (timers.settled now) events with ⟨last, later, rest⟩
  rw [follow_sync, rest] at followed
  cases followed
  exact ⟨later, rfl, rest⟩

/-- Every event leaves the timers up to the latest moment, and the last update moves by what is
told. -/
theorem UpTo.follow (upTo : timers.UpTo moment) (prompt : timers.Prompt events)
    (followed : timers.follow events = .ok (final, told)) :
    final.UpTo (latest moment events) ∧
      final.lastUpdated.nanoseconds = timers.lastUpdated.nanoseconds + 16666666 * sumTold told := by
  induction events generalizing timers moment told with
  | nil =>
      cases followed
      exact ⟨upTo, by simp [sumTold]⟩
  | cons event events ih =>
      cases event with
      | set channel count =>
          have rest := ih (upTo.set channel count) prompt followed
          rw [lastUpdated_set] at rest
          exact rest
      | sync now =>
          rcases follow_sync_eq_ok followed with ⟨later, rfl, rest_followed⟩
          rcases upTo.settled prompt.1 with ⟨now_upTo, moves⟩
          rcases ih now_upTo prompt.2 rest_followed with ⟨final_upTo, final_moves⟩
          refine ⟨final_upTo, ?_⟩
          simp only [sumTold, List.map_cons, List.sum_cons] at final_moves ⊢
          omega

/-- A count loses what is told while nobody sets it. -/
theorem count_follow (spared : ∀ event ∈ events, event.Spares channel)
    (followed : timers.follow events = .ok (final, told)) :
    (final.countdown channel).count.toNat =
      (timers.countdown channel).count.toNat - sumTold told := by
  induction events generalizing timers told with
  | nil =>
      cases followed
      simp [sumTold]
  | cons event events ih =>
      rw [List.forall_mem_cons] at spared
      cases event with
      | set other count =>
          rw [ih spared.2 followed, countdown_set_of_ne spared.1]
      | sync now =>
          rcases follow_sync_eq_ok followed with ⟨later, rfl, rest_followed⟩
          rw [ih spared.2 rest_followed, countdown_settled, Countdown.toNat_lower]
          simp only [sumTold, List.map_cons, List.sum_cons]
          omega

/-- One number of periods is told for each moment of the events that came first. -/
theorem follow_append_eq_ok {earlier later : List TimerEvent}
    (followed : timers.follow (earlier ++ later) = .ok (final, told)) :
    ∃ between : Timers, between.follow later = .ok (final, told.drop (moments earlier).length) := by
  induction earlier generalizing timers told with
  | nil => exact ⟨timers, followed⟩
  | cons event earlier ih =>
      cases event with
      | set channel count => exact ih followed
      | sync now =>
          rcases follow_sync_eq_ok followed with ⟨rest, rfl, rest_followed⟩
          exact ih rest_followed

/-- What timers made at a moment have told after a number of events, and what they then show. -/
structure Accounts (start : Time) (events : List TimerEvent) (final : Timers)
    (told : List UInt64) : Prop where
  total : sumTold told = (latest start.nanoseconds events - start.nanoseconds) / 16666666
  lastUpdated : final.lastUpdated.nanoseconds = start.nanoseconds + 16666666 * sumTold told
  unset : ∀ channel, (∀ event ∈ events, event.Spares channel) →
    (final.countdown channel).count = 0
  count : ∀ channel earlier count later, events = earlier ++ .set channel count :: later →
    (∀ event ∈ later, event.Spares channel) →
    (final.countdown channel).count.toNat =
      count.toNat - sumTold (told.drop (moments earlier).length)
  next : (start.nanoseconds :: moments events).Pairwise (· ≤ ·) →
    ∀ clock moved : Clock, ∀ count,
      clock.now.nanoseconds = (moments events).getLastD start.nanoseconds →
      clock.advancePeriods count = .ok moved →
      ∃ synced, final.sync moved.now = .ok (synced, count.toUInt64)

end Timers

/-- The last of a number of moments in order is the latest. -/
theorem foldl_max_eq_getLastD {start : Nat} {later : List Nat}
    (ordered : (start :: later).Pairwise (· ≤ ·)) :
    later.foldl max start = later.getLastD start := by
  induction later generalizing start with
  | nil => rfl
  | cons moment later ih =>
      rw [List.pairwise_cons, List.forall_mem_cons] at ordered
      rw [List.foldl_cons, Nat.max_eq_right ordered.1.1, ih ordered.2, List.getLastD_cons]

namespace Timers

theorem upTo_new (start : Time) : (Timers.new .wallClock start).UpTo start.nanoseconds :=
  ⟨rfl, le_rfl, Nat.lt_add_of_pos_right (by decide)⟩

/-- Timers that are made or reset at a moment count each whole period from then on once, whenever
and however often they are brought up to date, as long as they are not left alone for too long. -/
theorem periods_add_up (start : Time) :
    (∀ timers : Timers, timers.mode = .wallClock → timers.reset start = .new .wallClock start) ∧
      ∀ events, (Timers.new .wallClock start).Prompt events →
        ∃ final told, (Timers.new .wallClock start).follow events = .ok (final, told) ∧
          Accounts start events final told := by
  constructor
  · intro timers driven
    simp only [reset, new, driven]
  · intro events prompt
    rcases exists_follow_eq (.new .wallClock start) events with ⟨final, told, followed⟩
    rcases (upTo_new start).follow prompt followed with ⟨upTo, moves⟩
    have made : (Timers.new .wallClock start).lastUpdated = start := rfl
    have reached := upTo.reached
    have rest := upTo.rest
    rw [made] at moves
    refine ⟨final, told, followed, ?_, moves, ?_, ?_, ?_⟩
    · omega
    · intro channel spared
      have lowered := count_follow spared followed
      have unset : ((Timers.new .wallClock start).countdown channel).count.toNat = 0 := by
        cases channel <;> rfl
      rw [unset, Nat.zero_sub] at lowered
      exact UInt8.toNat_inj.mp lowered
    · rintro channel earlier count later rfl spared
      rcases follow_append_eq_ok followed with ⟨between, later_followed⟩
      have lowered := count_follow spared later_followed
      rw [countdown_set] at lowered
      exact lowered
    · intro ordered clock moved count last moves_on
      rw [Clock.advancePeriods_eq_ok_iff, last, ← foldl_max_eq_getLastD ordered] at moves_on
      refine ⟨final.settled moved.now, ?_⟩
      rw [sync_eq, upTo.periods_eq moves_on]

/-- One second after the clock started. -/
def second : Time := ⟨1000000000, by decide⟩

/-- A count of ten, a look after ten milliseconds, one at the time before the second, and one after
forty milliseconds. -/
def looks : List TimerEvent :=
  [.set .delay 10, .sync ⟨1010000000, by decide⟩, .sync .zero, .sync ⟨1040000000, by decide⟩]

/-- The ten milliseconds of the first look are not lost: two periods have passed, not one. Nor do
they make a period of their own when the clock goes on by three. -/
theorem two_periods_at_looks :
    (∃ final told, (Timers.new .wallClock second).follow looks = .ok (final, told) ∧
      sumTold told = 2 ∧ (final.countdown .delay).count.toNat = 8) ∧
    ∃ final told, (Timers.new .wallClock second).follow [.sync ⟨1010000000, by decide⟩] =
        .ok (final, told) ∧ sumTold told = 0 ∧
      ∃ synced, final.sync ⟨1059999998, by decide⟩ = .ok (synced, 3) := by
  constructor
  · have prompt : (Timers.new .wallClock second).Prompt looks :=
      ⟨by decide, by decide, by decide, trivial⟩
    rcases (periods_add_up second).2 looks prompt with ⟨final, told, followed, accounts⟩
    have total : sumTold told = 2 := accounts.total
    have spared : ∀ event ∈ looks.tail, event.Spares .delay := by
      simp [looks, TimerEvent.Spares]
    refine ⟨final, told, followed, total, ?_⟩
    rw [accounts.count .delay [] 10 looks.tail rfl spared]
    exact congrArg (10 - ·) total
  · have prompt : (Timers.new .wallClock second).Prompt [.sync ⟨1010000000, by decide⟩] :=
      ⟨by decide, trivial⟩
    rcases (periods_add_up second).2 _ prompt with ⟨final, told, followed, accounts⟩
    have moves : (Clock.mk ⟨1010000000, by decide⟩).advancePeriods 3 =
        .ok ⟨⟨1059999998, by decide⟩⟩ := by
      rw [Clock.advancePeriods_eq_ok_iff]
      rfl
    exact ⟨final, told, followed, accounts.total, accounts.next (by decide) _ _ 3 rfl moves⟩

end Timers

end Chip8

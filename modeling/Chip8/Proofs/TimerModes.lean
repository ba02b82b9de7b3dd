import Chip8.Proofs.KeyWait
import Chip8.Proofs.Likeness
import Chip8.Proofs.Settings
import Chip8.Proofs.TimerPace
import Mathlib

/-!
# The two ways to drive the timers

Timers driven by the steps lose one period at each. Timers driven by the clock do the same if the
clock moves on by one period before each step and stands still otherwise. The moment of their last
update then is that of the clock, but for a machine at fault: its steps leave the timers behind,
and a reset catches up.

A run is regular if each of its steps takes one period off the timers or is refused. On a regular
run the clock tells a machine nothing, so regular runs of the same actions are alike apart from it.
-/

namespace Chip8

/-! ## One period -/

/-- The moments of the script are those of a clock that is moved on by one period before each
step, and at no other time. -/
def Clock.Paces (clock : Clock) : List Event → Prop
  | [] => True
  | event :: script =>
    ∃ moved, (event.action = .step → clock.advancePeriods 1 = .ok moved) ∧
      (event.action ≠ .step → moved = clock) ∧ event.now = moved.now ∧ Paces moved script

namespace Timers

variable {timers other : Timers} {now later : Time}

theorem periods_of_one_period (driven : timers.mode = .wallClock)
    (elapsed : now.nanoseconds = timers.lastUpdated.nanoseconds + 16666666) :
    timers.periods now = 1 := by
  rw [← UInt64.toNat_inj]
  simp only [periods, driven, toNat_elapsedPeriods]
  simp [elapsed]

theorem lastUpdated_settled_of_one_period (driven : timers.mode = .wallClock)
    (elapsed : now.nanoseconds = timers.lastUpdated.nanoseconds + 16666666) :
    (timers.settled now).lastUpdated = now := by
  have one := periods_of_one_period driven elapsed
  simp only [periods, driven] at one
  rw [lastUpdated_settled driven, Time.mk.injEq, nanoseconds_moved, one, elapsed]
  rfl

/-- The counts do not tell how it came that they lost one period. -/
theorem settled_apartFrom_clock (like : timers.apartFrom .clock = other.apartFrom .clock)
    (one : timers.periods now = 1) (other_one : other.periods later = 1) :
    (timers.settled now).apartFrom .clock = (other.settled later).apartFrom .clock := by
  have counts : ∀ channel, (timers.settled now).countdown channel =
      (other.settled later).countdown channel := by
    intro channel
    rw [countdown_settled, countdown_settled, one, other_one]
    cases channel with
    | delay => rw [show timers.countdown .delay = other.countdown .delay from
        congrArg (·.delay) like]
    | sound => rw [show timers.countdown .sound = other.countdown .sound from
        congrArg (·.sound) like]
  simp only [apartFrom, mk.injEq, and_true]
  exact ⟨counts .delay, counts .sound⟩

end Timers

namespace Machine

variable {machine : Machine} {now later : Time}

/-- No instruction sets both timers, and none sets more of them than a count. -/
theorem exists_agrees_execute (machine : Machine) (instruction : Instruction) (pc : Address) :
    ∃ channel, machine.timers.Agrees channel (machine.execute instruction pc).machine.timers := by
  by_cases delay : ∃ x, instruction = .setting .delay x
  · rcases delay with ⟨x, rfl⟩
    exact ⟨.sound, agrees_execute nofun⟩
  · exact ⟨.delay, agrees_execute fun x set => delay ⟨x, set⟩⟩

theorem periods_execute (instruction : Instruction) (pc : Address) (now : Time) :
    (machine.execute instruction pc).machine.timers.periods now = machine.timers.periods now := by
  rcases machine.exists_agrees_execute instruction pc with ⟨channel, agrees⟩
  exact agrees.periods_eq now

theorem periods_runInstruction (machine : Machine) (now : Time) :
    machine.runInstruction.machine.timers.periods now = machine.timers.periods now := by
  have executed := @periods_execute machine.advance (.decode machine.currentWord) machine.pc now
  simp only [runInstruction, fetch]
  split
  · exact executed
  · exact executed

theorem periods_pollKey (machine : Machine) (register : UInt8) (held : UInt16) (now : Time) :
    (machine.pollKey register held).machine.timers.periods now = machine.timers.periods now := by
  simp only [pollKey]
  split <;> rfl

/-! ## Regular runs -/

/-- A step at this moment takes one period off the timers, or the machine is at fault. -/
def OnePeriod (machine : Machine) (now : Time) : Prop :=
  (∃ cause, machine.state = .faulted cause) ∨ machine.timers.periods now = 1

/-- Every step of the script takes one period off the timers or is refused. -/
def Regular : Machine → List Event → Prop
  | _, [] => True
  | machine, event :: script =>
    (event.action = .step → machine.OnePeriod event.now) ∧
      Regular (machine.perform event.now event.action).machine script

theorem OnePeriod.periods_eq (regular : machine.OnePeriod now)
    (moving : ∀ cause, machine.state ≠ .faulted cause) : machine.timers.periods now = 1 := by
  rcases regular with ⟨cause, halted⟩ | one
  · exact absurd halted (moving cause)
  · exact one

theorem step_apartFrom_clock (regular : machine.OnePeriod now) (later : Time) :
    ((machine.apartFrom .clock).step later).apartFrom .clock =
      (machine.step now).apartFrom .clock := by
  have same : (machine.apartFrom .clock).state = machine.state := rfl
  simp only [step, same]
  cases state : machine.state with
  | running =>
      have like := machine.runInstruction_apartFrom .clock
      apply Report.synced_apartFrom like
      apply Timers.settled_apartFrom_clock (congrArg (·.machine.timers) like)
      · rw [periods_runInstruction]
        rfl
      · rw [periods_runInstruction, regular.periods_eq (by simp [state])]
  | awaitingKey register held =>
      have like := machine.pollKey_apartFrom .clock register held
      apply Report.synced_apartFrom like
      apply Timers.settled_apartFrom_clock (congrArg (·.machine.timers) like)
      · rw [periods_pollKey]
        rfl
      · rw [periods_pollKey, regular.periods_eq (by simp [state])]
  | faulted cause => rfl

/-- Regular runs of the same actions from machines that are alike apart from the clock give the
same answers and end alike, whatever the moments. -/
theorem replies_eq_of_regular {first second : Machine} {script other : List Event}
    (like : first.apartFrom .clock = second.apartFrom .clock)
    (sameActions : script.map Event.action = other.map Event.action)
    (regular : first.Regular script) (otherRegular : second.Regular other) :
    first.replies script = second.replies other ∧
      (first.play script).apartFrom .clock = (second.play other).apartFrom .clock := by
  induction script generalizing first second other with
  | nil =>
      rw [List.map_nil, eq_comm, List.map_eq_nil_iff] at sameActions
      rw [sameActions]
      exact ⟨rfl, like⟩
  | cons event script ih =>
      cases other with
      | nil => cases sameActions
      | cons twin other =>
          rw [List.map_cons, List.map_cons, List.cons.injEq] at sameActions
          rcases sameActions with ⟨sameAction, sameActions⟩
          have performed : (first.perform event.now event.action).apartFrom .clock =
              (second.perform twin.now twin.action).apartFrom .clock := by
            have one := first.perform_apartFrom_of_step (by simp) fun step =>
              step_apartFrom_clock (regular.1 step) twin.now
            have other_one := second.perform_apartFrom_of_step (by simp) fun step =>
              step_apartFrom_clock (otherRegular.1 step) twin.now
            rw [← one, like, sameAction, other_one]
          simp only [Report.apartFrom, Report.mk.injEq] at performed
          rcases performed with ⟨machine_eq, result_eq, log_eq⟩
          rcases ih machine_eq sameActions regular.2 otherRegular.2 with ⟨replies_eq, played⟩
          refine ⟨?_, played⟩
          simp only [replies, result_eq, log_eq, replies_eq]

/-! ## Timers driven by the steps -/

theorem regular_of_perStep (driven : machine.timers.mode = .perStep) (script : List Event) :
    machine.Regular script := by
  induction script generalizing machine with
  | nil => trivial
  | cons event script ih =>
      constructor
      · intro _
        right
        simp [Timers.periods, driven]
      · apply ih
        rw [mode_perform, driven]

/-! ## Timers driven by a clock -/

/-- The machine is at fault, or its timers have been brought up to date at the moment. -/
def UpToDate (machine : Machine) (moment : Time) : Prop :=
  (∃ cause, machine.state = .faulted cause) ∨ machine.timers.lastUpdated = moment

theorem onePeriod_of_upToDate (driven : machine.timers.mode = .wallClock)
    (upToDate : machine.UpToDate now)
    (elapsed : later.nanoseconds = now.nanoseconds + 16666666) : machine.OnePeriod later := by
  rcases upToDate with halted | last
  · exact Or.inl halted
  · rw [← last] at elapsed
    exact Or.inr (Timers.periods_of_one_period driven elapsed)

theorem UpToDate.lastUpdated_settled {channel : Channel} {timers : Timers}
    (upToDate : machine.UpToDate now) (moving : ∀ cause, machine.state ≠ .faulted cause)
    (driven : machine.timers.mode = .wallClock)
    (elapsed : later.nanoseconds = now.nanoseconds + 16666666)
    (agrees : machine.timers.Agrees channel timers) :
    (timers.settled later).lastUpdated = later := by
  rcases upToDate with ⟨cause, halted⟩ | last
  · exact absurd halted (moving cause)
  · apply Timers.lastUpdated_settled_of_one_period
    · rw [agrees.mode, driven]
    · rw [agrees.lastUpdated, last, elapsed]

theorem UpToDate.step (upToDate : machine.UpToDate now) (driven : machine.timers.mode = .wallClock)
    (elapsed : later.nanoseconds = now.nanoseconds + 16666666) :
    (machine.step later).machine.UpToDate later := by
  have kept := Timers.Agrees.refl .delay machine.timers
  cases machine.stepCase later with
  | executed running free result_eq machine_eq =>
      rcases machine.advance.exists_agrees_execute (.decode machine.currentWord) machine.pc with
        ⟨channel, agrees⟩
      right
      rw [machine_eq]
      exact upToDate.lastUpdated_settled (by simp [running]) driven elapsed agrees
  | blocked fault running blocked result_eq machine_eq =>
      left
      rw [machine_eq]
      exact ⟨fault, rfl⟩
  | waited register held waiting quiet result_eq machine_eq
  | taken register held key waiting pressed result_eq machine_eq =>
      right
      rw [machine_eq]
      exact upToDate.lastUpdated_settled (by simp [waiting]) driven elapsed kept
  | halted cause halted result_eq machine_eq =>
      left
      rw [machine_eq]
      exact ⟨cause, halted⟩

theorem UpToDate.write {action : Action} (upToDate : machine.UpToDate now)
    (write : action.IsWrite) : (machine.perform later action).machine.UpToDate now := by
  rcases machine.exists_perform_eq_of_isWrite later write with ⟨memory, keypad, dirty, written⟩
  rw [written]
  exact upToDate

theorem regular_of_paces {clock : Clock} {script : List Event}
    (driven : machine.timers.mode = .wallClock) (upToDate : machine.UpToDate clock.now)
    (drives : ∀ event ∈ script, event.action.Drives) (paces : clock.Paces script) :
    machine.Regular script := by
  induction script generalizing machine clock with
  | nil => trivial
  | cons event script ih =>
      rw [List.forall_mem_cons] at drives
      rcases paces with ⟨moved, moves, stands, moment, paces⟩
      have elapsed : event.action = .step →
          event.now.nanoseconds = clock.now.nanoseconds + 16666666 := by
        intro step
        rw [moment]
        exact Clock.advancePeriods_eq_ok_iff.mp (moves step)
      constructor
      · intro step
        exact onePeriod_of_upToDate driven upToDate (elapsed step)
      · apply ih _ _ drives.2 paces
        · rw [mode_perform, driven]
        · rw [← moment]
          rcases drives.1 with (write | step) | reset
          · rw [moment, stands (by rintro step; rw [step] at write; cases write)]
            exact upToDate.write write
          · rw [step]
            exact upToDate.step driven (elapsed step)
          · rw [reset]
            exact Or.inr rfl

/-- Timers driven by the steps and timers driven by a clock that is moved on by one period before
each step give the host the same answers and leave machines that are alike apart from the clock.
If the steps drive the timers the moments do not matter at all. -/
theorem timerModes_agree {script paced : List Event} {clock : Clock} (dialect : Dialect)
    (seed otherSeed : Option UInt64) (random : Source UInt32) (start : Time)
    (drives : ∀ event ∈ paced, event.action.Drives)
    (sameActions : script.map Event.action = paced.map Event.action)
    (paces : clock.Paces paced) :
    let perStep := Machine.new ⟨.perStep, dialect, seed⟩ random
    let wallClock := Machine.new ⟨.wallClock, dialect, otherSeed⟩ random
    (perStep start).replies script = (wallClock clock.now).replies paced ∧
      ((perStep start).play script).apartFrom .clock =
        ((wallClock clock.now).play paced).apartFrom .clock ∧
      ∀ (otherStart : Time) (first second : List Event),
        first.map Event.action = second.map Event.action →
        (perStep start).replies first = (perStep otherStart).replies second ∧
          ((perStep start).play first).apartFrom .clock =
            ((perStep otherStart).play second).apartFrom .clock := by
  intro perStep wallClock
  have like : (perStep start).apartFrom .clock = (wallClock clock.now).apartFrom .clock := rfl
  have regular := @regular_of_perStep (perStep start) rfl script
  have paced_regular := @regular_of_paces (wallClock clock.now) clock paced rfl (Or.inr rfl) drives
    paces
  rcases replies_eq_of_regular like sameActions regular paced_regular with ⟨replies_eq, alike⟩
  refine ⟨replies_eq, alike, ?_⟩
  intro otherStart first second sameFirst
  exact replies_eq_of_regular rfl sameFirst (regular_of_perStep rfl first)
    (regular_of_perStep rfl second)

theorem periods_le_largest (count : Fin 4) : 16666666 * count.val ≤ Time.largest := by
  have small := count.isLt
  simp only [Time.largest]
  omega

/-- The moment after a number of periods. -/
def afterPeriods (count : Fin 4) : Time :=
  ⟨16666666 * count.val, periods_le_largest count⟩

/-- A return that nothing called for, a step that is refused, a reset and one step more. -/
def relapse : List Event :=
  [⟨afterPeriods 0, .loadProgram [0x00, 0xEE]⟩, ⟨afterPeriods 1, .step⟩, ⟨afterPeriods 2, .step⟩,
    ⟨afterPeriods 2, .reset⟩, ⟨afterPeriods 3, .step⟩]

theorem paces_relapse : Clock.new.Paces relapse := by
  have next : ∀ clock moved : Clock, moved.now.nanoseconds = clock.now.nanoseconds + 16666666 →
      clock.advancePeriods 1 = .ok moved := by
    intro clock moved elapsed
    exact Clock.advancePeriods_eq_ok_iff.mpr elapsed
  refine ⟨Clock.new, by simp, fun _ => rfl, rfl, ?_⟩
  refine ⟨⟨afterPeriods 1⟩, fun _ => next _ _ rfl, fun other => absurd rfl other, rfl, ?_⟩
  refine ⟨⟨afterPeriods 2⟩, fun _ => next _ _ rfl, fun other => absurd rfl other, rfl, ?_⟩
  refine ⟨⟨afterPeriods 2⟩, by simp, fun _ => rfl, rfl, ?_⟩
  exact ⟨⟨afterPeriods 3⟩, fun _ => next _ _ rfl, fun other => absurd rfl other, rfl, trivial⟩

/-- The steps of a machine at fault leave its timers behind, and still the answers are the same. -/
theorem timerModes_agree_on_relapse :
    (Machine.new ⟨.perStep, .plain, none⟩ (.constant 0) .zero).replies relapse =
      (Machine.new ⟨.wallClock, .plain, none⟩ (.constant 0) .zero).replies relapse := by
  have drives : ∀ event ∈ relapse, event.action.Drives := by
    simp [relapse, Action.Drives, Action.Continues, Action.IsWrite]
  exact (timerModes_agree .plain none none (.constant 0) .zero drives rfl paces_relapse).1

end Machine

end Chip8

import Chip8.Proofs.Footprint
import Chip8.Proofs.Likeness
import Mathlib

/-!
# The draw flag as a signal

Every action of the host either raises the draw flag or leaves the whole screen as it is, clearing
the flag apart. So while the flag is down, the cells are those that the host saw when it last
cleared the flag, and a host that copies the cells and clears the flag whenever it finds the flag up
has a true picture. Clearing the flag touches nothing that any other action asks for, so it can be
put into a script or taken out of it anywhere.
-/

namespace Chip8

def Action.clears : Action → Bool
  | .clearDrawFlag => true
  | _ => false

/-- The events of a script in which the host does something else than clear the draw flag. -/
def withoutClearing (script : List Event) : List Event :=
  script.filter fun event => !event.action.clears

def NeverClears (script : List Event) : Prop :=
  ∀ event ∈ script, event.action.clears = false

namespace Machine

/-- The word due clears the screen or paints on it. -/
def Redraws (machine : Machine) : Prop :=
  let word := machine.memory.number machine.pc.toNat
  machine.state = .running ∧ (word = 0x00E0 ∨ Word.family word = 0xD)

/-- What the host learns along a script from everything but clearing the draw flag. -/
def findings (machine : Machine) (script : List Event) :
    List (Except Failure Answer × List LogRecord) :=
  ((script.zip (machine.replies script)).filter fun (event, _) => !event.action.clears).map Prod.snd

variable {machine : Machine} {now : Time}

/-! ## One action -/

theorem obstacle_of_redraws {instruction : Instruction}
    (redraws : instruction.outcome.redraws = true) (machine : Machine) (pc : Address) :
    machine.obstacle pc instruction = none := by
  cases instruction with
  | ret | call | jumpOffset => cases redraws
  | _ => rfl

theorem redraws_decode_iff (running : machine.state = .running) :
    (Instruction.decode machine.currentWord).outcome.redraws = true ↔ machine.Redraws := by
  have due : machine.currentWord.toNat = machine.memory.number machine.pc.toNat :=
    machine.toNat_currentWord
  rw [redraws_iff (Instruction.form_decode machine.currentWord) machine.currentWord.toNat_lt, due]
  simp only [Redraws, running, true_and]

theorem dirty_step_of_redraws (redraws : machine.Redraws) (now : Time) :
    (machine.step now).machine.screen.dirty = true := by
  have running := redraws.1
  have drawn := (redraws_decode_iff running).mpr redraws
  have free := obstacle_of_redraws drawn machine machine.pc
  rw [(step_of_obstacle_eq_none now running free).2]
  refine (dirty_execute machine.advance _ machine.pc).trans ?_
  rw [drawn, Bool.true_or]

theorem screen_step_of_not_redraws (quiet : ¬machine.Redraws) (now : Time) :
    (machine.step now).machine.screen = machine.screen := by
  cases machine.stepCase now with
  | executed running free result_eq machine_eq =>
      rw [← redraws_decode_iff running, Bool.not_eq_true] at quiet
      rw [machine_eq]
      exact screen_execute_of_quiet quiet machine.advance machine.pc
  | blocked fault running blocked result_eq machine_eq
  | waited register held waiting unpressed result_eq machine_eq
  | taken register held key waiting pressed result_eq machine_eq
  | halted cause halted result_eq machine_eq =>
      rw [machine_eq]

/-- An action other than clearing the draw flag raises it or leaves the screen as it is. -/
theorem screen_perform {action : Action} (other : action.clears = false) (machine : Machine)
    (now : Time) :
    (machine.perform now action).machine.screen.dirty = true ∨
      (machine.perform now action).machine.screen = machine.screen := by
  cases action with
  | step =>
      by_cases redraws : machine.Redraws
      · exact Or.inl (dirty_step_of_redraws redraws now)
      · exact Or.inr (screen_step_of_not_redraws redraws now)
  | execute instruction pc =>
      cases redraws : instruction.outcome.redraws with
      | true =>
          left
          refine (dirty_execute machine instruction pc).trans ?_
          rw [redraws, Bool.true_or]
      | false => exact Or.inr (screen_execute_of_quiet redraws machine pc)
  | reset => exact Or.inl rfl
  | loadProgram program =>
      right
      simp only [perform, Report.map, loadProgram]
      split <;> rfl
  | clearDrawFlag => cases other
  | _ => exact Or.inr rfl

theorem dirty_perform_of_dirty {action : Action} (other : action.clears = false)
    (raised : machine.screen.dirty = true) (now : Time) :
    (machine.perform now action).machine.screen.dirty = true := by
  rcases screen_perform other machine now with raisedNow | same
  · exact raisedNow
  · rw [same, raised]

/-! ## Scripts that do not clear the flag -/

theorem screen_play {script : List Event} (kept : NeverClears script) (machine : Machine) :
    (machine.play script).screen.dirty = true ∨
      (machine.play script).screen = machine.screen := by
  induction script generalizing machine with
  | nil => exact Or.inr rfl
  | cons event script ih =>
      rw [NeverClears, List.forall_mem_cons] at kept
      rcases ih kept.2 (machine.perform event.now event.action).machine with raised | same
      · exact Or.inl raised
      · rw [play, same]
        exact screen_perform kept.1 machine event.now

theorem cells_play_of_down {script : List Event} (kept : NeverClears script)
    (down : (machine.play script).screen.dirty = false) :
    machine.screen.dirty = false ∧ (machine.play script).screen.cells = machine.screen.cells := by
  rcases screen_play kept machine with raised | same
  · rw [raised] at down
    cases down
  · rw [same] at down ⊢
    exact ⟨down, rfl⟩

/-! ## Clearing the flag or not -/

theorem replies_withoutClearing (machine : Machine) (script : List Event) :
    machine.replies (withoutClearing script) = machine.findings script ∧
      (machine.play (withoutClearing script)).apartFrom .drawFlag =
        (machine.play script).apartFrom .drawFlag := by
  induction script generalizing machine with
  | nil => exact ⟨rfl, rfl⟩
  | cons event script ih =>
      rcases event with ⟨now, action⟩
      cases clears : action.clears with
      | true =>
          have same : action = .clearDrawFlag := by
            cases action with
            | clearDrawFlag => rfl
            | _ => cases clears
          subst same
          -- The shorter script starts before the flag is cleared, which its replies do not tell.
          have like : machine.apartFrom .drawFlag = machine.clearDrawFlag.apartFrom .drawFlag := rfl
          have alike := replies_eq_of_apartFrom_eq (by simp) like (withoutClearing script)
          rcases ih machine.clearDrawFlag with ⟨replies_eq, played⟩
          exact ⟨alike.1.trans replies_eq, alike.2.trans played⟩
      | false =>
          have kept : withoutClearing (⟨now, action⟩ :: script) =
              ⟨now, action⟩ :: withoutClearing script := by
            simp [withoutClearing, clears]
          rcases ih (machine.perform now action).machine with ⟨replies_eq, played⟩
          rw [kept]
          refine ⟨?_, played⟩
          simp only [replies, findings, List.zip_cons_cons, List.filter_cons, clears, Bool.not_false,
            if_true, List.map_cons, List.cons.injEq, true_and]
          exact replies_eq

end Machine

/-! ## A host that keeps a picture -/

/-- A host that keeps a copy of the cells. -/
structure Viewer where
  machine : Machine
  picture : Vector UInt8 2048

namespace Viewer

/-- Looks at the draw flag, and if it is up, copies the cells and clears it. -/
def look (viewer : Viewer) : Viewer :=
  if viewer.machine.screen.dirty then
    ⟨viewer.machine.clearDrawFlag, viewer.machine.screen.cells⟩
  else
    viewer

def act (viewer : Viewer) (script : List Event) : Viewer :=
  { viewer with machine := viewer.machine.play script }

/-- Carries out scripts one after the other and looks after each. -/
def watch (viewer : Viewer) : List (List Event) → Viewer
  | [] => viewer
  | script :: rounds => ((viewer.act script).look).watch rounds

/-- While the flag is down the picture is true. -/
def Informed (viewer : Viewer) : Prop :=
  viewer.machine.screen.dirty = false → viewer.machine.screen.cells = viewer.picture

theorem Informed.act {viewer : Viewer} (informed : viewer.Informed) {script : List Event}
    (kept : NeverClears script) : (viewer.act script).Informed := by
  intro down
  rcases Machine.cells_play_of_down kept down with ⟨downBefore, same⟩
  exact same.trans (informed downBefore)

theorem Informed.look {viewer : Viewer} (informed : viewer.Informed) :
    viewer.look.machine.screen.dirty = false ∧
      viewer.look.machine.screen.cells = viewer.look.picture := by
  unfold Viewer.look
  split
  · exact ⟨rfl, rfl⟩
  · rename_i down
    rw [Bool.not_eq_true] at down
    exact ⟨down, informed down⟩

theorem Informed.watch {viewer : Viewer} (informed : viewer.Informed) {rounds : List (List Event)}
    (kept : ∀ script ∈ rounds, NeverClears script) : (viewer.watch rounds).Informed := by
  induction rounds generalizing viewer with
  | nil => exact informed
  | cons script rounds ih =>
      rw [List.forall_mem_cons] at kept
      apply ih _ kept.2
      intro _
      exact (informed.act kept.1).look.2

end Viewer

namespace Machine

/-! ## All runs -/

/-- After a script from the machine just switched on, the draw flag tells whether the cells may have
changed, and its being cleared or not makes no difference to anything else. -/
structure Signals (fresh : Machine) (script : List Event) : Prop where
  dark : NeverClears script → (fresh.play script).screen.dirty = false →
    (fresh.play script).screen.cells = Vector.replicate 2048 0
  seen : ∀ earlier now later, script = earlier ++ ⟨now, .clearDrawFlag⟩ :: later →
    NeverClears later → (fresh.play script).screen.dirty = false →
    (fresh.play script).screen.cells = (fresh.play earlier).screen.cells
  redrawn : ∀ now, (fresh.play script).Redraws →
    ((fresh.play script).step now).machine.screen.dirty = true
  quiet : ∀ now, ¬(fresh.play script).Redraws →
    ((fresh.play script).step now).machine.screen = (fresh.play script).screen
  raised : ∀ now action, action.clears = false → (fresh.play script).screen.dirty = true →
    ((fresh.play script).perform now action).machine.screen.dirty = true
  unnoticed : ∀ other, withoutClearing script = withoutClearing other →
    fresh.findings script = fresh.findings other ∧
      (fresh.play script).apartFrom .drawFlag = (fresh.play other).apartFrom .drawFlag

theorem signals (config : Config) (random : Source UInt32) (start : Time) (script : List Event) :
    (Machine.new config random start).Signals script where
  dark kept down := (cells_play_of_down kept down).2
  seen := by
    rintro earlier now later rfl kept down
    rw [play_append] at down ⊢
    have cleared := @cells_play_of_down
      ((Machine.new config random start).play earlier).clearDrawFlag later kept down
    exact cleared.2
  redrawn now redraws := dirty_step_of_redraws redraws now
  quiet now quiet := screen_step_of_not_redraws quiet now
  raised now action other raised := dirty_perform_of_dirty other raised now
  unnoticed other same := by
    have first := replies_withoutClearing (.new config random start) script
    have second := replies_withoutClearing (.new config random start) other
    rw [same] at first
    exact ⟨first.1.symm.trans second.1, first.2.symm.trans second.2⟩

/-- On every run from a machine just switched on the draw flag signals changes of the screen. A host
that copies the cells and clears the flag whenever it finds the flag up has a true picture whenever
the flag is down, which it is after each look. -/
theorem drawFlag_tells_changes (config : Config) (random : Source UInt32) (start : Time) :
    let fresh := Machine.new config random start
    (∀ script, fresh.Signals script) ∧
      ∀ rounds script, (∀ round ∈ rounds, NeverClears round) → NeverClears script →
        let viewer := ((Viewer.mk fresh (Vector.replicate 2048 0)).watch rounds).act script
        viewer.Informed ∧ viewer.look.Informed ∧ viewer.look.machine.screen.dirty = false := by
  intro fresh
  constructor
  · intro script
    exact signals config random start script
  · intro rounds script allKept kept viewer
    have first : (Viewer.mk fresh (Vector.replicate 2048 0)).Informed := fun _ => rfl
    have informed : viewer.Informed := (first.watch allKept).act kept
    rcases informed.look with ⟨down, same⟩
    exact ⟨informed, fun _ => same, down⟩

/-- A program that paints a sprite without rows. -/
def emptySprite : Machine :=
  (Machine.new .standard (.constant 0) .zero).play [⟨.zero, .loadProgram [0xD1, 0x20]⟩]

/-- Painting no rows raises the flag like any other painting. -/
theorem emptySprite_raises_flag :
    emptySprite.screen.dirty = false ∧ (emptySprite.step .zero).machine.screen.dirty = true := by
  have memory_eq : emptySprite.memory = Memory.empty.write 512 [0xD1, 0x20] := rfl
  have word : emptySprite.currentWord.toNat = 0xD120 := toNat_currentWord_of_write memory_eq rfl
  have redraws : emptySprite.Redraws := by
    rw [toNat_currentWord] at word
    rw [Redraws, word]
    exact ⟨rfl, Or.inr rfl⟩
  have signals := (drawFlag_tells_changes .standard (.constant 0) .zero).1
    [⟨.zero, .loadProgram [0xD1, 0x20]⟩]
  refine ⟨rfl, ?_⟩
  unfold emptySprite at redraws ⊢
  exact signals.redrawn .zero redraws

end Machine

end Chip8

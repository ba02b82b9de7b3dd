import Chip8.Proofs.KeyWait
import Mathlib

/-!
# Calls and their returns

A step moves the call stack by at most one address: it leaves the stack as it is, holds one more
address, or gives back the newest one and goes on there. So the addresses that a stack holds at
some moment stay below all that is held later, until a return reaches the newest of them. If a
call has left that one, the return goes on after the call.
-/

namespace Chip8

namespace Machine

variable {machine : Machine} {instruction : Instruction} {pc : Address} {now : Time}

/-! ## One step -/

/-- Only calls and returns move the call stack. -/
theorem stack_execute (notReturn : instruction ≠ .ret)
    (notCall : ∀ target, instruction ≠ .call target) :
    (machine.execute instruction pc).machine.stack = machine.stack := by
  cases instruction with
  | ret => exact absurd rfl notReturn
  | call target => exact absurd rfl (notCall target)
  | skip | jumpOffset =>
      simp only [execute]
      split <;> rfl
  | _ => rfl

theorem stack_execute_ret (depth_le : machine.stack.depth ≤ 16) (pc : Address) :
    (machine.execute .ret pc).machine.stack = machine.stack ∨
      ∃ address,
        machine.stack.toList = (machine.execute .ret pc).machine.stack.toList ++ [address] ∧
          (machine.execute .ret pc).machine.pc = address.wrap := by
  simp only [execute]
  split
  · rename_i address stack popped
    exact Or.inr ⟨address, CallStack.toList_pop depth_le popped, rfl⟩
  · exact Or.inl rfl

theorem stack_execute_call (machine : Machine) (target pc : Address) :
    (machine.execute (.call target) pc).machine.stack = machine.stack ∨
      (machine.execute (.call target) pc).machine.stack.toList =
        machine.stack.toList ++ [machine.pc] := by
  simp only [execute]
  split
  · rename_i stack pushed
    exact Or.inr (CallStack.toList_push pushed)
  · exact Or.inl rfl

/-- The step gives the newest address back and goes on there. -/
structure Returns (machine : Machine) (now : Time) (address : Address) : Prop where
  running : machine.state = .running
  due : Instruction.decode machine.currentWord = .ret
  result_eq : (machine.step now).result = .ok (.executed .ret)
  stack_eq : machine.stack.toList = (machine.step now).machine.stack.toList ++ [address]
  pc_eq : (machine.step now).machine.pc = address.wrap

/-- The ways a step can move the call stack. -/
theorem stack_step (depth_le : machine.stack.depth ≤ 16) (now : Time) :
    (machine.step now).machine.stack = machine.stack ∨
      (∃ address, (machine.step now).machine.stack.toList = machine.stack.toList ++ [address]) ∨
      ∃ address, machine.Returns now address := by
  cases machine.stepCase now with
  | executed running free result_eq machine_eq =>
      cases due : Instruction.decode machine.currentWord with
      | ret =>
          rw [due] at result_eq machine_eq
          rcases @stack_execute_ret machine.advance depth_le machine.pc with
            kept | ⟨address, taken, gone⟩
          · left
            rw [machine_eq]
            exact kept
          · right
            right
            refine ⟨address, running, due, result_eq, ?_, ?_⟩
            · rw [machine_eq]
              exact taken
            · rw [machine_eq]
              exact gone
      | call target =>
          rw [due] at machine_eq
          rcases machine.advance.stack_execute_call target machine.pc with kept | pushed
          · left
            rw [machine_eq]
            exact kept
          · right
            left
            rw [machine_eq]
            exact ⟨machine.advance.pc, pushed⟩
      | _ =>
          left
          rw [machine_eq]
          exact stack_execute (by simp [due]) (by simp [due])
  | blocked fault running blocked result_eq machine_eq
  | waited register held waiting quiet result_eq machine_eq
  | taken register held key waiting pressed result_eq machine_eq
  | halted cause halted result_eq machine_eq =>
      left
      rw [machine_eq]

/-- A call with a place left holds the address after it. -/
theorem step_of_call {target : Address} (running : machine.state = .running)
    (due : Instruction.decode machine.currentWord = .call target)
    (room : machine.stack.depth < 16) (now : Time) :
    (machine.step now).result = .ok (.executed (.call target)) ∧
      (machine.step now).machine.stack.toList =
        machine.stack.toList ++ [(machine.pc + 2).wrap] := by
  have free : machine.obstacle machine.pc (.decode machine.currentWord) = none := by
    rw [due]
    simp [obstacle, room]
  have pushed : machine.stack.push (machine.pc + 2).wrap machine.pc =
      .ok ⟨machine.stack.slots.set machine.stack.depth (machine.pc + 2).wrap,
        machine.stack.depth + 1⟩ := by
    simp [CallStack.push, room]
  have stepped := step_of_obstacle_eq_none now running free
  rw [due] at stepped
  refine ⟨stepped.1, ?_⟩
  rw [stepped.2]
  simp only [execute, advance, pushed]
  exact CallStack.toList_push pushed

theorem stack_play_of_isWrite {script : List Event}
    (writes : ∀ event ∈ script, event.action.IsWrite) :
    (machine.play script).stack = machine.stack := by
  apply @play_preserves Action.IsWrite (fun other => other.stack = machine.stack) _ _ _ rfl writes
  intro other now action same write
  rcases other.exists_perform_eq_of_isWrite now write with ⟨memory, keypad, dirty, written⟩
  rw [written]
  exact same

/-! ## While an address is held -/

variable {frames : List Address} {address : Address}

/-- An action that does not take the newest of some addresses away takes none of them. -/
theorem held_perform {action : Action} (wellFormed : machine.WellFormed)
    (held : frames <+: machine.stack.toList) (continues : action.Continues)
    (away : (machine.perform now action).machine.stack.depth + 1 ≠ frames.length) :
    frames <+: (machine.perform now action).machine.stack.toList := by
  rcases continues with write | rfl
  · rcases machine.exists_perform_eq_of_isWrite now write with ⟨memory, keypad, dirty, written⟩
    rw [written]
    exact held
  · change frames <+: (machine.step now).machine.stack.toList
    rcases stack_step wellFormed.stack.depth_le now with kept | ⟨address, pushed⟩ | ⟨address, returns⟩
    · rw [kept]
      exact held
    · rw [pushed]
      exact held.trans (List.prefix_append _ _)
    · have after := (@WellFormed.step _ now wellFormed).stack.depth_le
      rw [returns.stack_eq, List.prefix_concat_iff] at held
      rcases held with all | older
      · apply absurd _ away
        rw [all, List.length_append, CallStack.length_toList after]
        rfl
      · exact older

theorem held_play {script : List Event} (wellFormed : machine.WellFormed)
    (held : frames <+: machine.stack.toList)
    (continues : ∀ event ∈ script, event.action.Continues)
    (away : ∀ earlier, earlier <+: script →
      (machine.play earlier).stack.depth + 1 ≠ frames.length) :
    (machine.play script).WellFormed ∧ frames <+: (machine.play script).stack.toList := by
  induction script generalizing machine with
  | nil => exact ⟨wellFormed, held⟩
  | cons event script ih =>
      rw [List.forall_mem_cons] at continues
      have next := away [event] (by simp)
      apply ih (wellFormed.perform event.action) _ continues.2
      · intro earlier before
        exact away (event :: earlier) (by simpa using before)
      · exact held_perform wellFormed held continues.1 next

/-- An action after which an address is no longer held is the return to it. -/
theorem returns_of_depth_eq {action : Action} (wellFormed : machine.WellFormed)
    (held : frames ++ [address] <+: machine.stack.toList) (continues : action.Continues)
    (back : (machine.perform now action).machine.stack.depth = frames.length) :
    action = .step ∧ machine.Returns now address := by
  have deep := held.length_le
  rw [CallStack.length_toList wellFormed.stack.depth_le, List.length_append,
    List.length_singleton] at deep
  rcases continues with write | rfl
  · rcases machine.exists_perform_eq_of_isWrite now write with ⟨memory, keypad, dirty, written⟩
    rw [written] at back
    simp only at back
    omega
  · change (machine.step now).machine.stack.depth = frames.length at back
    have after := (@WellFormed.step _ now wellFormed).stack.depth_le
    rcases stack_step wellFormed.stack.depth_le now with kept | ⟨newer, pushed⟩ | ⟨newest, returns⟩
    · rw [kept] at back
      omega
    · have longer := congrArg List.length pushed
      rw [CallStack.length_toList after, List.length_append,
        CallStack.length_toList wellFormed.stack.depth_le] at longer
      omega
    · have stack_eq := returns.stack_eq
      rw [stack_eq, List.prefix_concat_iff] at held
      rcases held with all | older
      · have same := List.append_inj_right' all rfl
        cases same
        exact ⟨rfl, returns⟩
      · have short := older.length_le
        rw [CallStack.length_toList after, List.length_append, List.length_singleton] at short
        omega

/-! ## Calls -/

/-- As long as the depth at a call has not come back, all that was held at the call and the
address after it stay held. What brings the depth back is the return that goes on there. -/
theorem call_returns {script : List Event} (reachable : machine.Reachable Action.Bounded)
    (running : machine.state = .running)
    (due : machine.memory.number machine.pc.toNat / 0x1000 = 2)
    (room : machine.stack.depth < 16) (now : Time)
    (continues : ∀ event ∈ script, event.action.Continues)
    (away : ∀ earlier, earlier <+: script →
      ((machine.step now).machine.play earlier).stack.depth ≠ machine.stack.depth) :
    (∃ target, (machine.step now).result = .ok (.executed (.call target))) ∧
      let reached := (machine.step now).machine.play script
      machine.stack.depth < reached.stack.depth ∧
        machine.stack.toList ++ [(machine.pc + 2).wrap] <+: reached.stack.toList ∧
        ∀ later action, action.Continues →
          (reached.perform later action).machine.stack.depth = machine.stack.depth →
          action = .step ∧ reached.state = .running ∧
            reached.memory.number reached.pc.toNat = 0x00EE ∧
            (reached.step later).result = .ok (.executed .ret) ∧
            (reached.step later).machine.pc.toNat = (machine.pc.toNat + 2) % 4096 := by
  have wellFormed := reachable.wellFormed
  have depth_eq := CallStack.length_toList wellFormed.stack.depth_le
  rw [← toNat_currentWord, ← Instruction.exists_decode_eq_call_iff] at due
  rcases due with ⟨target, due⟩
  rcases step_of_call running due room now with ⟨called, stack_eq⟩
  have apart : ∀ earlier, earlier <+: script →
      ((machine.step now).machine.play earlier).stack.depth + 1 ≠
        (machine.stack.toList ++ [(machine.pc + 2).wrap]).length := by
    intro earlier before
    have different := away earlier before
    simp only [List.length_append, depth_eq, List.length_singleton]
    omega
  have kept := @held_play _ (machine.stack.toList ++ [(machine.pc + 2).wrap]) script
    (@WellFormed.step _ now wellFormed) (by rw [stack_eq]) continues apart
  rcases kept with ⟨sound, held⟩
  have deep := held.length_le
  rw [CallStack.length_toList sound.stack.depth_le, List.length_append, depth_eq,
    List.length_singleton] at deep
  refine ⟨⟨target, called⟩, by omega, held, ?_⟩
  intro later action next back
  rcases returns_of_depth_eq sound held next (back.trans depth_eq.symm) with ⟨step, returns⟩
  refine ⟨step, returns.running, ?_, returns.result_eq, ?_⟩
  · rw [← toNat_currentWord, ← Instruction.decode_eq_ret_iff]
    exact returns.due
  · rw [returns.pc_eq, Address.wrap_wrap, Address.toNat_wrap, UInt16.toNat_add]
    simp

/-- A program that calls itself. -/
def selfCalling : Machine :=
  (Machine.new .standard (.constant 0) .zero).play [⟨.zero, .loadProgram [0x22, 0x00]⟩]

/-- The host writes a return over the first word of the program. -/
def overwriting : List Event :=
  [⟨.zero, .writeMemory 512 [0x00, 0xEE]⟩]

theorem isWrite_of_mem_overwriting {event : Event} (among : event ∈ overwriting) :
    event.action.IsWrite := by
  rw [List.mem_singleton.mp among]
  trivial

/-- What the host has written is then executed. -/
theorem depth_step_of_overwriting (running : machine.state = .running) (pc_eq : machine.pc = 0x200)
    (depth_eq : machine.stack.depth = 1) :
    ((machine.play overwriting).perform .zero .step).machine.stack.depth = 0 := by
  have same_pc : (machine.play overwriting).pc = 0x200 := pc_eq
  have memory_eq : (machine.play overwriting).memory =
      machine.memory.write 512 [0x00, 0xEE] := rfl
  have stack_eq : (machine.play overwriting).stack = machine.stack := rfl
  have word : (machine.play overwriting).currentWord = 0x00EE := by
    rw [← UInt16.toNat_inj]
    exact toNat_currentWord_of_write memory_eq same_pc
  have popped : machine.stack.pop 0x200 =
      .ok (machine.stack.slots[0], { machine.stack with depth := 0 }) := by
    simp [CallStack.pop, CallStack.top?, depth_eq]
  have due : Instruction.decode 0x00EE = .ret := rfl
  have free : (machine.play overwriting).obstacle (machine.play overwriting).pc
      (.decode (machine.play overwriting).currentWord) = none := by
    rw [word, due]
    simp [obstacle, CallStack.top?, stack_eq, depth_eq]
  have stepped := (@step_of_obstacle_eq_none (machine.play overwriting) .zero running free).2
  rw [word, due] at stepped
  simp only [perform, Report.map, stepped, execute, advance, stack_eq, same_pc, popped]
  rfl

/-- The return that the host wrote goes on after the call that it overwrote. -/
theorem overwritten_call_returns :
    ((selfCalling.step .zero).machine.play overwriting).stack.depth = 1 ∧
      (((selfCalling.step .zero).machine.play overwriting).step .zero).machine.pc.toNat =
        0x202 := by
  have reachable : selfCalling.Reachable Action.Bounded :=
    ⟨.standard, .constant 0, .zero, _, by simp [Action.Bounded], rfl⟩
  have memory_eq : selfCalling.memory = Memory.empty.write 512 [0x22, 0x00] := rfl
  have word : selfCalling.currentWord = 0x2200 := by
    rw [← UInt16.toNat_inj]
    exact toNat_currentWord_of_write memory_eq rfl
  have due : selfCalling.memory.number selfCalling.pc.toNat / 0x1000 = 2 := by
    rw [← toNat_currentWord, word]
    rfl
  have empty : selfCalling.stack.depth = 0 := rfl
  have called := (@step_of_obstacle_eq_none selfCalling .zero rfl (by rw [word]; rfl)).2
  rw [word] at called
  have depth_eq : (selfCalling.step .zero).machine.stack.depth = 1 := by
    rw [called]
    rfl
  have away : ∀ earlier, earlier <+: overwriting →
      ((selfCalling.step .zero).machine.play earlier).stack.depth ≠ selfCalling.stack.depth := by
    intro earlier before
    rw [stack_play_of_isWrite fun event among => isWrite_of_mem_overwriting (before.subset among),
      depth_eq, empty]
    decide
  have back := @depth_step_of_overwriting (selfCalling.step .zero).machine
    (by rw [called]; rfl) (by rw [called]; rfl) depth_eq
  have protocol := call_returns reachable rfl due (by rw [empty]; decide) .zero
    (fun event among => Or.inl (isWrite_of_mem_overwriting among)) away
  have returned := (protocol.2.2.2 .zero .step (Or.inr rfl) (back.trans empty.symm)).2.2.2.2
  have after : (selfCalling.pc.toNat + 2) % 4096 = 0x202 := rfl
  constructor
  · rw [stack_play_of_isWrite fun event => isWrite_of_mem_overwriting, depth_eq]
  · exact returned.trans after

end Machine

end Chip8

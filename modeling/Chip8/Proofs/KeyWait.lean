import Chip8.Proofs.Fetching
import Chip8.Proofs.Transfers
import Chip8.Proofs.WellFormed
import Mathlib

/-!
# Waiting for a key

An instruction that waits for a key leaves the program counter on itself, so what ends the wait
must be told by the state alone: it holds the keys that were down at the last look. Every look
replaces them. A key is fresh at a look if it is down then and was not at the look before, and
the invariant of the wait is that the state holds the mask of the step before, whatever the host
has written since.
-/

namespace Chip8

/-! ## The lowest key -/

namespace Keypad

variable {word : UInt16} {key : Nibble}

/-- The key is in the word, and no lower key is. -/
def IsLowest (word : UInt16) (key : Nibble) : Prop :=
  word.toNat.testBit key.val ∧ ∀ other < key, ¬word.toNat.testBit other.val

theorem lowest?_eq_none_iff : lowest? word = none ↔ word = 0 := by
  constructor
  · intro missing
    rw [lowest?, List.find?_eq_none] at missing
    apply eq_of_testBit
    intro key
    have clear := missing key (List.mem_finRange key)
    simpa using clear
  · rintro rfl
    decide

theorem lowest?_eq_some_iff : lowest? word = some key ↔ IsLowest word key := by
  rw [lowest?, List.find?_eq_some_iff_getElem, IsLowest]
  constructor
  · rintro ⟨found, place, bound, same, before⟩
    have at_key : place = key.val := by
      simpa [Fin.ext_iff] using same
    refine ⟨found, fun other lower => ?_⟩
    have clear := before other.val (by simpa [at_key] using lower)
    simpa using clear
  · rintro ⟨found, lower⟩
    refine ⟨found, key.val, by simp, by simp, fun place before => ?_⟩
    have clear := lower ⟨place, by omega⟩ before
    simpa using clear

end Keypad

/-- A step and what the host writes between it and the next. -/
structure Round where
  now : Time
  writes : List Event

namespace Machine

variable {machine : Machine} {rounds : Nat → Round} {register : UInt8} {now : Time}

/-- The machine that a step finds, the steps counted from zero. -/
def atStep (machine : Machine) (rounds : Nat → Round) : Nat → Machine
  | 0 => machine
  | count + 1 =>
    ((machine.atStep rounds count).step (rounds count).now).machine.play (rounds count).writes

/-- The keys that are down at a step and were not at the step before. -/
def freshKeys (machine : Machine) (rounds : Nat → Round) (count : Nat) : UInt16 :=
  (machine.atStep rounds (count + 1)).keypad.mask &&&
    ~~~(machine.atStep rounds count).keypad.mask

/-- A step that goes on waiting takes note of the keys that are down. -/
def Waits (machine : Machine) (register : UInt8) (now : Time) : Prop :=
  (machine.step now).result = .ok .awaitingKey ∧
    (machine.step now).machine =
      { machine with
        state := .awaitingKey register machine.keypad.mask
        timers := machine.timers.settled now }

/-- A step that ends the wait stores the key in one register and moves on. -/
structure Takes (machine : Machine) (register : UInt8) (key : Nibble) (now : Time) : Prop where
  told : (machine.step now).result = .ok (.executed (.awaitKey register))
  stored : machine.registers.Gets (machine.step now).machine.registers register
    (UInt8.ofNat key.val)
  moved : (machine.step now).machine =
    { machine with
      registers := (machine.step now).machine.registers
      pc := (machine.pc + 2).wrap
      state := .running
      timers := machine.timers.settled now }

/-! ## One step -/

theorem waits_of_decode_eq_awaitKey (now : Time) (pc_lt : machine.pc.toNat < 4096)
    (running : machine.state = .running)
    (due : Instruction.decode machine.currentWord = .awaitKey register) :
    machine.Waits register now := by
  have free : machine.obstacle machine.pc (.decode machine.currentWord) = none := by
    rw [due]
    rfl
  have back : machine.pc.wrap = machine.pc := Address.wrap_eq_self_iff.mpr pc_lt
  have stepped := step_of_obstacle_eq_none now running free
  rw [due] at stepped
  refine ⟨stepped.1, ?_⟩
  rw [stepped.2]
  simp only [execute, jump, advance, back]

theorem waits_of_no_fresh_key {held : UInt16} (now : Time)
    (waiting : machine.state = .awaitingKey register held)
    (quiet : machine.keypad.mask &&& ~~~held = 0) : machine.Waits register now :=
  step_of_lowest?_eq_none now waiting (Keypad.lowest?_eq_none_iff.mpr quiet)

theorem takes_of_fresh_key {held : UInt16} (now : Time)
    (waiting : machine.state = .awaitingKey register held)
    (pressed : machine.keypad.mask &&& ~~~held ≠ 0) :
    ∃ key, Keypad.IsLowest (machine.keypad.mask &&& ~~~held) key ∧
      machine.Takes register key now := by
  cases found : Keypad.lowest? (machine.keypad.mask &&& ~~~held) with
  | none => exact absurd (Keypad.lowest?_eq_none_iff.mp found) pressed
  | some key =>
      have stepped := step_of_lowest?_eq_some now waiting found
      refine ⟨key, Keypad.lowest?_eq_some_iff.mp found, stepped.1, ?_, ?_⟩
      · rw [stepped.2]
        exact machine.registers.gets_set register _
      · rw [stepped.2]

/-! ## Between two steps -/

/-- What the host writes moves neither the program counter nor the state of execution. -/
theorem perform_of_isWrite {action : Action} (machine : Machine) (now : Time)
    (write : action.IsWrite) :
    (machine.perform now action).machine.pc = machine.pc ∧
      (machine.perform now action).machine.state = machine.state := by
  rcases machine.exists_perform_eq_of_isWrite now write with ⟨memory, keypad, dirty, written⟩
  rw [written]
  exact ⟨rfl, rfl⟩

theorem play_of_isWrite {script : List Event}
    (writes : ∀ event ∈ script, event.action.IsWrite) :
    (machine.play script).pc = machine.pc ∧ (machine.play script).state = machine.state := by
  apply @play_preserves Action.IsWrite (fun other => other.pc = machine.pc ∧
    other.state = machine.state) _ _ _ ⟨rfl, rfl⟩ writes
  intro other now action unmoved write
  have written := perform_of_isWrite other now write
  exact ⟨written.1.trans unmoved.1, written.2.trans unmoved.2⟩

/-! ## Any number of steps -/

theorem atStep_succ_of_waits {count : Nat}
    (writes : ∀ event ∈ (rounds count).writes, event.action.IsWrite)
    (waits : (machine.atStep rounds count).Waits register (rounds count).now) :
    (machine.atStep rounds (count + 1)).pc = (machine.atStep rounds count).pc ∧
      (machine.atStep rounds (count + 1)).state =
        .awaitingKey register (machine.atStep rounds count).keypad.mask := by
  have written := @play_of_isWrite
    ((machine.atStep rounds count).step (rounds count).now).machine _ writes
  rw [waits.2] at written
  simp only [atStep, waits.2]
  exact written

/-- While no key goes down the program counter stays, and the state holds the keys that the
latest step found. -/
theorem atStep_of_quiet (first : machine.Waits register (rounds 0).now)
    (writes : ∀ count, ∀ event ∈ (rounds count).writes, event.action.IsWrite) (count : Nat)
    (quiet : ∀ earlier < count, machine.freshKeys rounds earlier = 0) :
    (machine.atStep rounds (count + 1)).pc = machine.pc ∧
      (machine.atStep rounds (count + 1)).state =
        .awaitingKey register (machine.atStep rounds count).keypad.mask := by
  induction count with
  | zero => exact atStep_succ_of_waits (writes 0) first
  | succ count ih =>
      have held := ih fun earlier before => quiet earlier (by omega)
      have waits := waits_of_no_fresh_key (rounds (count + 1)).now held.2 (quiet count (by omega))
      have next := atStep_succ_of_waits (writes (count + 1)) waits
      exact ⟨next.1.trans held.1, next.2⟩

/-- The wait goes on as long as every step finds only keys that the step before it found, and
the first step that finds another stores the lowest of those and moves on. -/
theorem awaitKey_takes_first_fresh_key {x : UInt8} (reachable : machine.Reachable Action.Bounded)
    (running : machine.state = .running) (fits : x.toNat < 16)
    (due : machine.memory.number machine.pc.toNat = 0xF00A + 256 * x.toNat)
    (writes : ∀ count, ∀ event ∈ (rounds count).writes, event.action.IsWrite) :
    machine.Waits x (rounds 0).now ∧
      ∀ count, (∀ earlier < count, machine.freshKeys rounds earlier = 0) →
        (machine.atStep rounds (count + 1)).pc = machine.pc ∧
          (machine.freshKeys rounds count = 0 →
            (machine.atStep rounds (count + 1)).Waits x (rounds (count + 1)).now) ∧
          (machine.freshKeys rounds count ≠ 0 →
            ∃ key, Keypad.IsLowest (machine.freshKeys rounds count) key ∧
              (machine.atStep rounds (count + 1)).Takes x key (rounds (count + 1)).now ∧
              ((machine.atStep rounds (count + 1)).step (rounds (count + 1)).now).machine.pc.toNat =
                (machine.pc.toNat + 2) % 4096) := by
  have wellFormed := reachable.wellFormed
  rw [← toNat_currentWord, ← Instruction.decode_eq_awaitKey_iff fits] at due
  have first := waits_of_decode_eq_awaitKey (rounds 0).now wellFormed.pc_lt running due
  refine ⟨first, ?_⟩
  intro count quiet
  rcases atStep_of_quiet first writes count quiet with ⟨pc_eq, waiting⟩
  refine ⟨pc_eq, ?_, ?_⟩
  · intro none_fresh
    exact waits_of_no_fresh_key _ waiting none_fresh
  · intro some_fresh
    rcases takes_of_fresh_key (rounds (count + 1)).now waiting some_fresh with
      ⟨key, lowest, takes⟩
    refine ⟨key, lowest, takes, ?_⟩
    have pc_lt := wellFormed.pc_lt
    rw [takes.moved, Address.toNat_wrap, pc_eq, UInt16.toNat_add]
    simp

/-- A program that begins with the wait for a key. -/
def parked : Machine :=
  (Machine.new .standard (.constant 0) .zero).play [⟨.zero, .loadProgram [0xF5, 0x0A]⟩]

/-- The host overwrites that program and presses a key. -/
def disturbance : Round :=
  ⟨.zero, [⟨.zero, .writeMemory 512 [0, 0]⟩, ⟨.zero, .setKey 0xB true⟩]⟩

/-- The key is taken though the instruction that waited for it is gone. -/
theorem awaitKey_takes_key_after_overwriting :
    let overwritten := parked.atStep (fun _ => disturbance) 1
    overwritten.memory.number 512 = 0 ∧ overwritten.Takes 5 0xB .zero ∧
      (overwritten.step .zero).machine.registers.bytes.get 5 = 0xB := by
  intro overwritten
  have reachable : parked.Reachable Action.Bounded :=
    ⟨.standard, .constant 0, .zero, _, by simp [Action.Bounded], rfl⟩
  have memory_eq : parked.memory = Memory.empty.write 512 [0xF5, 0x0A] := rfl
  have loaded : parked.memory.number parked.pc.toNat = 0xF00A + 256 * (5 : UInt8).toNat := by
    have place : parked.pc.toNat = 512 := rfl
    rw [memory_eq, place,
      Memory.number_write .empty 512 512 [0xF5, 0x0A] (by omega) le_rfl rfl rfl]
    rfl
  have written : ∀ count : Nat, ∀ event ∈ ((fun _ => disturbance) count).writes,
      event.action.IsWrite := by
    simp [disturbance, Action.IsWrite]
  have protocol := awaitKey_takes_first_fresh_key reachable rfl (by decide) loaded written
  have parked_after := protocol.1.2
  have memory_after : overwritten.memory = parked.memory.write 512 [0, 0] := by
    simp only [overwritten, atStep, disturbance, play, perform] at parked_after ⊢
    rw [parked_after]
    rfl
  have fresh : parked.freshKeys (fun _ => disturbance) 0 = 0x800 := by
    simp only [freshKeys, atStep, disturbance, play, perform] at parked_after ⊢
    rw [parked_after]
    rfl
  rcases (protocol.2 0 (by simp)).2.2 (by rw [fresh]; decide) with ⟨key, lowest, taken, -⟩
  rw [fresh, ← Keypad.lowest?_eq_some_iff] at lowest
  cases lowest
  have takes : overwritten.Takes 5 0xB .zero := taken
  refine ⟨?_, takes, takes.stored.named⟩
  rw [memory_after, Memory.number_write _ 512 512 [0, 0] (by omega) le_rfl rfl rfl]
  rfl

end Machine

end Chip8

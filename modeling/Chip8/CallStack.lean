import Chip8.Fault

/-!
# The call stack

Sixteen places for return addresses, of which the first `depth` are in use. A place that is no
longer in use keeps what it held, but nothing reads it before it is written again.
-/

namespace Chip8

/-- The places for return addresses and the number of them in use. -/
structure CallStack where
  slots : Vector Address 16
  depth : Nat
  deriving DecidableEq

namespace CallStack

/-- A stack that holds nothing. -/
def empty : CallStack := ⟨Vector.replicate 16 0, 0⟩

/-- Whether no return address is held. -/
def isEmpty (stack : CallStack) : Bool := stack.depth == 0

/-- The return address pushed last, if there is one. -/
def top? (stack : CallStack) : Option Address :=
  if stack.depth = 0 then none else stack.slots[stack.depth - 1]?

/-- The return addresses held, oldest first. -/
def toList (stack : CallStack) : List Address :=
  stack.slots.toList.take stack.depth

/-- Holds a return address; `pc` is the call that a fault is blamed on. -/
def push (stack : CallStack) (address pc : Address) : Except Fault CallStack :=
  if room : stack.depth < 16 then
    .ok ⟨stack.slots.set stack.depth address, stack.depth + 1⟩
  else
    .error (.stackOverflow pc)

/-- Gives back the return address pushed last; `pc` is the return that a fault is blamed on. -/
def pop (stack : CallStack) (pc : Address) : Except Fault (Address × CallStack) :=
  match stack.top? with
  | some address => .ok (address, { stack with depth := stack.depth - 1 })
  | none => .error (.stackUnderflow pc)

/-! ## The stack as a list -/

@[simp]
theorem toList_empty : empty.toList = [] := rfl

/-- As many addresses are held as places are in use. -/
theorem length_toList {stack : CallStack} (bounded : stack.depth ≤ 16) :
    stack.toList.length = stack.depth := by
  simp [toList, bounded]

/-- The address pushed last is the last of the list. -/
theorem top?_eq_getLast? {stack : CallStack} (bounded : stack.depth ≤ 16) :
    stack.top? = stack.toList.getLast? := by
  rw [List.getLast?_eq_getElem?, length_toList bounded]
  by_cases empty : stack.depth = 0
  · simp [top?, toList, empty]
  · have within : stack.depth - 1 < stack.depth := by omega
    simp [top?, toList, empty, within]

/-- Pushing puts an address at the end of the list. -/
theorem toList_push {stack pushed : CallStack} {address pc : Address}
    (success : stack.push address pc = .ok pushed) :
    pushed.toList = stack.toList ++ [address] := by
  unfold push at success
  split at success
  · rename_i room
    cases success
    have within : min stack.depth 16 = stack.depth := by omega
    simp only [toList, Vector.toList_set]
    rw [List.take_set, List.take_succ_eq_append_getElem (by simpa), List.set_append_right]
    · simp [within]
    · simp [within]
  · cases success

/-- Popping takes an address off the end of the list. -/
theorem toList_pop {stack popped : CallStack} {address pc : Address}
    (bounded : stack.depth ≤ 16) (success : stack.pop pc = .ok (address, popped)) :
    stack.toList = popped.toList ++ [address] := by
  unfold pop at success
  split at success
  · rename_i held
    cases success
    have inUse : stack.depth ≠ 0 := by
      intro empty
      simp [top?, empty] at held
    have place : stack.depth - 1 < 16 := by omega
    have holds : stack.slots[stack.depth - 1] = address := by
      simpa [top?, inUse, place] using held
    have split : stack.depth = stack.depth - 1 + 1 := by omega
    conv => lhs; rw [toList, split]
    rw [List.take_succ_eq_append_getElem (by simpa)]
    simp [toList, holds]
  · cases success

theorem depth_le_of_push {stack pushed : CallStack} {address pc : Address}
    (success : stack.push address pc = .ok pushed) : pushed.depth ≤ 16 := by
  unfold push at success
  split at success
  · rename_i room
    cases success
    exact room
  · cases success

theorem depth_le_of_pop {stack popped : CallStack} {address pc : Address}
    (bounded : stack.depth ≤ 16) (success : stack.pop pc = .ok (address, popped)) :
    popped.depth ≤ 16 := by
  unfold pop at success
  split at success
  · cases success
    exact Nat.le_trans (Nat.sub_le _ _) bounded
  · cases success

/-- A push fails exactly when all places are taken. -/
theorem push_eq_error_iff {stack : CallStack} {address pc : Address} {fault : Fault} :
    stack.push address pc = .error fault ↔
      16 ≤ stack.depth ∧ fault = .stackOverflow pc := by
  unfold push
  split
  · simp only [reduceCtorEq, false_iff, not_and]
    omega
  · simp only [Except.error.injEq]
    constructor
    · rintro rfl
      exact ⟨by omega, rfl⟩
    · rintro ⟨_, rfl⟩
      rfl

end CallStack

end Chip8

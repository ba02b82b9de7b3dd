import Chip8.CallStack
import Mathlib

/-!
# The call stack as a bounded list

To those who use it, the call stack is a list of at most sixteen addresses: the last one in is the
first one out, and an operation that cannot be carried out says so and changes nothing. What is
left in places that are no longer in use is not seen, whatever is done later.
-/

namespace Chip8

/-- What can be done with a store of return addresses. -/
inductive StackOperation
  | push (address pc : Address)
  | pop (pc : Address)
  | clear

/-- The answer to an operation, with the address that a pop gives back. -/
abbrev StackAnswer := Except Fault (Option Address)

namespace StackOperation

/-- An operation on a list that has room for sixteen addresses. -/
def onList (held : List Address) : StackOperation → StackAnswer × List Address
  | push address pc =>
    if held.length = 16 then (.error (.stackOverflow pc), held)
    else (.ok none, held ++ [address])
  | pop pc =>
    match held.getLast? with
    | none => (.error (.stackUnderflow pc), held)
    | some address => (.ok (some address), held.dropLast)
  | clear => (.ok none, [])

/-- An operation on the call stack, which stays as it is if the operation fails. -/
def onStack (stack : CallStack) : StackOperation → StackAnswer × CallStack
  | push address pc =>
    match stack.push address pc with
    | .error fault => (.error fault, stack)
    | .ok pushed => (.ok none, pushed)
  | pop pc =>
    match stack.pop pc with
    | .error fault => (.error fault, stack)
    | .ok (address, popped) => (.ok (some address), popped)
  | clear => (.ok none, .empty)

/-- The answers to operations one after the other, and what is there in the end. -/
def run {Store : Type} (perform : Store → StackOperation → StackAnswer × Store) (store : Store) :
    List StackOperation → List StackAnswer × Store
  | [] => ([], store)
  | operation :: operations =>
    let (answer, next) := perform store operation
    let (answers, final) := run perform next operations
    (answer :: answers, final)

theorem run_append {Store : Type} (perform : Store → StackOperation → StackAnswer × Store)
    (store : Store) (first second : List StackOperation) :
    run perform store (first ++ second) =
      ((run perform store first).1 ++ (run perform (run perform store first).2 second).1,
        (run perform (run perform store first).2 second).2) := by
  induction first generalizing store with
  | nil => rfl
  | cons operation first ih => simp [run, ih]

end StackOperation

open StackOperation

namespace CallStack

variable {stack : CallStack} {held : List Address}

/-- The stack holds exactly these addresses. -/
structure Holds (stack : CallStack) (held : List Address) : Prop where
  depth_le : stack.depth ≤ 16
  toList_eq : stack.toList = held

/-- What can be seen of the stack is what can be seen of the list, and it has room if the list
does. -/
structure Shows (stack : CallStack) (held : List Address) : Prop where
  depth_eq : stack.depth = held.length
  isEmpty_eq : stack.isEmpty = held.isEmpty
  top?_eq : stack.top? = held.getLast?
  push_fails_iff : ∀ address pc fault, stack.push address pc = .error fault ↔
    held.length = 16 ∧ fault = .stackOverflow pc
  pop_fails_iff : ∀ pc fault, stack.pop pc = .error fault ↔
    held = [] ∧ fault = .stackUnderflow pc

/-- Whatever is done with it, the stack answers as the list does and shows the same. -/
def ActsAs (stack : CallStack) (held : List Address) : Prop :=
  ∀ operations, (run onStack stack operations).1 = (run onList held operations).1 ∧
    (run onStack stack operations).2.Shows (run onList held operations).2

theorem Holds.shows (holds : stack.Holds held) : stack.Shows held := by
  have depth_le := holds.depth_le
  have depth_eq : stack.depth = held.length := by
    rw [← holds.toList_eq, length_toList depth_le]
  have top?_eq : stack.top? = held.getLast? := by
    rw [top?_eq_getLast? depth_le, holds.toList_eq]
  refine ⟨depth_eq, ?_, top?_eq, ?_, ?_⟩
  · cases held <;> simp [isEmpty, depth_eq]
  · intro address pc fault
    have full_iff : 16 ≤ stack.depth ↔ held.length = 16 := by omega
    rw [push_eq_error_iff, full_iff]
  · intro pc fault
    cases last : held.getLast? with
    | none =>
        have nothing := List.getLast?_eq_none_iff.mp last
        simp [CallStack.pop, top?_eq, nothing, eq_comm]
    | some address =>
        have something : held ≠ [] := by
          rintro rfl
          cases last
        simp [CallStack.pop, top?_eq, last, something]

theorem holds_empty : empty.Holds [] :=
  ⟨Nat.zero_le 16, toList_empty⟩

/-- One operation on a stack and on the list that it holds. -/
theorem Holds.operation (holds : stack.Holds held) (operation : StackOperation) :
    (onStack stack operation).1 = (onList held operation).1 ∧
      (onStack stack operation).2.Holds (onList held operation).2 := by
  have shows := holds.shows
  have depth_le := holds.depth_le
  cases operation with
  | push address pc =>
      cases pushed : stack.push address pc with
      | error fault =>
          rcases (shows.push_fails_iff address pc fault).mp pushed with ⟨full, rfl⟩
          simpa [onStack, onList, pushed, full] using holds
      | ok next =>
          have room : held.length ≠ 16 := by
            intro full
            have fails := (shows.push_fails_iff address pc _).mpr ⟨full, rfl⟩
            rw [pushed] at fails
            cases fails
          have next_eq := toList_push pushed
          rw [holds.toList_eq] at next_eq
          have next_holds := Holds.mk (depth_le_of_push pushed) next_eq
          simpa [onStack, onList, pushed, room] using next_holds
  | pop pc =>
      cases popped : stack.pop pc with
      | error fault =>
          rcases (shows.pop_fails_iff pc fault).mp popped with ⟨rfl, rfl⟩
          simpa [onStack, onList, popped] using holds
      | ok result =>
          rcases result with ⟨address, next⟩
          have held_eq : held = next.toList ++ [address] :=
            holds.toList_eq.symm.trans (toList_pop depth_le popped)
          have next_holds : next.Holds next.toList := ⟨depth_le_of_pop depth_le popped, rfl⟩
          simpa [onStack, onList, popped, held_eq] using next_holds
  | clear => exact ⟨rfl, holds_empty⟩

/-- Any number of operations on a stack and on the list that it holds. -/
theorem Holds.run (holds : stack.Holds held) (operations : List StackOperation) :
    (run onStack stack operations).1 = (run onList held operations).1 ∧
      (run onStack stack operations).2.Holds (run onList held operations).2 := by
  induction operations generalizing stack held with
  | nil => exact ⟨rfl, holds⟩
  | cons operation operations ih =>
      rcases holds.operation operation with ⟨same_answer, next_holds⟩
      rcases ih next_holds with ⟨same_answers, final_holds⟩
      refine ⟨?_, final_holds⟩
      simp only [StackOperation.run, same_answer, same_answers]

theorem Holds.actsAs (holds : stack.Holds held) : stack.ActsAs held := by
  intro operations
  rcases holds.run operations with ⟨same_answers, final_holds⟩
  exact ⟨same_answers, final_holds.shows⟩

/-- The places that are not in use do not count. -/
theorem Holds.of_slots (holds : stack.Holds held) {slots : Vector Address 16}
    (same : ∀ place < stack.depth, slots[place]? = stack.slots[place]?) :
    Holds ⟨slots, stack.depth⟩ held := by
  refine ⟨holds.depth_le, ?_⟩
  rw [← holds.toList_eq]
  apply List.ext_getElem?
  intro place
  by_cases within : place < stack.depth
  · simpa [toList, within] using same place within
  · simp [toList, within]

end CallStack

/-! ## In and out -/

namespace StackOperation

theorem run_push (held : List Address) (calls : List (Address × Address))
    (room : held.length + calls.length ≤ 16) :
    run onList held (calls.map fun (address, pc) => push address pc) =
      (List.replicate calls.length (.ok none), held ++ calls.map Prod.fst) := by
  induction calls generalizing held with
  | nil => simp [run]
  | cons call calls ih =>
      rw [List.length_cons] at room
      have free : held.length ≠ 16 := by omega
      have rest := ih (held ++ [call.1]) (by rw [List.length_append, List.length_singleton]; omega)
      simp [run, onList, free, rest, List.replicate_succ]

theorem run_pop (held returns : List Address) (all : returns.length = held.length) :
    run onList held (returns.map pop) = (held.reverse.map fun address => .ok (some address), []) := by
  induction returns generalizing held with
  | nil =>
      rw [List.eq_nil_of_length_eq_zero all.symm]
      rfl
  | cons pc returns ih =>
      -- The addresses leave the list at its end, so it is taken apart there.
      rcases held.eq_nil_or_concat with rfl | ⟨older, last, rfl⟩
      · cases all
      · rw [List.concat_eq_append, List.length_append, List.length_cons, List.length_singleton,
          Nat.add_right_cancel_iff] at all
        simp [run, onList, ih older all]

/-- Up to sixteen addresses come back in the opposite order, and then the list is empty. -/
theorem run_push_pop (calls : List (Address × Address)) (returns : List Address)
    (room : calls.length ≤ 16) (all : returns.length = calls.length) :
    run onList [] ((calls.map fun (address, pc) => push address pc) ++ returns.map pop) =
      (List.replicate calls.length (.ok none) ++
        (calls.map Prod.fst).reverse.map fun address => .ok (some address), []) := by
  have pushed := run_push [] calls (by simpa using room)
  rw [List.nil_append] at pushed
  have popped := run_pop (calls.map Prod.fst) returns (by simpa using all)
  rw [run_append, pushed, popped]

end StackOperation

namespace CallStack

/-- A new call stack acts as an empty list with room for sixteen addresses. After any operations it
still acts as the list does, with whatever is put in its places that are not in use; and what is
pushed on it comes back in the opposite order. -/
theorem acts_as_list :
    empty.ActsAs [] ∧
      (∀ operations slots, let stack := (run onStack empty operations).2
        (∀ place < stack.depth, slots[place]? = stack.slots[place]?) →
          ActsAs ⟨slots, stack.depth⟩ (run onList [] operations).2) ∧
      ∀ (calls : List (Address × Address)) (returns : List Address),
        calls.length ≤ 16 → returns.length = calls.length →
          let reached := run onStack empty
            ((calls.map fun (address, pc) => .push address pc) ++ returns.map .pop)
          reached.1 = List.replicate calls.length (.ok none) ++
              (calls.map Prod.fst).reverse.map (fun address => .ok (some address)) ∧
            reached.2.isEmpty = true := by
  refine ⟨holds_empty.actsAs, ?_, ?_⟩
  · intro operations slots stack same
    exact ((holds_empty.run operations).2.of_slots same).actsAs
  · intro calls returns room all reached
    rcases holds_empty.actsAs
      ((calls.map fun (address, pc) => .push address pc) ++ returns.map .pop) with
      ⟨same_answers, final_shows⟩
    rw [run_push_pop calls returns room all] at same_answers final_shows
    exact ⟨same_answers, final_shows.isEmpty_eq⟩

/-- The seventeenth push fails; an address that was popped stays in its place, but nothing tells it
from another one; and two addresses come back in the opposite order. -/
theorem popped_address_is_forgotten :
    (run onStack empty (List.replicate 17 (.push 0x300 0x302))).1.getLast? =
        some (.error (.stackOverflow 0x302)) ∧
      (run onStack empty [.push 0x202 0x200, .pop 0x204]).2.slots[0] = 0x202 ∧
      (run onStack ⟨Vector.replicate 16 0x0F0F, 0⟩ [.pop 0x206]).1 =
        [.error (.stackUnderflow 0x206)] ∧
      (run onStack empty [.push 0x202 0x200, .push 0x302 0x300, .pop 0x310, .pop 0x204]).1 =
        [.ok none, .ok none, .ok (some 0x302), .ok (some 0x202)] := by
  rcases acts_as_list with ⟨acts, hidden, reversed⟩
  refine ⟨?_, rfl, ?_, ?_⟩
  · rw [(acts _).1]
    rfl
  · have unused := hidden [.push 0x202 0x200, .pop 0x204] (Vector.replicate 16 0x0F0F)
      fun place within => absurd within (Nat.not_lt_zero place)
    exact (unused [.pop 0x206]).1
  · exact (reversed [(0x202, 0x200), (0x302, 0x300)] [0x310, 0x204] (by decide) rfl).1

end CallStack

end Chip8

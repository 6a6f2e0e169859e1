import Mathlib.Logic.Relation
import StackScript.Proofs.Machine.Transitions

/-! What holds of every state that a machine gets to, whatever its code and however many of its
steps have failed. The stack and the frames keep to the limits, the frames above the main
code are calls of functions, and the reserved globals are what they were at the start.
-/

namespace StackScript

variable {σ : Type}

-----------------------------------------------------------------------------------------
-- Globals
-----------------------------------------------------------------------------------------

namespace State

variable {globals : Array (Option Value)} {slot : Nat} {value : Value}

/-- Storing a value never makes the globals fewer. -/
theorem size_le_storeGlobal : globals.size ≤ (storeGlobal globals slot value).size := by
  rw [storeGlobal, Array.size_setIfInBounds, Array.size_append]
  exact Nat.le_add_right _ _

/-- Storing a value leaves the other slots as they are. -/
theorem getElem?_storeGlobal {place : Nat} {content : Option Value} (other : place ≠ slot)
    (found : globals[place]? = some content)
    : (storeGlobal globals slot value)[place]? = some content := by
  have inside := (Array.getElem?_eq_some_iff.mp found).1
  rw [storeGlobal, Array.getElem?_setIfInBounds_ne (Ne.symm other),
    Array.getElem?_append_left inside, found]

end State

-----------------------------------------------------------------------------------------
-- The invariant
-----------------------------------------------------------------------------------------

/-- The suspended callers, the latest first, below a frame of the given function and base. The
outermost frame alone runs the main code, and alone starts at the bottom of the stack.
-/
inductive Nested : List Frame → Nat → Nat → Prop
  | bottom : Nested [] 0 0
  | call {callers : List Frame} {frame : Frame} {id base : Nat}
    (below : Nested callers frame.function frame.base) (isFunction : id ≠ 0)
    (above : base ≠ 0)
    : Nested (frame :: callers) id base

namespace Nested

variable {callers : List Frame} {id base : Nat}

end Nested

/-- The state keeps to the limits of the machine, and its frames and reserved globals are in
order.
-/
structure State.Consistent (m : Machine) (s : State σ) : Prop where
  stack : s.stack.size ≤ m.limits.maxStack
  frames : s.callers.size + 1 ≤ max 1 m.limits.maxFrames
  nested : Nested s.callers.toList.reverse s.function s.base
  reserved
    : ∀ (slot : Nat) (content : Option Value),
        (initialGlobals 0)[slot]? = some content → s.globals[slot]? = some content

namespace Change

variable [Sink σ] {m : Machine} {instruction : Instruction} {before : State σ}
  {result : Outcome × State σ}

theorem globals_size (change : Change m instruction before result)
    : before.globals.size ≤ result.2.globals.size := by
  cases change with
  | moves _ stored =>
      rcases stored with rfl | ⟨slot, value, -, rfl⟩
      · exact Nat.le_refl _
      · exact State.size_le_storeGlobal
  | _ => exact Nat.le_refl _

/-- No instruction breaks the invariant, not even where it fails. -/
theorem consistent (change : Change m instruction before result)
    (consistent : before.Consistent m)
    : result.2.Consistent m := by
  obtain ⟨stack, frames, nested, reserved⟩ := consistent
  cases change with
  | moves size stored =>
      refine ⟨size, frames, nested, ?_⟩
      rcases stored with rfl | ⟨slot, value, free, rfl⟩
      · exact reserved
      · intro place content found
        have low : place ≤ reservedSlots :=
          Nat.le_of_lt_succ (Array.getElem?_eq_some_iff.mp found).1
        exact State.getElem?_storeGlobal (by omega) (reserved place content found)
  | @enters id _ _ found room =>
      refine ⟨stack, ?_, ?_, reserved⟩
      · simp only [Array.size_push]
        omega
      · simp only [Array.toList_push, List.reverse_append, List.reverse_cons, List.reverse_nil,
          List.nil_append, List.singleton_append]
        refine .call nested ?_ (Nat.succ_ne_zero _)
        intro zero
        rw [zero] at found
        cases found
  | returns top caller =>
      rw [Array.toList_reverse_of_back? caller] at nested
      cases nested with
      | call below _ _ =>
          refine ⟨?_, ?_, below, reserved⟩
          · obtain ⟨others, same⟩ := Array.back?_eq_some_iff.mp top
            have size := congrArg Array.size same
            rw [Array.size_push] at size
            simp only [Array.size_push, Array.size_shrink, Array.size_pop]
            omega
          · simp only [Array.size_pop]
            omega
  | halts => exact ⟨stack, frames, nested, reserved⟩
  | fails split _ =>
      refine ⟨?_, frames, nested, reserved⟩
      rw [split, Array.size_append] at stack
      exact Nat.le_trans (Nat.le_add_right _ _) stack

end Change

namespace Transition

variable [Sink σ] {m : Machine} {s : State σ} {result : Outcome × State σ}

theorem globals_size (transition : Transition m s result)
    : s.globals.size ≤ result.2.globals.size := by
  cases transition with
  | carries _ change => exact change.globals_size
  | _ => exact Nat.le_refl _

/-- No step breaks the invariant, however it ends. -/
theorem consistent (transition : Transition m s result) (consistent : s.Consistent m)
    : result.2.Consistent m := by
  obtain ⟨stack, frames, nested, reserved⟩ := consistent
  cases transition with
  | carries _ change => exact change.consistent ⟨stack, frames, nested, reserved⟩
  | _ => exact ⟨stack, frames, nested, reserved⟩

end Transition

-----------------------------------------------------------------------------------------
-- Sequences of steps
-----------------------------------------------------------------------------------------

/-- Some steps, however they end, lead from one state to another. -/
abbrev Machine.Proceeds [Sink σ] (m : Machine) : State σ → State σ → Prop :=
  Relation.ReflTransGen fun s after => (m.step s).2 = after

namespace Machine.Proceeds

variable [Sink σ] {m : Machine} {s after : State σ}

/-- No sequence of steps breaks the invariant, by induction on the steps. -/
theorem consistent (proceeds : m.Proceeds s after) (consistent : s.Consistent m)
    : after.Consistent m := by
  induction proceeds with
  | refl => exact consistent
  | tail _ step ih =>
      obtain rfl := step
      exact (m.step_transition ih.stack).consistent ih

/-- No sequence of steps makes the globals fewer. -/
theorem globals_size (proceeds : m.Proceeds s after) (consistent : s.Consistent m)
    : s.globals.size ≤ after.globals.size := by
  induction proceeds with
  | refl => exact Nat.le_refl _
  | tail proceeds step ih =>
      obtain rfl := step
      have fits := (Machine.Proceeds.consistent proceeds consistent).stack
      exact Nat.le_trans ih (m.step_transition fits).globals_size

end Machine.Proceeds

end StackScript

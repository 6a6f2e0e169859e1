import StackScript.Proofs.Machine.Consistency

/-! What a step that fails leaves behind, for a debugger that looks at it and goes on. Whatever
the code, only the place in the code, the height of the stack and the sink may have changed.
-/

namespace StackScript

variable {σ : Type} [Sink σ]

/-- How many values an instruction has taken off the stack when it fails: an operator the
operands that it finds, the call of a built-in function the arguments, and any other
instruction none.
-/
def spent (next : Option Instruction) (stack : Array Value) : Nat :=
  match next with
  | some (.operate _) => min 2 stack.size
  | some (.call argCount) =>
      match callee? stack argCount with
      | some (.native _ _) => argCount.toNat
      | _ => 0
  | _ => 0

/-- An instruction that fails takes nothing back but the values that it has taken off the stack. -/
theorem Change.of_failed {m : Machine} {instruction : Instruction} {before after : State σ}
    {fault : Fault} (change : Change m instruction before (.failed fault, after))
    : ∃ (kept gone : Array Value) (sink : σ),
        after = { before with stack := kept, sink := sink }
        ∧ before.stack = kept ++ gone
        ∧ Spends (some instruction) before.stack before.sink fault gone.size := by
  cases change with
  | fails split spends => exact ⟨_, _, _, rfl, split, spends⟩

end StackScript

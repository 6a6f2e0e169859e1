import StackScript.Proofs.Machine.Runs

/-! What the limits mean for a run. A step is the same under wider limits, unless it fails
because of a limit, and so is a run to its end.
-/

namespace StackScript

variable {σ : Type}

/-- The fault comes from a limit of the run. -/
def Fault.isLimit : Fault → Bool
  | .stackOverflow _ => true
  | .tooManyCalls _ => true
  | _ => false

/-- Nothing that fits the limits is too much for the others. -/
structure Limits.Within (limits wider : Limits) : Prop where
  stack : limits.maxStack ≤ wider.maxStack
  frames : limits.maxFrames ≤ wider.maxFrames

-----------------------------------------------------------------------------------------
-- Steps
-----------------------------------------------------------------------------------------

/-- What a step comes to is what it comes to under wider limits, or a fault because of a limit. -/
inductive Curtailed (wide : Outcome × State σ) : Outcome × State σ → Prop
  | same : Curtailed wide wide
  | limit {fault : Fault} {after : State σ} (limit : fault.isLimit = true)
    : Curtailed wide (.failed fault, after)

namespace Curtailed

variable {wide : Outcome × State σ} {after : State σ}

theorem of_running (curtailed : Curtailed wide (.running, after)) : wide = (.running, after) := by
  cases curtailed
  rfl

theorem of_halted {value : Value} (curtailed : Curtailed wide (.halted value, after))
    : wide = (.halted value, after) := by
  cases curtailed
  rfl

theorem of_failed {fault : Fault} (curtailed : Curtailed wide (.failed fault, after))
    : wide = (.failed fault, after) ∨ fault.isLimit = true := by
  cases curtailed with
  | same => exact .inl rfl
  | limit limit => exact .inr limit

end Curtailed

namespace Machine

section

variable {program : Program} {limits wider : Limits} (within : limits.Within wider)

include within

theorem push_curtailed (value : Value) (s : State σ)
    : Curtailed (push ⟨program, wider⟩ value s) (push ⟨program, limits⟩ value s) := by
  unfold push
  by_cases full : limits.maxStack ≤ s.stack.size
  · rw [if_pos full]
    exact .limit rfl
  · have room : ¬ wider.maxStack ≤ s.stack.size := fun less => full (Nat.le_trans within.stack less)
    rw [if_neg full, if_neg room]
    exact .same

theorem enter_curtailed (id argCount : UInt8) (place : Nat) (s : State σ)
    : Curtailed (enter ⟨program, wider⟩ id argCount place s)
        (enter ⟨program, limits⟩ id argCount place s) := by
  unfold enter
  cases program.function? id.toNat with
  | none => exact .same
  | some function =>
      dsimp only
      by_cases arity : function.arity ≠ argCount
      · rw [if_pos arity, if_pos arity]
        exact .same
      · rw [if_neg arity, if_neg arity]
        by_cases full : limits.maxFrames ≤ s.callers.size + 1
        · rw [if_pos full]
          exact .limit rfl
        · have room : ¬ wider.maxFrames ≤ s.callers.size + 1 :=
            fun less => full (Nat.le_trans within.frames less)
          rw [if_neg full, if_neg room]
          exact .same

theorem access_curtailed (what : Access) (slot : UInt8) (s : State σ)
    : Curtailed (access ⟨program, wider⟩ what slot s)
        (access ⟨program, limits⟩ what slot s) := by
  cases what with
  | getLocal =>
      unfold access
      cases s.stack[s.base + slot.toNat]? with
      | none => exact .same
      | some value => exact push_curtailed within value s
  | setLocal => exact .same
  | getGlobal =>
      unfold access
      cases s.globals[slot.toNat]?.join with
      | none => exact .same
      | some value => exact push_curtailed within value s
  | setGlobal => exact .same

theorem operate_curtailed (op : Operator) (s : State σ)
    : Curtailed (operate ⟨program, wider⟩ op s) (operate ⟨program, limits⟩ op s) := by
  unfold operate operateOn
  cases s.stack.back? with
  | none => exact .same
  | some right =>
      dsimp only
      cases s.stack.pop.back? with
      | none => exact .same
      | some left =>
          dsimp only
          cases op.applyValues left right with
          | error fault => exact .same
          | ok value => exact push_curtailed within value _

variable [Sink σ]

theorem call_curtailed (argCount : UInt8) (s : State σ)
    : Curtailed (call ⟨program, wider⟩ argCount s) (call ⟨program, limits⟩ argCount s) := by
  unfold call
  by_cases short : s.stack.size < argCount.toNat + 1
  · rw [if_pos short, if_pos short]
    exact .same
  · rw [if_neg short, if_neg short]
    dsimp only
    generalize s.stack.size - (argCount.toNat + 1) = place
    cases s.stack[place]? with
    | none => exact .same
    | some callee =>
        cases callee with
        | function id => exact enter_curtailed within id argCount place s
        | native builtin identity =>
            dsimp only [callBuiltin]
            generalize (s.stack.extract (place + 1) s.stack.size).toList = args
            obtain ⟨answer, sink⟩ := builtin.call args s.sink
            cases answer with
            | error fault => exact .same
            | ok value => exact push_curtailed within value _
        | _ => exact .same

theorem apply_curtailed (instruction : Instruction) (s : State σ)
    : Curtailed (apply ⟨program, wider⟩ instruction s)
        (apply ⟨program, limits⟩ instruction s) := by
  cases instruction with
  | push constant =>
      have means : Machine.constant ⟨program, limits⟩ constant
          = Machine.constant ⟨program, wider⟩ constant :=
        rfl
      simp only [apply, means]
      cases Machine.constant ⟨program, wider⟩ constant with
      | error fault => exact .same
      | ok value => exact push_curtailed within value s
  | pop => exact .same
  | jump when offset => exact .same
  | access what slot => exact access_curtailed within what slot s
  | call argCount => exact call_curtailed within argCount s
  | ret => exact .same
  | operate op => exact operate_curtailed within op s

/-- A step under limits is as under wider ones, unless it fails because of a limit. -/
theorem step_curtailed (s : State σ)
    : Curtailed (step ⟨program, wider⟩ s) (step ⟨program, limits⟩ s) := by
  unfold step
  cases s.result with
  | some value => exact .same
  | none =>
      dsimp only
      cases program.code? s.function with
      | none => exact .same
      | some code =>
          dsimp only
          by_cases ends : code.size ≤ s.ip
          · rw [if_pos ends, if_pos ends]
            exact .same
          · rw [if_neg ends, if_neg ends]
            cases Instruction.decode code s.ip with
            | error error => exact .same
            | ok instruction => exact apply_curtailed within instruction _

end

-----------------------------------------------------------------------------------------
-- Runs to the end
-----------------------------------------------------------------------------------------

variable [Sink σ] {m : Machine} {s after : State σ}

theorem run_of_running (running : m.step s = (.running, after)) : m.run s = m.run after := by
  rw [run]
  split <;> simp_all

theorem run_of_halted {value : Value} (halted : m.step s = (.halted value, after))
    : m.run s = (.ok value, after) := by
  rw [run]
  split <;> simp_all

theorem run_of_failed {fault : Fault} (failed : m.step s = (.failed fault, after))
    : m.run s = (.error fault, after) := by
  rw [run]
  split <;> simp_all

/-- A run to the end goes through every state that it gets to. -/
theorem run_of_runs (runs : m.Runs s after) : m.run s = m.run after := by
  induction runs with
  | refl => rfl
  | tail _ running ih => exact ih.trans (run_of_running running)

/-- A run to the end under limits is as under wider ones, unless it fails because of a limit;
by induction on the run.
-/
theorem run_curtailed (program : Program) {limits wider : Limits} (within : limits.Within wider)
    (s : State σ)
    : run ⟨program, limits⟩ s = run ⟨program, wider⟩ s
      ∨ ∃ fault after, run ⟨program, limits⟩ s = (.error fault, after) ∧ fault.isLimit = true := by
  have step : ∀ s : State σ, Curtailed (step ⟨program, wider⟩ s) (step ⟨program, limits⟩ s) :=
    step_curtailed within
  induction s using run.induct (σ := σ) ⟨program, limits⟩ with
  | case1 s after running ih =>
      have curtailed := step s
      rw [running] at curtailed
      rw [run_of_running running, run_of_running curtailed.of_running]
      exact ih
  | case2 s value after halted =>
      have curtailed := step s
      rw [halted] at curtailed
      exact .inl ((run_of_halted halted).trans (run_of_halted curtailed.of_halted).symm)
  | case3 s fault after failed =>
      have curtailed := step s
      rw [failed] at curtailed
      rcases curtailed.of_failed with same | limit
      · exact .inl ((run_of_failed failed).trans (run_of_failed same).symm)
      · exact .inr ⟨fault, after, run_of_failed failed, limit⟩

-----------------------------------------------------------------------------------------
-- Wider limits
-----------------------------------------------------------------------------------------

/-- What the first steps come to and leave behind, each of them taken from what the one before
has left, even if that one failed.
-/
def trace (m : Machine) : (count : Nat) → State σ → List (Outcome × State σ)
  | 0, _ => []
  | count + 1, s => m.step s :: m.trace count (m.step s).2

end Machine

end StackScript

import StackScript.Machine.Step

/-! Running a program to its end. Code has no way back: jumps only go forward, so that a run
that does not stop must call deeper and deeper, and the number of frames is limited. The
measure that shows this weighs the code that is left in each frame, a frame much more than
all frames above it together.
-/

namespace StackScript

variable {σ : Type}

/-- How a step that lets the run go on has moved it: forward in the same code, into a called
function, or back to the latest caller.
-/
inductive Moved (m : Machine) (before after : State σ) : Prop
  | forward
      (callers : after.callers = before.callers)
      (function : after.function = before.function)
      (ip : before.ip ≤ after.ip)
  | entered
      (callers : after.callers = before.callers.push ⟨before.function, before.ip, before.base⟩)
      (room : before.callers.size + 1 < m.limits.maxFrames)
  | returned (frame : Frame)
      (callers : before.callers = after.callers.push frame)
      (function : after.function = frame.function)
      (ip : after.ip = frame.ip)

namespace Machine

/-- The bytes of a piece of code that lie behind an offset. -/
def remaining (m : Machine) (function ip : Nat) : Nat :=
  ((m.program.code? function).map Array.size).getD 0 - ip

/-- The size of the longest piece of code. -/
def longest (m : Machine) : Nat :=
  (m.program.main.size
    :: m.program.functions.toList.map fun entry =>
      (entry.map fun part => part.code.size).getD 0).foldr max 0

/-- The code that is left in each frame, the outermost first. -/
def leftovers (m : Machine) (s : State σ) : List Nat :=
  s.callers.toList.map (fun frame => m.remaining frame.function frame.ip)
    ++ [m.remaining s.function s.ip]

/-- The weight of what is left, where a frame counts `bound` times the next one above it. -/
def weigh (bound : Nat) (height : Nat) : List Nat → Nat
  | [] => 0
  | left :: rest => (left + 1) * Nat.pow bound height + weigh bound (height - 1) rest

/-- The weight of a run: it falls with every step after which the run goes on. -/
def weight (m : Machine) (s : State σ) : Nat :=
  weigh (m.longest + 2) m.limits.maxFrames (m.leftovers s)

theorem weigh_append (bound height : Nat) (lower upper : List Nat)
    : weigh bound height (lower ++ upper)
      = weigh bound height lower + weigh bound (height - lower.length) upper := by
  induction lower generalizing height with
  | nil => simp [weigh]
  | cons left rest ih =>
      simp only [List.cons_append, weigh, ih, List.length_cons]
      rw [show height - 1 - rest.length = height - (rest.length + 1) by omega]
      omega

theorem le_foldr_max {x : Nat} {xs : List Nat} (member : x ∈ xs) : x ≤ xs.foldr max 0 := by
  induction xs with
  | nil => cases member
  | cons y ys ih =>
      rcases List.mem_cons.mp member with rfl | member
      · exact Nat.le_max_left _ _
      · exact Nat.le_trans (ih member) (Nat.le_max_right _ _)

/-- No piece of code is longer than the longest. -/
theorem remaining_le_longest (m : Machine) (function ip : Nat)
    : m.remaining function ip ≤ m.longest := by
  refine Nat.le_trans (Nat.sub_le _ _) ?_
  unfold Program.code?
  split
  · exact le_foldr_max List.mem_cons_self
  · unfold Program.function?
    split
    · exact Nat.zero_le _
    · rename_i place _
      cases found : m.program.functions[place]? with
      | none => exact Nat.zero_le _
      | some entry =>
          cases entry with
          | none => exact Nat.zero_le _
          | some part =>
              refine le_foldr_max (List.mem_cons_of_mem _ ?_)
              refine List.mem_map.mpr ⟨some part, ?_, ?_⟩
              · exact Array.mem_toList_iff.mpr (Array.mem_of_getElem? found)
              · rfl

/-- Moving after some code has been passed over lowers the weight. -/
theorem weight_lt_of_moved {m : Machine} {s behind after : State σ}
    (moved : Moved m behind after) (callers : behind.callers = s.callers)
    (progress : m.remaining behind.function behind.ip < m.remaining s.function s.ip)
    : m.weight after < m.weight s := by
  unfold weight
  generalize bound : m.longest + 2 = b
  have positive : ∀ height, 0 < Nat.pow b height := fun height => Nat.pow_pos (by omega)
  cases moved with
  | forward callers' function' ip =>
      have less : m.remaining after.function after.ip < m.remaining s.function s.ip := by
        refine Nat.lt_of_le_of_lt ?_ progress
        rw [function']
        exact Nat.sub_le_sub_left ip _
      simp only [leftovers, callers', callers, weigh_append, weigh, Nat.add_zero]
      refine Nat.add_lt_add_left ?_ _
      exact Nat.mul_lt_mul_of_pos_right (by omega) (positive _)
  | entered callers' room =>
      simp only [leftovers, callers', callers, Array.toList_push, List.map_append,
        List.append_assoc, weigh_append, weigh, List.map_cons, List.map_nil, Nat.add_zero,
        List.length_map, List.cons_append, List.nil_append, Array.length_toList]
      refine Nat.add_lt_add_left ?_ _
      generalize height : m.limits.maxFrames - s.callers.size = h
      have top : h = (h - 1) + 1 := by
        rw [callers] at room
        omega
      have small := m.remaining_le_longest after.function after.ip
      have step : b * Nat.pow b (h - 1) = Nat.pow b h := by
        rw [top, Nat.mul_comm]
        rfl
      calc (m.remaining behind.function behind.ip + 1) * Nat.pow b h
            + (m.remaining after.function after.ip + 1) * Nat.pow b (h - 1)
          < (m.remaining behind.function behind.ip + 1) * Nat.pow b h
              + b * Nat.pow b (h - 1) := by
            refine Nat.add_lt_add_left ?_ _
            exact Nat.mul_lt_mul_of_pos_right (by omega) (positive _)
        _ = (m.remaining behind.function behind.ip + 2) * Nat.pow b h := by
            rw [step]
            exact (Nat.succ_mul _ _).symm
        _ ≤ (m.remaining s.function s.ip + 1) * Nat.pow b h :=
            Nat.mul_le_mul_right _ (by omega)
  | returned frame callers' function' ip =>
      rw [callers] at callers'
      simp only [leftovers, callers', function', ip, Array.toList_push, List.map_append,
        List.append_assoc, weigh_append, weigh, List.map_cons, List.map_nil, Nat.add_zero]
      have := positive
        (m.limits.maxFrames
          - (after.callers.toList.map fun frame => m.remaining frame.function frame.ip).length
          - 1)
      refine Nat.lt_of_lt_of_le (Nat.lt_add_of_pos_right (Nat.mul_pos (Nat.succ_pos
        (m.remaining s.function s.ip)) (positive (m.limits.maxFrames
          - (after.callers.toList.map fun frame => m.remaining frame.function frame.ip).length
          - [m.remaining frame.function frame.ip].length)))) ?_
      simp [Nat.add_assoc]

/-- Putting a value on the stack moves the run nowhere. -/
theorem moved_of_push {m : Machine} {value : Value} {s after : State σ}
    (running : m.push value s = (.running, after))
    : after.callers = s.callers ∧ after.function = s.function ∧ after.ip = s.ip := by
  unfold push State.fail at running
  split at running <;> simp at running
  subst running
  exact ⟨rfl, rfl, rfl⟩

/-- A value put on the stack leaves the run where it was. -/
theorem Moved.of_push {m : Machine} {value : Value} {s before after : State σ}
    (running : m.push value before = (.running, after))
    (callers : before.callers = s.callers) (function : before.function = s.function)
    (ip : before.ip = s.ip)
    : Moved m s after := by
  obtain ⟨callers', function', ip'⟩ := moved_of_push running
  exact .forward (callers'.trans callers) (function'.trans function)
    (Nat.le_of_eq (ip'.trans ip).symm)

/-- A jump moves the run forward. -/
theorem moved_of_jump {m : Machine} {when : Jump} {offset : UInt16} {s after : State σ}
    (running : jump when offset s = (.running, after))
    : Moved m s after := by
  unfold jump State.jumpIf State.fail at running
  split at running <;> (try split at running) <;> simp at running <;> subst running <;>
    (try split) <;>
    first
    | exact .forward rfl rfl (Nat.le_refl _)
    | exact .forward rfl rfl (Nat.le_add_right _ _)

/-- Reading or writing a variable moves the run nowhere. -/
theorem moved_of_access {m : Machine} {what : Access} {slot : UInt8} {s after : State σ}
    (running : m.access what slot s = (.running, after))
    : Moved m s after := by
  unfold access State.fail at running
  split at running
  all_goals split at running
  all_goals first
    | exact Moved.of_push running rfl rfl rfl
    | skip
  all_goals try split at running
  all_goals simp at running
  all_goals subst running
  all_goals exact .forward rfl rfl (Nat.le_refl _)

/-- Entering a function suspends the caller. -/
theorem moved_of_enter {m : Machine} {id argCount : UInt8} {place : Nat} {s after : State σ}
    (running : m.enter id argCount place s = (.running, after))
    : Moved m s after := by
  unfold enter State.fail at running
  split at running
  · simp at running
  split at running
  · simp at running
  split at running
  · simp at running
  · rename_i room
    simp only [Prod.mk.injEq, true_and] at running
    subst running
    exact .entered rfl (by omega)

/-- A return moves the run to the latest caller. -/
theorem moved_of_ret {m : Machine} {s after : State σ} (running : ret s = (.running, after))
    : Moved m s after := by
  unfold ret State.fail State.halt at running
  split at running
  · simp at running
  split at running
  · simp at running
  · rename_i frame last
    simp only [Prod.mk.injEq, true_and] at running
    subst running
    refine .returned frame ?_ rfl rfl
    obtain ⟨xs, same⟩ := Array.back?_eq_some_iff.mp last
    simp [same]

/-- An operator moves the run nowhere. -/
theorem moved_of_operate {m : Machine} {op : Operator} {s after : State σ}
    (running : m.operate op s = (.running, after))
    : Moved m s after := by
  unfold operate operateOn State.fail at running
  split at running
  · simp at running
  split at running
  · simp at running
  split at running
  · simp at running
  · exact Moved.of_push running rfl rfl rfl

variable [Sink σ]

/-- A call enters a function or moves the run nowhere. -/
theorem moved_of_call {m : Machine} {argCount : UInt8} {s after : State σ}
    (running : m.call argCount s = (.running, after))
    : Moved m s after := by
  unfold call State.fail at running
  split at running
  · simp at running
  dsimp only at running
  split at running
  · simp at running
  · exact moved_of_enter running
  · unfold callBuiltin State.fail at running
    dsimp only at running
    split at running
    · simp at running
    · exact Moved.of_push running rfl rfl rfl
  · simp at running

/-- Every instruction after which the run goes on has moved it in one of three ways. -/
theorem moved_of_apply {m : Machine} {instruction : Instruction} {s after : State σ}
    (running : m.apply instruction s = (.running, after))
    : Moved m s after := by
  unfold apply at running
  split at running
  · split at running
    · simp [State.fail] at running
    · exact Moved.of_push running rfl rfl rfl
  · split at running
    · simp [State.fail] at running
    · simp only [Prod.mk.injEq, true_and] at running
      subst running
      exact .forward rfl rfl (Nat.le_refl _)
  · exact moved_of_jump running
  · exact moved_of_access running
  · exact moved_of_call running
  · exact moved_of_ret running
  · exact moved_of_operate running

/-- A step after which the run goes on lowers its weight. -/
theorem weight_lt_of_step {m : Machine} {s after : State σ}
    (running : m.step s = (.running, after))
    : m.weight after < m.weight s := by
  unfold step State.fail State.halt at running
  split at running
  · simp at running
  split at running
  · simp at running
  rename_i code found
  split at running
  · split at running <;> simp at running
  split at running
  · simp at running
  · rename_i inside _ instruction _
    refine weight_lt_of_moved (moved_of_apply running) rfl ?_
    have := instruction.length_pos
    simp only [remaining, found, Option.map_some, Option.getD_some]
    omega

/-- Runs to the end: to a result or to a fault, and gives the state that is left. -/
def run (m : Machine) (s : State σ) : Except Fault Value × State σ :=
  match _running : m.step s with
  | (.running, after) => run m after
  | (.halted value, after) => (.ok value, after)
  | (.failed fault, after) => (.error fault, after)
termination_by m.weight s
decreasing_by exact weight_lt_of_step _running

end Machine

end StackScript

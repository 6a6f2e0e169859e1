import StackScript.Machine.Step
import StackScript.Proofs.Bytecode.Decoding

/-! What a step can do to a state, whatever the code. Code from elsewhere may jump into the
middle of instructions, take values from below the base of its frame and call what does not
belong to it; still an instruction moves on in its frame, enters a function, returns from
one, ends the run or fails, and a failure leaves all as it was but for the values that it has
taken off the stack.
-/

namespace StackScript

variable {σ : Type}

/-- The next instruction of a run. -/
def Machine.next? (m : Machine) (s : State σ) : Option Instruction :=
  (m.program.code? s.function).bind fun bytes => (Instruction.decode bytes s.ip).toOption

/-- There is a next instruction if there is code and one can be read where the run stands. -/
theorem Machine.next?_eq_some {m : Machine} {s : State σ} {instruction : Instruction}
    : m.next? s = some instruction
      ↔ ∃ code,
          m.program.code? s.function = some code
          ∧ Instruction.decode code s.ip = .ok instruction := by
  rw [next?, Option.bind_eq_some_iff]
  refine exists_congr fun code => and_congr_right fun _ => ?_
  cases Instruction.decode code s.ip <;> simp [Except.toOption]

/-- Backwards an array starts with its last entry. -/
theorem Array.toList_reverse_of_back? {α : Type} {values : Array α} {last : α}
    (found : values.back? = some last)
    : values.toList.reverse = last :: values.pop.toList.reverse := by
  obtain ⟨others, rfl⟩ := Array.back?_eq_some_iff.mp found
  simp

-----------------------------------------------------------------------------------------
-- Failures
-----------------------------------------------------------------------------------------

/-- The value that is called with so many arguments, if the stack is high enough. -/
def callee? (stack : Array Value) (argCount : UInt8) : Option Value :=
  if stack.size < argCount.toNat + 1 then none
  else stack[stack.size - (argCount.toNat + 1)]?

/-- How many values a step that fails has taken off the stack by then: a built-in function its
arguments, an operator the operands that it found, and every other step none.
-/
inductive Spends [Sink σ] (next : Option Instruction) (stack : Array Value) (sink : σ)
    : Fault → Nat → Prop
  | builtin {argCount : UInt8} {builtin : Builtin} {identity : Nat} {fault : Fault}
    (call : next = some (.call argCount))
    (callee : callee? stack argCount = some (.native builtin identity))
    (failed
      : (builtin.call (stack.toList.drop (stack.size - argCount.toNat)) sink).1 = .error fault)
    : Spends next stack sink fault argCount.toNat
  | operands {op : Operator} {others : Array Value} {left right : Value} {fault : Fault}
    (operate : next = some (.operate op)) (found : stack = (others.push left).push right)
    (rejected : op.applyValues left right = .error fault)
    : Spends next stack sink fault 2
  | operand {op : Operator} {right : Value} (operate : next = some (.operate op))
    (found : stack = #[right])
    : Spends next stack sink .stackUnderflow 1
  | other {fault : Fault} (noOperand : ∀ op, next = some (.operate op) → stack = #[])
    (noBuiltin
      : ∀ argCount builtin identity,
          next = some (.call argCount) → callee? stack argCount ≠ some (.native builtin identity))
    : Spends next stack sink fault 0

-----------------------------------------------------------------------------------------
-- Instructions
-----------------------------------------------------------------------------------------

/-- What comes of an instruction behind which the state already stands. -/
inductive Change [Sink σ] (m : Machine) (instruction : Instruction) (before : State σ)
    : Outcome × State σ → Prop
  | moves {ip : Nat} {globals : Array (Option Value)} {stack : Array Value} {sink : σ}
    (size : stack.size ≤ m.limits.maxStack)
    (stored
      : globals = before.globals
        ∨ ∃ slot value,
            reservedSlots < slot ∧ globals = State.storeGlobal before.globals slot value)
    : Change m instruction before
        (.running, { before with ip := ip, globals := globals, stack := stack, sink := sink })
  | enters {id : UInt8} {function : Function} {place : Nat}
    (found : m.program.function? id.toNat = some function)
    (room : before.callers.size + 1 < m.limits.maxFrames)
    : Change m instruction before
        (.running,
          { before with
            callers := before.callers.push ⟨before.function, before.ip, before.base⟩
            base := place + 1
            ip := 0
            function := id.toNat })
  | returns {value : Value} {frame : Frame} (top : before.stack.back? = some value)
    (caller : before.callers.back? = some frame)
    : Change m instruction before
        (.running,
          { before with
            stack := (before.stack.pop.shrink (before.base - 1)).push value
            callers := before.callers.pop
            ip := frame.ip
            base := frame.base
            function := frame.function })
  | halts {value : Value}
    : Change m instruction before (.halted value, { before with result := some value })
  | fails {fault : Fault} {kept gone : Array Value} {sink : σ}
    (split : before.stack = kept ++ gone)
    (spends : Spends (some instruction) before.stack before.sink fault gone.size)
    : Change m instruction before (.failed fault, { before with stack := kept, sink := sink })

namespace Change

variable [Sink σ] {m : Machine} {s : State σ} {instruction : Instruction}

/-- Going on with a stack that is not higher, and with the same globals. -/
theorem shortens {ip : Nat} {stack : Array Value} (fits : s.stack.size ≤ m.limits.maxStack)
    (size : stack.size ≤ s.stack.size)
    : Change m instruction s (.running, { s with ip := ip, stack := stack }) :=
  .moves (Nat.le_trans size fits) (.inl rfl)

/-- A fault before anything is taken off the stack. -/
theorem unspent {fault : Fault}
    (noOperand : ∀ op, instruction = .operate op → s.stack = #[])
    (noBuiltin
      : ∀ argCount builtin identity,
          instruction = .call argCount
          → callee? s.stack argCount ≠ some (.native builtin identity))
    : Change m instruction s (s.fail fault) := by
  have none : s.stack = s.stack ++ #[] := Array.append_empty.symm
  refine .fails none (.other ?_ ?_)
  · exact fun op same => noOperand op (Option.some.inj same)
  · exact fun argCount builtin identity same =>
      noBuiltin argCount builtin identity (Option.some.inj same)

omit [Sink σ] in
/-- A value is put on a stack that has room for it. -/
theorem push_eq {value : Value} (room : s.stack.size < m.limits.maxStack)
    : m.push value s = (.running, { s with stack := s.stack.push value }) := by
  rw [Machine.push, if_neg (Nat.not_le.mpr room)]

/-- An instruction that only puts a value on the stack. -/
theorem push {value : Value} (noOperator : ∀ op, instruction ≠ .operate op)
    (noCall : ∀ argCount, instruction ≠ .call argCount)
    : Change m instruction s (m.push value s) := by
  by_cases room : s.stack.size < m.limits.maxStack
  · rw [push_eq room]
    refine .moves ?_ (.inl rfl)
    rw [Array.size_push]
    exact room
  · rw [Machine.push, if_pos (Nat.not_lt.mp room)]
    exact .unspent (fun op same => absurd same (noOperator op))
      (fun argCount _ _ same => absurd same (noCall argCount))

theorem jump {when : Jump} {offset : UInt16} (fits : s.stack.size ≤ m.limits.maxStack)
    : Change m (.jump when offset) s (Machine.jump when offset s) := by
  have goesOn : ∀ (taken : Bool) (stack : Array Value), stack.size ≤ s.stack.size
      → Change m (.jump when offset) s ({ s with stack := stack }.jumpIf taken offset) := by
    intro taken stack size
    unfold State.jumpIf
    split
    · exact .shortens fits size
    · exact .shortens fits size
  have same : ∀ taken, Change m (.jump when offset) s (s.jumpIf taken offset) :=
    fun taken => goesOn taken s.stack (Nat.le_refl _)
  cases when with
  | always => exact same true
  | popFalsy =>
      unfold Machine.jump
      cases s.stack.back? with
      | none => exact .unspent nofun nofun
      | some top =>
          refine goesOn _ s.stack.pop ?_
          rw [Array.size_pop]
          exact Nat.sub_le _ _
  | keepTruthy =>
      unfold Machine.jump
      cases s.stack.back? with
      | none => exact .unspent nofun nofun
      | some top => exact same _
  | keepFalsy =>
      unfold Machine.jump
      cases s.stack.back? with
      | none => exact .unspent nofun nofun
      | some top => exact same _

theorem access {what : Access} {slot : UInt8} (fits : s.stack.size ≤ m.limits.maxStack)
    : Change m (.access what slot) s (m.access what slot s) := by
  cases what with
  | getLocal =>
      unfold Machine.access
      cases s.stack[s.base + slot.toNat]? with
      | none => exact .unspent nofun nofun
      | some value => exact .push nofun nofun
  | setLocal =>
      unfold Machine.access
      cases s.stack.back? with
      | none => exact .unspent nofun nofun
      | some top =>
          dsimp only
          split
          · exact .shortens fits (Nat.le_of_eq Array.size_setIfInBounds)
          · exact .unspent nofun nofun
  | getGlobal =>
      unfold Machine.access
      cases s.globals[slot.toNat]?.join with
      | none => exact .unspent nofun nofun
      | some value => exact .push nofun nofun
  | setGlobal =>
      unfold Machine.access
      cases s.stack.back? with
      | none => exact .unspent nofun nofun
      | some top =>
          dsimp only
          split
          · exact .shortens fits (Nat.le_refl _)
          · rename_i free
            exact .moves fits (.inr ⟨slot.toNat, top, Nat.not_le.mp free, rfl⟩)

/-- A call enters a function, or fails before it has taken anything off the stack. -/
theorem enter {argCount id : UInt8} {place : Nat}
    (callee : callee? s.stack argCount = some (.function id))
    : Change m (.call argCount) s (m.enter id argCount place s) := by
  have fails : ∀ fault, Change m (.call argCount) s (s.fail fault) := by
    intro fault
    refine .unspent nofun ?_
    rintro _ builtin identity ⟨⟩
    rw [callee]
    exact nofun
  unfold Machine.enter
  split
  · exact fails _
  · rename_i function found
    split
    · exact fails _
    · split
      · exact fails _
      · rename_i room
        exact .enters found (Nat.not_le.mp room)

/-- A built-in function gives way to its result, which always has room there, or fails when its
arguments are gone.
-/
theorem callBuiltin {argCount : UInt8} {builtin : Builtin} {identity : Nat}
    (fits : s.stack.size ≤ m.limits.maxStack) (enough : argCount.toNat + 1 ≤ s.stack.size)
    (callee : callee? s.stack argCount = some (.native builtin identity))
    : Change m (.call argCount) s
        (m.callBuiltin builtin (s.stack.size - (argCount.toNat + 1)) s) := by
  have first : s.stack.size - (argCount.toNat + 1) + 1 = s.stack.size - argCount.toNat := by
    omega
  have args : (s.stack.extract (s.stack.size - argCount.toNat) s.stack.size).toList
      = s.stack.toList.drop (s.stack.size - argCount.toNat) := by
    rw [Array.toList_extract, List.extract_eq_take_drop]
    exact List.take_of_length_le (by simp)
  unfold Machine.callBuiltin
  dsimp only
  rw [first, args]
  split
  · rename_i fault sink failed
    have split : s.stack
        = s.stack.shrink (s.stack.size - argCount.toNat)
          ++ s.stack.extract (s.stack.size - argCount.toNat) s.stack.size := by
      apply Array.toList_inj.mp
      rw [Array.toList_append, Array.toList_shrink, args, List.take_append_drop]
    have spent : (s.stack.extract (s.stack.size - argCount.toNat) s.stack.size).size
        = argCount.toNat := by
      rw [Array.size_extract]
      omega
    refine .fails split ?_
    rw [spent]
    exact .builtin rfl callee (congrArg Prod.fst failed)
  · rename_i value sink called
    have size : (s.stack.shrink (s.stack.size - (argCount.toNat + 1))).size
        = s.stack.size - (argCount.toNat + 1) :=
      Array.size_shrink.trans (Nat.min_eq_left (Nat.sub_le _ _))
    have room : s.stack.size - (argCount.toNat + 1) < m.limits.maxStack := by omega
    rw [push_eq (by rw [size]; exact room)]
    refine .moves ?_ (.inl rfl)
    rw [Array.size_push, size]
    exact room

theorem call {argCount : UInt8} (fits : s.stack.size ≤ m.limits.maxStack)
    : Change m (.call argCount) s (m.call argCount s) := by
  unfold Machine.call
  split
  · rename_i short
    refine .unspent nofun ?_
    rintro _ builtin identity ⟨⟩
    rw [callee?, if_pos short]
    exact nofun
  · rename_i enough
    have callee : callee? s.stack argCount
        = s.stack[s.stack.size - (argCount.toNat + 1)]? :=
      if_neg enough
    dsimp only
    split
    · rename_i missing
      refine .unspent nofun ?_
      rintro _ builtin identity ⟨⟩
      rw [callee, missing]
      exact nofun
    · rename_i id found
      exact .enter (callee.trans found)
    · rename_i builtin identity found
      exact .callBuiltin fits (Nat.not_lt.mp enough) (callee.trans found)
    · rename_i other noFunction noBuiltin found
      refine .unspent nofun ?_
      rintro _ builtin identity ⟨⟩ same
      rw [callee, found] at same
      exact noBuiltin builtin identity (Option.some.inj same)

theorem ret {s : State σ} : Change m .ret s (Machine.ret s) := by
  unfold Machine.ret
  split
  · exact .unspent nofun nofun
  · rename_i value top
    split
    · exact .halts
    · rename_i frame caller
      exact .returns top caller

/-- An operator takes its right operand and then its left one, and there is room for its result
in their place.
-/
theorem operate {op : Operator} (fits : s.stack.size ≤ m.limits.maxStack)
    : Change m (.operate op) s (m.operate op s) := by
  unfold Machine.operate
  split
  · rename_i empty
    exact .unspent (fun _ _ => Array.back?_eq_none_iff.mp empty) nofun
  · rename_i right top
    obtain ⟨others, found⟩ := Array.back?_eq_some_iff.mp top
    unfold Machine.operateOn
    dsimp only
    rw [found, Array.pop_push]
    split
    · rename_i empty
      obtain rfl := Array.back?_eq_none_iff.mp empty
      have split : s.stack = #[] ++ #[right] := found
      exact .fails split (.operand rfl found)
    · rename_i left second
      obtain ⟨others, rfl⟩ := Array.back?_eq_some_iff.mp second
      rw [Array.pop_push]
      split
      · rename_i fault rejected
        have split : s.stack = others ++ #[left, right] := by
          rw [found, Array.push_eq_append, Array.push_eq_append, Array.append_assoc]
          rfl
        exact .fails split (.operands rfl found rejected)
      · rename_i value applied
        have size := congrArg Array.size found
        rw [Array.size_push, Array.size_push] at size
        have room : others.size + 1 < m.limits.maxStack := by omega
        have pushed : m.push value { s with stack := others }
            = (.running, { s with stack := others.push value }) :=
          push_eq (Nat.lt_of_succ_lt room)
        rw [pushed]
        refine .moves ?_ (.inl rfl)
        rw [Array.size_push]
        exact Nat.le_of_lt room

/-- Whatever the state, an instruction makes one of the changes. -/
theorem apply (fits : s.stack.size ≤ m.limits.maxStack)
    : Change m instruction s (m.apply instruction s) := by
  cases instruction with
  | push constant =>
      unfold Machine.apply
      dsimp only
      split
      · exact .unspent nofun nofun
      · exact .push nofun nofun
  | pop =>
      unfold Machine.apply
      dsimp only
      split
      · exact .unspent nofun nofun
      · refine .shortens fits ?_
        rw [Array.size_pop]
        exact Nat.sub_le _ _
  | jump when offset => exact jump fits
  | access what slot => exact access fits
  | call argCount => exact call fits
  | ret => exact ret
  | operate op => exact operate fits

end Change

-----------------------------------------------------------------------------------------
-- Steps
-----------------------------------------------------------------------------------------

/-- What comes of a step: nothing once the run has its result, a failure or the end of the run
where there is no instruction, and else what the instruction does.
-/
inductive Transition [Sink σ] (m : Machine) (s : State σ) : Outcome × State σ → Prop
  | rests {value : Value} (done : s.result = some value) : Transition m s (.halted value, s)
  | ends (next : m.next? s = none)
    : Transition m s (.halted .null, { s with result := some .null })
  | stuck {fault : Fault} (next : m.next? s = none) : Transition m s (.failed fault, s)
  | carries {instruction : Instruction} {after : Outcome × State σ}
    (next : m.next? s = some instruction)
    (change : Change m instruction { s with ip := s.ip + instruction.length } after)
    : Transition m s after

/-- Whatever the code, a step makes one of the transitions. -/
theorem Machine.step_transition [Sink σ] (m : Machine) {s : State σ}
    (fits : s.stack.size ≤ m.limits.maxStack)
    : Transition m s (m.step s) := by
  unfold step
  split
  · rename_i value done
    exact .rests done
  · split
    · rename_i missing
      refine .stuck ?_
      rw [next?, missing]
      rfl
    · rename_i code found
      have none : ∀ error, Instruction.decode code s.ip = .error error → m.next? s = none := by
        intro error malformed
        rw [next?, found, Option.bind_some, malformed]
        rfl
      split
      · rename_i ends
        have unread := none _ (Instruction.decode_of_size_le ends)
        split
        · exact .ends unread
        · exact .stuck unread
      · split
        · rename_i error malformed
          exact .stuck (none error malformed)
        · rename_i instruction decoded
          exact .carries (next?_eq_some.mpr ⟨code, found, decoded⟩) (.apply fits)

end StackScript
